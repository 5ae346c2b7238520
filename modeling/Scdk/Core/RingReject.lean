import Scdk.Core.RingAccounting

/-! # Batches that are rejected

    `scdk_user_ring_submit` enqueues the descriptors of a batch one at a time.  A
    batch that finds less room than it needs is rejected with `SCDK_ERR_BUSY` when
    the queue is full, and the descriptors before stay in the queue.

    * `userRingFill`: the submission up to the call of the endpoint,
    * `submitLoop_exact`: as many descriptors are enqueued as there is room for,
    * `rejected_unchanged_iff`: a submission that is rejected leaves the queues as they
      were exactly when the ring was full or had room for the whole batch. -/

namespace Scdk

variable {δ : Type}

/-! ## The loop -/

/-- The number of free entries of the submission queue. -/
def Ring.sqRoom (ring : Ring) : Nat := ring.entries.toNat - ring.sq.count.toNat

/-- A descriptor in memory that was validated. -/
theorem K.userCopyFrom_desc {k : Kernel δ} {ptr : UInt64}
    (hval : Scdk.userValidateRange k.vmm ptr ringDescSize false = .ok ()) :
    K.userCopyFrom ptr ringDescSize k =
      (.ok (userBytes k.vmm k.frames ptr ringDescSize.toNat),
        k.after k.rings k.devices [.validated ptr ringDescSize false]) := by
  have hne : ringDescSize ≠ 0 := by decide
  unfold K.userCopyFrom
  rw [Effect.bind_of_ok (Effect.require_pos hne _), Effect.bind_run, K.userValidateRange_run, hval]
  rfl

/-- `scdk_ring_submit` on a ring that is full. -/
theorem K.ringSubmit_full {k : Kernel δ} {ringCap : UInt64} {i : Fin maxRings}
    (hi : ringLookup k.objects k.caps k.rings ringCap Right.write = .ok i)
    (hfull : (k.rings i).ring.sqRoom = 0) (desc : RingDesc) :
    K.ringSubmit ringCap desc k = (.error .busy, k) := by
  have hbusy : queuePush (k.rings i).ring.entries (k.rings i).ring.sq desc = .error .busy := by
    unfold Ring.sqRoom at hfull
    unfold queuePush
    rw [if_pos]
    rw [UInt32.le_iff_toNat_le]
    omega
  unfold K.ringSubmit Scdk.ringSubmit
  rw [hi]
  simp only [hbusy]

/-- `scdk_ring_submit` on a ring with room. -/
theorem K.ringSubmit_room {k : Kernel δ} {ringCap : UInt64} {i : Fin maxRings}
    (hi : ringLookup k.objects k.caps k.rings ringCap Right.write = .ok i)
    (hroom : (k.rings i).ring.sqRoom ≠ 0) (desc : RingDesc) :
    K.ringSubmit ringCap desc k =
      (.ok (), k.after (k.rings.setRing i ((k.rings i).ring.pushSq [desc])) k.devices []) := by
  have hpush : queuePush (k.rings i).ring.entries (k.rings i).ring.sq desc =
      .ok ((k.rings i).ring.sq.push (k.rings i).ring.entries desc) := by
    unfold Ring.sqRoom at hroom
    exact queuePush_room (by omega) desc
  unfold K.ringSubmit Scdk.ringSubmit
  rw [hi]
  simp only [hpush, Kernel.after, List.append_nil]
  rfl

theorem Ring.sqRoom_pushSq {ring : Ring} (hroom : ring.sqRoom ≠ 0) (desc : RingDesc) :
    (ring.pushSq [desc]).sqRoom + 1 = ring.sqRoom := by
  have hlt := ring.entries.toNat_lt
  unfold Ring.sqRoom at hroom ⊢
  have hcount : (ring.pushSq [desc]).sq.count.toNat = ring.sq.count.toNat + 1 :=
    Circular.count_push _ _ _ (by omega)
  have hentries : (ring.pushSq [desc]).entries = ring.entries := rfl
  rw [hcount, hentries]
  omega

/-- **The loop.**  Over memory that was validated, the submission loop enqueues as
    many descriptors as there is room for, and is busy if these are not all. -/
theorem submitLoop_exact {ringCap : UInt64} {i : Fin maxRings} (n : Nat) :
    ∀ (k : Kernel δ) (ptr : UInt64),
      ringLookup k.objects k.caps k.rings ringCap Right.write = .ok i →
      (∀ j < n, Scdk.userValidateRange k.vmm (ptr + ringDescSize * UInt64.ofNat j) ringDescSize
        false = .ok ()) →
      ∃ events, submitLoop ringCap n ptr k =
        (if n ≤ (k.rings i).ring.sqRoom then .ok () else .error .busy,
          k.after (k.rings.setRing i ((k.rings i).ring.pushSq
            ((batchAt k n ptr).take (k.rings i).ring.sqRoom))) k.devices events) := by
  -- By induction on the batch: each descriptor takes one of the free entries.
  induction n with
  | zero =>
    intro k ptr _ _
    refine ⟨[], ?_⟩
    rw [if_pos (Nat.zero_le _), batchAt, List.take_nil, Ring.pushSq_nil, setRing_self,
      Kernel.after_nil]
    rfl
  | succ n ih =>
    intro k ptr hi hval
    obtain ⟨hval0, hbehind⟩ := validated_cons hval
    set desc := RingDesc.ofBytes (userBytes k.vmm k.frames ptr ringDescSize.toNat) with hdesc
    set k₁ := k.after k.rings k.devices [.validated ptr ringDescSize false] with hk₁
    unfold submitLoop
    rw [Effect.bind_of_ok (K.userCopyFrom_desc hval0)]
    by_cases hfull : (k.rings i).ring.sqRoom = 0
    · -- No room for the first of them.
      refine ⟨[.validated ptr ringDescSize false], ?_⟩
      rw [Effect.bind_of_error (K.ringSubmit_full (k := k₁) hi hfull desc), hfull,
        if_neg (by omega), List.take_zero, Ring.pushSq_nil, setRing_self]
    · set k₂ := k.after (k.rings.setRing i ((k.rings i).ring.pushSq [desc])) k.devices
        [.validated ptr ringDescSize false] with hk₂
      have hpush : K.ringSubmit ringCap desc k₁ = (.ok (), k₂) := by
        rw [K.ringSubmit_room (k := k₁) hi hfull desc, hk₁, Kernel.after_after, List.append_nil]
        rfl
      obtain ⟨events, hloop⟩ := ih k₂ (ptr + ringDescSize)
        ((ringLookup_setRing_eq _ _ _ _ _ _ _).trans hi) hbehind
      have hring : (k₂.rings i).ring = (k.rings i).ring.pushSq [desc] :=
        RingTable.setRing_ring_self k.rings i _
      -- What fits behind the first descriptor is one less.
      have hroom := Ring.sqRoom_pushSq hfull desc
      refine ⟨[.validated ptr ringDescSize false] ++ events, ?_⟩
      rw [Effect.bind_of_ok hpush, hloop, hring, batchAt_after]
      have hle : n ≤ ((k.rings i).ring.pushSq [desc]).sqRoom ↔ n + 1 ≤ (k.rings i).ring.sqRoom := by
        omega
      have htake : (batchAt k (n + 1) ptr).take (k.rings i).ring.sqRoom =
          desc :: (batchAt k n (ptr + ringDescSize)).take
            ((k.rings i).ring.pushSq [desc]).sqRoom := by
        rw [← hroom, batchAt, List.take_succ_cons]
      simp only [hle, htake, hk₂, Kernel.after_after, Kernel.after_rings, Kernel.after_devices,
        setRing_setRing]
      rfl

/-! ## The whole submission -/

/-- `scdk_user_ring_submit` up to the call of the endpoint. -/
def userRingFill (sourceTask ringCap userDescs : UInt64) (count : UInt32) : K δ UInt64 := do
  let target ← userRingTarget sourceTask ringCap userDescs count
  K.userValidateRange userDescs (ringDescSize * count.toUInt64) false
  submitLoop ringCap count.toNat userDescs
  pure target

/-- The endpoint is called exactly when the batch was filled in. -/
theorem userRingSubmit_fill (p : Platform δ) (sourceTask ringCap ptr : UInt64) (count : UInt32)
    (k : Kernel δ) :
    userRingSubmit p sourceTask ringCap ptr count k =
      match userRingFill sourceTask ringCap ptr count k with
      | (.error e, k') => (.error e, k')
      | (.ok target, k') =>
        endpointCall p target { k' with msg := processMessage sourceTask ringCap count } := by
  unfold userRingSubmit userRingFill
  rw [Effect.bind_run, Effect.bind_run]
  rcases userRingTarget sourceTask ringCap ptr count k with ⟨r, k₁⟩
  cases r with
  | error e => rfl
  | ok target =>
    dsimp only
    rw [Effect.bind_run, Effect.bind_run]
    rcases K.userValidateRange ptr (ringDescSize * count.toUInt64) false k₁ with ⟨r, k₂⟩
    cases r with
    | error e => rfl
    | ok u =>
      dsimp only
      rw [Effect.bind_run, Effect.bind_run]
      rcases submitLoop ringCap count.toNat ptr k₂ with ⟨r, k₃⟩
      cases r with
      | error e => rfl
      | ok u => rfl

/-- The checks before the loop pass. -/
structure ReachesLoop (k : Kernel δ) (sourceTask ringCap ptr : UInt64) (count : UInt32)
    (target : UInt64) : Prop where
  checked : userRingTarget sourceTask ringCap ptr count k = (.ok target, k)
  small : count.toNat ≤ ringMaxEntries
  readable : Scdk.userValidateRange k.vmm ptr (ringDescSize * count.toUInt64) false = .ok ()

section fill

variable {k : Kernel δ} {sourceTask ringCap ptr : UInt64} {count : UInt32}

/-- What is filled in once the checks have passed. -/
theorem ReachesLoop.fill {target : UInt64} (h : ReachesLoop k sourceTask ringCap ptr count target)
    {i : Fin maxRings} (hi : ringLookup k.objects k.caps k.rings ringCap Right.write = .ok i) :
    ∃ events, userRingFill sourceTask ringCap ptr count k =
      (if count.toNat ≤ (k.rings i).ring.sqRoom then .ok target else .error .busy,
        k.after (k.rings.setRing i ((k.rings i).ring.pushSq
          ((batchAt k count.toNat ptr).take (k.rings i).ring.sqRoom))) k.devices events) := by
  set k₁ := k.after k.rings k.devices [.validated ptr (ringDescSize * count.toUInt64) false] with hk₁
  obtain ⟨events, hloop⟩ := submitLoop_exact count.toNat k₁ ptr hi
    (userValidateRange_entries (by decide) h.small h.readable)
  refine ⟨[.validated ptr (ringDescSize * count.toUInt64) false] ++ events, ?_⟩
  have hrun : userRingFill sourceTask ringCap ptr count k =
      (submitLoop ringCap count.toNat ptr >>= fun _ => pure target) k₁ := by
    unfold userRingFill
    rw [Effect.bind_of_ok h.checked, Effect.bind_run, K.userValidateRange_run, h.readable]
  have hrings : k₁.rings = k.rings := rfl
  rw [hk₁, batchAt_after, Kernel.after_after, ← hk₁, hrings] at hloop
  rw [hrun, Effect.bind_run, hloop]
  by_cases hfits : count.toNat ≤ (k.rings i).ring.sqRoom
  · rw [if_pos hfits, if_pos hfits]
    rfl
  · rw [if_neg hfits, if_neg hfits]
    rfl

/-- Without a ring behind the token nothing is filled in. -/
theorem ReachesLoop.refused {target : UInt64}
    (h : ReachesLoop k sourceTask ringCap ptr count target) {e : Err}
    (hi : ringLookup k.objects k.caps k.rings ringCap Right.write = .error e) :
    (userRingFill sourceTask ringCap ptr count k).2.rings = k.rings := by
  set k₁ := k.after k.rings k.devices [.validated ptr (ringDescSize * count.toUInt64) false] with hk₁
  have hrun : userRingFill sourceTask ringCap ptr count k =
      (submitLoop ringCap count.toNat ptr >>= fun _ => pure target) k₁ := by
    unfold userRingFill
    rw [Effect.bind_of_ok h.checked, Effect.bind_run, K.userValidateRange_run, h.readable]
  rw [hrun]
  cases count.toNat with
  | zero => rfl
  | succ n =>
    unfold submitLoop
    rcases K.userCopyFrom_run k₁ ptr ringDescSize with ⟨e', hcopy⟩ | ⟨_, _, hcopy⟩
    · rw [Effect.bind_of_error (Effect.bind_of_error hcopy _)]
      rfl
    · have hsubmit : ∀ desc : RingDesc, K.ringSubmit ringCap desc
          (k₁.after k₁.rings k₁.devices [.validated ptr ringDescSize false]) =
          (.error e, k₁.after k₁.rings k₁.devices [.validated ptr ringDescSize false]) := by
        intro desc
        simp [K.ringSubmit, Scdk.ringSubmit, hk₁, hi, Kernel.after]
      rw [Effect.bind_run, Effect.bind_of_ok hcopy, Effect.bind_of_error (hsubmit _)]
      rfl

/-- A submission that does not reach the loop changes no ring. -/
theorem userRingFill_cases (k : Kernel δ) (sourceTask ringCap ptr : UInt64) (count : UInt32) :
    (∃ target, ReachesLoop k sourceTask ringCap ptr count target) ∨
      (userRingFill sourceTask ringCap ptr count k).2.rings = k.rings := by
  unfold userRingFill
  rcases userRingTarget_run sourceTask ringCap ptr count k with
    ⟨e, htarget⟩ | ⟨s, _, hmax, _, _, htarget⟩
  · right
    rw [Effect.bind_of_error htarget]
  cases hval : Scdk.userValidateRange k.vmm ptr (ringDescSize * count.toUInt64) false with
  | error e =>
    right
    rw [Effect.bind_of_ok htarget, Effect.bind_run, K.userValidateRange_run, hval]
  | ok u => exact .inl ⟨_, htarget, hmax, hval⟩

theorem Circular.tail_pushAll {n : Nat} [NeZero n] {α : Type} (entries : UInt32) (xs : List α) :
    ∀ q : Circular n α, (q.pushAll entries xs).tail = q.tail + UInt32.ofNat xs.length := by
  induction xs with
  | nil =>
    intro q
    simp [Circular.pushAll]
  | cons x xs ih =>
    intro q
    rw [Circular.pushAll, ih, List.length_cons, UInt32.ofNat_add, UInt32.add_comm (UInt32.ofNat _),
      ← UInt32.add_assoc]
    rfl

/-- Some descriptors in the queue change it: the tail counts them. -/
theorem Ring.pushSq_sq_ne {ring : Ring} {batch : List RingDesc} (hpos : batch ≠ [])
    (hlen : batch.length < 2 ^ 32) : (ring.pushSq batch).sq ≠ ring.sq := by
  intro heq
  have htail := congrArg Circular.tail heq
  have hcount : (ring.pushSq batch).sq.tail = ring.sq.tail + UInt32.ofNat batch.length :=
    Circular.tail_pushAll _ _ _
  rw [hcount] at htail
  have hnat := congrArg UInt32.toNat htail
  have hlt := ring.sq.tail.toNat_lt
  have hlength := List.length_pos_of_ne_nil hpos
  rw [UInt32.toNat_add, UInt32.toNat_ofNat', Nat.mod_eq_of_lt hlen] at hnat
  omega

end fill

/-- The condition: a batch that gets past the checks finds the ring full, or room for
    all of it. -/
def FullOrFits (k : Kernel δ) (sourceTask ringCap ptr : UInt64) (count : UInt32) : Prop :=
  ∀ target i, ReachesLoop k sourceTask ringCap ptr count target →
    ringLookup k.objects k.caps k.rings ringCap Right.write = .ok i →
    (k.rings i).ring.sqRoom = 0 ∨ count.toNat ≤ (k.rings i).ring.sqRoom

/-- **Rejected batches.**  A submission that returns an error without having called
    the bound endpoint is one whose filling fails; it leaves the submission queues as
    they were exactly under that condition. -/
theorem rejected_unchanged_iff (p : Platform δ) (k : Kernel δ) (sourceTask ringCap ptr : UInt64)
    (count : UInt32) :
    userRingSubmit p sourceTask ringCap ptr count k =
      (match userRingFill sourceTask ringCap ptr count k with
      | (.error e, k') => (.error e, k')
      | (.ok target, k') =>
        endpointCall p target { k' with msg := processMessage sourceTask ringCap count }) ∧
    ((∀ e k', userRingFill sourceTask ringCap ptr count k = (.error e, k') →
        ∀ j, (k'.rings j).ring.sq = (k.rings j).ring.sq) ↔
      FullOrFits k sourceTask ringCap ptr count) := by
  refine ⟨userRingSubmit_fill p sourceTask ringCap ptr count k, ?_⟩
  constructor
  · -- Part of the batch fits: those descriptors stay in the queue.
    intro hsame target i hloop hi
    by_contra hpart
    rw [not_or] at hpart
    obtain ⟨events, hfill⟩ := hloop.fill hi
    have hmax : count.toNat ≤ 64 := hloop.small
    rw [if_neg hpart.2] at hfill
    have hqueue := hsame _ _ hfill i
    rw [Kernel.after_rings, RingTable.setRing_ring_self] at hqueue
    refine Ring.pushSq_sq_ne ?_ ?_ hqueue
    · intro hnil
      have hlen := congrArg List.length hnil
      rw [List.length_take, length_batchAt, List.length_nil] at hlen
      omega
    · rw [List.length_take, length_batchAt]
      omega
  · -- A full ring takes none, and one with room for all does not reject.
    intro hcond e k' hfill
    have hrings : k'.rings = k.rings := by
      rcases userRingFill_cases k sourceTask ringCap ptr count with ⟨target, hloop⟩ | hsame
      · cases hi : ringLookup k.objects k.caps k.rings ringCap Right.write with
        | error e' =>
          have hsame := hloop.refused hi
          rw [hfill] at hsame
          exact hsame
        | ok i =>
          obtain ⟨events, hrun⟩ := hloop.fill hi
          rcases hcond target i hloop hi with hfull | hfits
          · rw [hrun, hfull, List.take_zero, Ring.pushSq_nil, setRing_self] at hfill
            rw [← (Prod.mk.inj hfill).2]
            rfl
          · rw [hrun, if_pos hfits] at hfill
            cases hfill
      · rw [hfill] at hsame
        exact hsame
    intro j
    rw [hrings]

/-- Three descriptors for a ring of two entries: the endpoint is not called, and two of
    them stay in the queue. -/
theorem rejected_unchanged_fails :
    ¬ ∀ (k : Kernel Unit) (sourceTask ringCap ptr : UInt64) (count : UInt32) (e : Err)
        (k' : Kernel Unit), userRingFill sourceTask ringCap ptr count k = (.error e, k') →
      ∀ j, (k'.rings j).ring.sq = (k.rings j).ring.sq := by
  intro hall
  have hfill : (userRingFill (firstToken 4) (firstToken 6) 0x201000 3 ringMachine).1 =
      .error .busy := by decide +kernel
  have hqueue := hall ringMachine (firstToken 4) (firstToken 6) 0x201000 3 .busy
    (userRingFill (firstToken 4) (firstToken 6) 0x201000 3 ringMachine).2 (Prod.ext hfill rfl) 0
  have htail : ((userRingFill (firstToken 4) (firstToken 6) 0x201000 3 ringMachine).2.rings
      0).ring.sq.tail = 2 := by decide +kernel
  rw [hqueue] at htail
  exact absurd htail (by decide +kernel)

end Scdk
