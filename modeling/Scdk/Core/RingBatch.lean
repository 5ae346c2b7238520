import Scdk.Core.UserRing

/-! # Batches on a ring

    What the loops of `scdk_user_ring_submit`, `console_handle_ring_process`
    and `scdk_user_ring_poll` do to the state: they move descriptors and
    completions through the queues of one ring, and extend the trace.

    * `Kernel.after`: a state that differs in rings, devices and trace only,
    * `submitLoop_run`: the descriptors in memory (`batchAt`) are appended to the
      submission queue, up to the first that finds no room or cannot be read,
    * `consoleProcessDesc_run`: one descriptor, whose status depends on the
      tables and on memory only (`descStatus`),
    * `consoleRingLoop_cases`: one round of the loop of the console. -/

namespace Scdk

variable {δ : Type}

/-! ## States that differ in rings, devices and trace -/

/-- `k` with other rings and devices and with more events. -/
def Kernel.after (k : Kernel δ) (rings : RingTable) (devices : δ) (events : List Event) : Kernel δ :=
  { k with rings := rings, devices := devices, trace := k.trace ++ events }

section after

variable (k : Kernel δ) (rings rings' : RingTable) (devices devices' : δ) (events events' : List Event)

@[simp] theorem Kernel.after_objects : (k.after rings devices events).objects = k.objects := rfl

@[simp] theorem Kernel.after_caps : (k.after rings devices events).caps = k.caps := rfl

@[simp] theorem Kernel.after_grants : (k.after rings devices events).grants = k.grants := rfl

@[simp] theorem Kernel.after_vmm : (k.after rings devices events).vmm = k.vmm := rfl

@[simp] theorem Kernel.after_frames : (k.after rings devices events).frames = k.frames := rfl

@[simp] theorem Kernel.after_tasks : (k.after rings devices events).tasks = k.tasks := rfl

@[simp] theorem Kernel.after_rings : (k.after rings devices events).rings = rings := rfl

@[simp] theorem Kernel.after_devices : (k.after rings devices events).devices = devices := rfl

@[simp] theorem Kernel.after_trace :
    (k.after rings devices events).trace = k.trace ++ events := rfl

@[simp] theorem Kernel.after_after :
    (k.after rings devices events).after rings' devices' events' =
      k.after rings' devices' (events ++ events') := by
  simp [Kernel.after]

@[simp] theorem Kernel.after_nil : k.after k.rings k.devices [] = k := by
  simp [Kernel.after]

end after

/-- Only validations of user ranges. -/
def Validations (events : List Event) : Prop :=
  ∀ ev ∈ events, ∃ ptr size writable, ev = .validated ptr size writable

theorem validations_nil : Validations [] := fun _ h => absurd h List.not_mem_nil

theorem Validations.cons {events : List Event} (h : Validations events) (ptr size : UInt64)
    (writable : Bool) : Validations (.validated ptr size writable :: events) := by
  intro ev hev
  rcases List.mem_cons.mp hev with rfl | hev
  · exact ⟨ptr, size, writable, rfl⟩
  · exact h ev hev

theorem Validations.append {events events' : List Event} (h : Validations events)
    (h' : Validations events') : Validations (events ++ events') := by
  intro ev hev
  rcases List.mem_append.mp hev with hev | hev
  · exact h ev hev
  · exact h' ev hev

/-! ## Access to user memory -/

theorem K.userValidateRange_run (k : Kernel δ) (ptr size : UInt64) (writable : Bool) :
    K.userValidateRange ptr size writable k =
      match Scdk.userValidateRange k.vmm ptr size writable with
      | .error e => (.error e, k)
      | .ok _ => (.ok (), k.after k.rings k.devices [.validated ptr size writable]) := by
  unfold K.userValidateRange
  rw [Effect.bind_run]
  cases h : Scdk.userValidateRange k.vmm ptr size writable with
  | error e => simp [Effect.ask, h]
  | ok u => simp [Effect.ask, h, K.emit, Effect.modify, Kernel.after]

/-- Every entry of an array was validated with it. -/
theorem userValidateRange_entries {v : Vmm} {ptr size : UInt64} {count : UInt32} {writable : Bool}
    (hsize : 0 < size.toNat ∧ size.toNat ≤ 64) (hcount : count.toNat ≤ ringMaxEntries)
    (hval : Scdk.userValidateRange v ptr (size * count.toUInt64) writable = .ok ()) :
    ∀ j < count.toNat,
      Scdk.userValidateRange v (ptr + size * UInt64.ofNat j) size writable = .ok () := by
  intro j hj
  have hmax : count.toNat ≤ 64 := hcount
  have hvirt : userVirtTop.toNat = 0x800000000000 := rfl
  have htop := ((userValidateRange_eq_ok _ _ _ _).mp hval).1.top
  -- The array and the offset of its last entry are far too short to wrap.
  have harray : size.toNat * count.toNat ≤ 64 * 64 := Nat.mul_le_mul hsize.2 hmax
  have hnext : size.toNat * (j + 1) ≤ size.toNat * count.toNat := Nat.mul_le_mul_left _ hj
  rw [Nat.mul_succ] at hnext
  have htotal : (size * count.toUInt64).toNat = size.toNat * count.toNat := by
    rw [UInt64.toNat_mul, UInt32.toNat_toUInt64]
    exact Nat.mod_eq_of_lt (by omega)
  have hoff : (size * UInt64.ofNat j).toNat = size.toNat * j := by
    rw [UInt64.toNat_mul, UInt64.toNat_ofNat', Nat.mod_eq_of_lt (show j < 2 ^ 64 by omega)]
    exact Nat.mod_eq_of_lt (by omega)
  have hptr : (ptr + size * UInt64.ofNat j).toNat = ptr.toNat + size.toNat * j := by
    rw [UInt64.toNat_add, hoff, Nat.mod_eq_of_lt (by omega)]
  have hne : size ≠ 0 := by
    intro hzero
    rw [hzero] at hsize
    exact absurd hsize.1 (by decide)
  exact userValidateRange_part hval (by omega) (by omega) hne

/-- An array that is validated entry by entry is so at its first entry, and at the others
    behind it. -/
theorem validated_cons {v : Vmm} {ptr size : UInt64} {writable : Bool} {n : Nat}
    (hval : ∀ j < n + 1,
      Scdk.userValidateRange v (ptr + size * UInt64.ofNat j) size writable = .ok ()) :
    Scdk.userValidateRange v ptr size writable = .ok () ∧
      ∀ j < n,
        Scdk.userValidateRange v (ptr + size + size * UInt64.ofNat j) size writable = .ok () := by
  constructor
  · have h0 := hval 0 (Nat.succ_pos n)
    rwa [show UInt64.ofNat 0 = 0 from rfl, UInt64.mul_zero, UInt64.add_zero] at h0
  · intro j hj
    have hnext := hval (j + 1) (by omega)
    rwa [UInt64.ofNat_add, UInt64.mul_add, show UInt64.ofNat 1 = 1 from rfl, UInt64.mul_one,
      UInt64.add_comm (size * _), ← UInt64.add_assoc] at hnext

/-- A copy from user memory fails, or is preceded by a validation. -/
theorem K.userCopyFrom_run (k : Kernel δ) (ptr size : UInt64) :
    (∃ e, K.userCopyFrom ptr size k = (.error e, k)) ∨
    (size ≠ 0 ∧ Scdk.userValidateRange k.vmm ptr size false = .ok () ∧
      K.userCopyFrom ptr size k =
        (.ok (userBytes k.vmm k.frames ptr size.toNat),
          k.after k.rings k.devices [.validated ptr size false])) := by
  unfold K.userCopyFrom
  by_cases hsize : size ≠ 0
  · rw [Effect.bind_of_ok (Effect.require_pos hsize _), Effect.bind_run,
      K.userValidateRange_run]
    cases h : Scdk.userValidateRange k.vmm ptr size false with
    | error e => exact .inl ⟨e, rfl⟩
    | ok u => exact .inr ⟨hsize, rfl, rfl⟩
  · exact .inl ⟨_, Effect.bind_of_error (Effect.require_neg hsize _) _⟩

/-! ## The submission loop -/

/-- The `n` descriptors in user memory from `ptr` on. -/
def batchAt (k : Kernel δ) : Nat → UInt64 → List RingDesc
  | 0, _ => []
  | n + 1, ptr =>
    RingDesc.ofBytes (userBytes k.vmm k.frames ptr ringDescSize.toNat) ::
      batchAt k n (ptr + ringDescSize)

@[simp] theorem length_batchAt (k : Kernel δ) (n : Nat) (ptr : UInt64) :
    (batchAt k n ptr).length = n := by
  induction n generalizing ptr with
  | zero => rfl
  | succ n ih => simp [batchAt, ih]

theorem batchAt_after (k : Kernel δ) (rings : RingTable) (devices : δ) (events : List Event)
    (n : Nat) (ptr : UInt64) : batchAt (k.after rings devices events) n ptr = batchAt k n ptr := by
  induction n generalizing ptr with
  | zero => rfl
  | succ n ih => simp [batchAt, ih]

/-- The ring with the descriptors of `batch` pushed to its submission queue. -/
def Ring.pushSq (ring : Ring) (batch : List RingDesc) : Ring :=
  { ring with sq := ring.sq.pushAll ring.entries batch }

theorem setRing_setRing (rings : RingTable) (i : Fin maxRings) (r r' : Ring) :
    (rings.setRing i r).setRing i r' = rings.setRing i r' := by
  unfold RingTable.setRing
  simp

theorem setRing_self (rings : RingTable) (i : Fin maxRings) :
    rings.setRing i (rings i).ring = rings := by
  unfold RingTable.setRing
  simp

theorem ringLookup_setRing_eq (o : ObjectTable) (c : CapTable) (rings : RingTable)
    (i : Fin maxRings) (ring : Ring) (r right : UInt64) :
    ringLookup o c (rings.setRing i ring) r right = ringLookup o c rings r right := by
  unfold ringLookup
  simp only [RingTable.setRing_objectId]

@[simp] theorem Ring.pushSq_nil (ring : Ring) : ring.pushSq [] = ring := rfl

/-- The submission loop has pushed the first `m` descriptors of the batch to the
    ring of slot `i`, and all of them if it answered `SCDK_OK`. -/
structure Submitted (k : Kernel δ) (i : Fin maxRings) (batch : List RingDesc) (m : Nat)
    (events : List Event) (out : Except Err Unit × Kernel δ) : Prop where
  le : m ≤ batch.length
  validations : Validations events
  all : out.1 = .ok () → m = batch.length
  room : m ≠ 0 → (k.rings i).ring.sq.count.toNat + m ≤ (k.rings i).ring.entries.toNat
  state : out.2 =
    k.after (k.rings.setRing i ((k.rings i).ring.pushSq (batch.take m))) k.devices events

/-- A round that fails pushes nothing. -/
theorem submitted_none (k : Kernel δ) (i : Fin maxRings) (batch : List RingDesc)
    {events : List Event} (hev : Validations events) (e : Err) :
    Submitted k i batch 0 events (.error e, k.after k.rings k.devices events) where
  le := Nat.zero_le _
  validations := hev
  all := fun h => by cases h
  room := fun h => absurd rfl h
  state := by rw [List.take_zero, Ring.pushSq_nil, setRing_self]

/-- One more round before the others. -/
theorem Submitted.cons {k : Kernel δ} {i : Fin maxRings} {desc : RingDesc} {batch : List RingDesc}
    {m : Nat} {events events' : List Event} {out : Except Err Unit × Kernel δ}
    (hroom : (k.rings i).ring.sq.count.toNat < (k.rings i).ring.entries.toNat)
    (hev : Validations events)
    (h : Submitted (k.after (k.rings.setRing i ((k.rings i).ring.pushSq [desc])) k.devices events) i
      batch m events' out) :
    Submitted k i (desc :: batch) (m + 1) (events ++ events') out where
  le := Nat.succ_le_succ h.le
  validations := hev.append h.validations
  all := fun hok => congrArg (· + 1) (h.all hok)
  room := by
    intro _
    by_cases hm : m = 0
    · omega
    · have hlt := (k.rings i).ring.entries.toNat_lt
      have hle := h.room hm
      have hcount : ((k.rings i).ring.pushSq [desc]).sq.count.toNat =
          (k.rings i).ring.sq.count.toNat + 1 := Circular.count_push _ _ _ (by omega)
      have hentries : ((k.rings i).ring.pushSq [desc]).entries = (k.rings i).ring.entries := rfl
      simp only [Kernel.after_rings, RingTable.setRing_ring_self, hcount, hentries] at hle
      omega
  state := by
    rw [h.state]
    simp only [Kernel.after_after, Kernel.after_rings, Kernel.after_devices,
      RingTable.setRing_ring_self, setRing_setRing, List.take_succ_cons]
    rfl

/-- `scdk_ring_submit` on the ring of slot `i`. -/
theorem K.ringSubmit_run {k : Kernel δ} {ringCap : UInt64} {i : Fin maxRings}
    (hi : ringLookup k.objects k.caps k.rings ringCap Right.write = .ok i) (desc : RingDesc) :
    (∃ e, K.ringSubmit ringCap desc k = (.error e, k)) ∨
    ((k.rings i).ring.sq.count.toNat < (k.rings i).ring.entries.toNat ∧
      K.ringSubmit ringCap desc k =
        (.ok (), k.after (k.rings.setRing i ((k.rings i).ring.pushSq [desc])) k.devices [])) := by
  unfold K.ringSubmit Scdk.ringSubmit
  rw [hi]
  cases hpush : queuePush (k.rings i).ring.entries (k.rings i).ring.sq desc with
  | error e => exact .inl ⟨e, by simp only [hpush]⟩
  | ok sq =>
    obtain ⟨hroom, rfl⟩ := queuePush_eq_ok hpush
    refine .inr ⟨hroom, ?_⟩
    simp only [hpush, Kernel.after, List.append_nil]
    rfl

theorem submitLoop_run {ringCap : UInt64} {i : Fin maxRings} (n : Nat) :
    ∀ (k : Kernel δ) (ptr : UInt64),
      ringLookup k.objects k.caps k.rings ringCap Right.write = .ok i →
      ∃ m events, Submitted k i (batchAt k n ptr) m events (submitLoop ringCap n ptr k) := by
  induction n with
  | zero =>
    intro k ptr _
    refine ⟨0, [], Nat.le_refl 0, validations_nil, fun _ => rfl, fun h => absurd rfl h, ?_⟩
    rw [List.take_zero, Ring.pushSq_nil, setRing_self, Kernel.after_nil]
    rfl
  | succ n ih =>
    intro k ptr hi
    unfold submitLoop
    rcases K.userCopyFrom_run k ptr ringDescSize with ⟨e, hcopy⟩ | ⟨_, _, hcopy⟩
    · rw [Effect.bind_of_error hcopy]
      refine ⟨0, [], ?_⟩
      have hnone := submitted_none k i (batchAt k (n + 1) ptr) validations_nil e
      rwa [Kernel.after_nil] at hnone
    · rw [Effect.bind_of_ok hcopy]
      have hval := validations_nil.cons ptr ringDescSize false
      rcases K.ringSubmit_run (k := k.after k.rings k.devices [.validated ptr ringDescSize false]) hi
        (RingDesc.ofBytes (userBytes k.vmm k.frames ptr ringDescSize.toNat)) with
        ⟨e, hsubmit⟩ | ⟨hroom, hsubmit⟩
      · rw [Effect.bind_of_error hsubmit]
        exact ⟨0, _, submitted_none k i _ hval e⟩
      · rw [Effect.bind_of_ok hsubmit, Kernel.after_after, List.append_nil]
        -- The first descriptor is in the queue, and the others follow it.
        obtain ⟨m, events, hrest⟩ := ih
          (k.after (k.rings.setRing i ((k.rings i).ring.pushSq
              [RingDesc.ofBytes (userBytes k.vmm k.frames ptr ringDescSize.toNat)])) k.devices
            [.validated ptr ringDescSize false]) (ptr + ringDescSize)
          ((ringLookup_setRing_eq _ _ _ _ _ _ _).trans hi)
        rw [batchAt_after] at hrest
        exact ⟨m + 1, _, hrest.cons hroom hval⟩

/-! ## The loop of the console -/

/-- The status of one descriptor. -/
def descStatus (k : Kernel δ) (endpoint : UInt64) (desc : RingDesc) : Except Err Unit :=
  if desc.wellFormed endpoint then
    toStatus (userGrantCopyFrom k.objects k.caps k.grants k.vmm k.frames endpoint desc.grant
      desc.offset desc.length)
  else .error .inval

/-- `scdk_user_grant_copy_from` changes the trace only. -/
theorem K.userGrantCopyFrom_run (k : Kernel δ) (targetEndpoint grantCap offset length : UInt64) :
    K.userGrantCopyFrom targetEndpoint grantCap offset length k =
      match Scdk.userGrantCopyFrom k.objects k.caps k.grants k.vmm k.frames targetEndpoint grantCap
        offset length with
      | .error e => (.error e, k)
      | .ok (bytes, source) =>
        (.ok bytes, k.after k.rings k.devices
          [.grantRead k.tasks.currentUserTask grantCap source]) := by
  unfold K.userGrantCopyFrom
  rw [Effect.bind_run]
  cases h : Scdk.userGrantCopyFrom k.objects k.caps k.grants k.vmm k.frames targetEndpoint grantCap
    offset length with
  | error e => simp [Effect.ask, h]
  | ok r => simp [Effect.ask, h, Effect.bind_run, Effect.get, K.emit, Effect.modify, Kernel.after]

/-- One descriptor is refused without a trace, or its grant is read. -/
theorem consoleProcessDesc_run (p : Platform δ) (k : Kernel δ) (endpoint : UInt64)
    (desc : RingDesc) :
    (∃ e, descStatus k endpoint desc = .error e ∧
      consoleProcessDesc p endpoint desc k = (.error e, k)) ∨
    ∃ bytes source, descStatus k endpoint desc = .ok () ∧ desc.wellFormed endpoint ∧
      userGrantCopyFrom k.objects k.caps k.grants k.vmm k.frames endpoint desc.grant desc.offset
        desc.length = .ok (bytes, source) ∧
      consoleProcessDesc p endpoint desc k =
        (.ok (), k.after k.rings (p.consoleWrite k.devices bytes)
          [.grantRead k.tasks.currentUserTask desc.grant source]) := by
  unfold consoleProcessDesc descStatus
  by_cases hform : desc.wellFormed endpoint
  · rw [if_pos hform, Effect.bind_of_ok (Effect.require_pos hform _), Effect.bind_run,
      K.userGrantCopyFrom_run]
    cases hcopy : userGrantCopyFrom k.objects k.caps k.grants k.vmm k.frames endpoint desc.grant
      desc.offset desc.length with
    | error e => exact .inl ⟨e, rfl, rfl⟩
    | ok r => exact .inr ⟨r.1, r.2, rfl, hform, rfl, rfl⟩
  · rw [if_neg hform, Effect.bind_of_error (Effect.require_neg hform _)]
    exact .inl ⟨_, rfl, rfl⟩

/-- The ring without the oldest descriptor. -/
def Ring.popSq (ring : Ring) : Ring := { ring with sq := ring.sq.pop }

/-- The ring with one more completion. -/
def Ring.pushCq (ring : Ring) (completion : Completion) : Ring :=
  { ring with cq := ring.cq.push ring.entries completion }

section fields

variable (ring : Ring) (batch : List RingDesc) (completion : Completion)

@[simp] theorem Ring.popSq_entries : ring.popSq.entries = ring.entries := rfl

@[simp] theorem Ring.popSq_cq : ring.popSq.cq = ring.cq := rfl

@[simp] theorem Ring.popSq_boundTarget : ring.popSq.boundTarget = ring.boundTarget := rfl

@[simp] theorem Ring.pushCq_entries : (ring.pushCq completion).entries = ring.entries := rfl

@[simp] theorem Ring.pushCq_sq : (ring.pushCq completion).sq = ring.sq := rfl

@[simp] theorem Ring.pushCq_boundTarget :
    (ring.pushCq completion).boundTarget = ring.boundTarget := rfl

@[simp] theorem Ring.pushSq_entries : (ring.pushSq batch).entries = ring.entries := rfl

@[simp] theorem Ring.pushSq_cq : (ring.pushSq batch).cq = ring.cq := rfl

@[simp] theorem Ring.pushSq_boundTarget : (ring.pushSq batch).boundTarget = ring.boundTarget := rfl

end fields

/-- The oldest descriptor. -/
def Ring.next (ring : Ring) : RingDesc := ring.sq.front ring.entries

/-- What the console leaves in the trace for a descriptor, before it completes
    it. -/
def DescEvents (k : Kernel δ) (endpoint ring : UInt64) (desc : RingDesc) (events : List Event) :
    Prop :=
  (∃ e, descStatus k endpoint desc = .error e ∧ events = [.consumed ring desc]) ∨
  ∃ bytes source, descStatus k endpoint desc = .ok () ∧ desc.wellFormed endpoint ∧
    userGrantCopyFrom k.objects k.caps k.grants k.vmm k.frames endpoint desc.grant desc.offset
      desc.length = .ok (bytes, source) ∧
    events = [.consumed ring desc, .grantRead k.tasks.currentUserTask desc.grant source]

/-- The rights do not decide which slot a token leads to. -/
theorem ringLookup_unique {o : ObjectTable} {c : CapTable} {rings : RingTable}
    {r right right' : UInt64} {i i' : Fin maxRings} (h : ringLookup o c rings r right = .ok i)
    (h' : ringLookup o c rings r right' = .ok i') : i = i' := by
  have hpay : ∀ {right i}, ringLookup o c rings r right = .ok i →
      ∃ entry object, capLookup o c r = .ok entry ∧ objectLookup o entry.objectId = .ok object ∧
        object.payload = .ring i := by
    intro right i h
    unfold ringLookup at h
    split at h
    · cases h
    · next entry hcheck =>
      split at h
      · cases h
      · next object hob =>
        split at h
        · next j hring =>
          split at h
          · cases h
          · obtain rfl := Except.ok.inj h
            exact ⟨entry, object, (capCheck_eq_ok_iff_lookup.mp hcheck).2.1, hob, hring⟩
        · cases h
  obtain ⟨entry, object, hcap, hob, hring⟩ := hpay h
  obtain ⟨entry', object', hcap', hob', hring'⟩ := hpay h'
  obtain rfl := Except.ok.inj (hcap.symm.trans hcap')
  obtain rfl := Except.ok.inj (hob.symm.trans hob')
  rw [hring] at hring'
  exact Payload.ring.inj hring'

theorem consoleConsume_run (k : Kernel δ) (ring : UInt64) :
    (∃ e, consoleConsume ring k = (.error e, k)) ∨
    ∃ i, ringLookup k.objects k.caps k.rings ring Right.read = .ok i ∧
      (k.rings i).ring.sq.head ≠ (k.rings i).ring.sq.tail ∧
      consoleConsume ring k =
        (.ok (k.rings i).ring.next,
          k.after (k.rings.setRing i (k.rings i).ring.popSq) k.devices
            [.consumed ring (k.rings i).ring.next]) := by
  unfold consoleConsume
  rw [Effect.bind_run]
  unfold K.ringConsume Scdk.ringConsume
  cases hi : ringLookup k.objects k.caps k.rings ring Right.read with
  | error e => exact .inl ⟨e, rfl⟩
  | ok i =>
    cases hpop : queuePop (k.rings i).ring.entries (k.rings i).ring.sq with
    | error e =>
      left
      simp only [hpop]
      exact ⟨e, rfl⟩
    | ok r =>
      obtain ⟨desc, sq⟩ := r
      obtain ⟨hne, rfl, rfl⟩ := queuePop_eq_ok hpop
      refine .inr ⟨i, rfl, hne, ?_⟩
      simp only [hpop]
      rfl

/-- `scdk_ring_complete` on the ring of slot `i`. -/
theorem K.ringComplete_run {k : Kernel δ} {ring : UInt64} {i : Fin maxRings}
    (hi : ringLookup k.objects k.caps k.rings ring Right.read = .ok i) (completion : Completion) :
    ((∃ e, K.ringComplete ring completion k = (.error e, k)) ∧
      (ringLookup k.objects k.caps k.rings ring Right.write = .ok i →
        (k.rings i).ring.entries.toNat ≤ (k.rings i).ring.cq.count.toNat)) ∨
    ((k.rings i).ring.cq.count.toNat < (k.rings i).ring.entries.toNat ∧
      K.ringComplete ring completion k =
        (.ok (), k.after (k.rings.setRing i ((k.rings i).ring.pushCq completion)) k.devices [])) := by
  unfold K.ringComplete Scdk.ringComplete
  cases hw : ringLookup k.objects k.caps k.rings ring Right.write with
  | error e => exact .inl ⟨⟨e, rfl⟩, fun h => by cases h⟩
  | ok i' =>
    obtain rfl := ringLookup_unique hi hw
    by_cases hroom : (k.rings i).ring.cq.count.toNat < (k.rings i).ring.entries.toNat
    · right
      simp only [queuePush_room hroom]
      refine ⟨hroom, ?_⟩
      simp only [Kernel.after, List.append_nil]
      rfl
    · left
      refine ⟨?_, fun _ => by omega⟩
      cases hpush : queuePush (k.rings i).ring.entries (k.rings i).ring.cq completion with
      | error e => exact ⟨e, by simp only [hpush]⟩
      | ok cq => exact absurd (queuePush_eq_ok hpush).1 hroom

/-- One round of the loop of the console: there is nothing to consume; or the
    completion finds no room; or the descriptor fails; or the loop goes on. -/
theorem consoleRingLoop_round (p : Platform δ) (endpoint ring : UInt64) (n : Nat) (k : Kernel δ) :
    (∃ e, consoleRingLoop p endpoint ring (n + 1) k = (.error e, k)) ∨
    ∃ i devices events, ringLookup k.objects k.caps k.rings ring Right.read = .ok i ∧
      (k.rings i).ring.sq.head ≠ (k.rings i).ring.sq.tail ∧
      DescEvents k endpoint ring (k.rings i).ring.next events ∧
      (((∃ e, consoleRingLoop p endpoint ring (n + 1) k =
            (.error e, k.after (k.rings.setRing i (k.rings i).ring.popSq) devices events)) ∧
          (ringLookup k.objects k.caps k.rings ring Right.write = .ok i →
            (k.rings i).ring.entries.toNat ≤ (k.rings i).ring.cq.count.toNat)) ∨
        ∃ completion, (k.rings i).ring.cq.count.toNat < (k.rings i).ring.entries.toNat ∧
          ((∃ e, descStatus k endpoint (k.rings i).ring.next = .error e ∧
            consoleRingLoop p endpoint ring (n + 1) k = (.error e,
              k.after (k.rings.setRing i ((k.rings i).ring.popSq.pushCq completion)) devices
                events)) ∨
          (descStatus k endpoint (k.rings i).ring.next = .ok () ∧
            consoleRingLoop p endpoint ring (n + 1) k =
              consoleRingLoop p endpoint ring n
                (k.after (k.rings.setRing i ((k.rings i).ring.popSq.pushCq completion)) devices
                  events)))) := by
  rw [consoleRingLoop]
  rcases consoleConsume_run k ring with ⟨e, hcons⟩ | ⟨i, hi, hne, hcons⟩
  · exact .inl ⟨e, Effect.bind_of_error hcons _⟩
  · right
    rw [Effect.bind_of_ok hcons]
    set k₁ := k.after (k.rings.setRing i (k.rings i).ring.popSq) k.devices
      [.consumed ring (k.rings i).ring.next] with hk₁
    -- The descriptor is processed, which leaves the rings alone.
    obtain ⟨devices, events, hproc, hevents⟩ : ∃ devices events,
        consoleProcessDesc p endpoint (k.rings i).ring.next k₁ =
          (descStatus k endpoint (k.rings i).ring.next, k.after
            (k.rings.setRing i (k.rings i).ring.popSq) devices events) ∧
        DescEvents k endpoint ring (k.rings i).ring.next events := by
      rcases consoleProcessDesc_run p k₁ endpoint (k.rings i).ring.next with
        ⟨e, hst, hrun⟩ | ⟨bytes, source, hst, hform, hcopy, hrun⟩
      · exact ⟨k.devices, _, hrun.trans (by rw [← hst]; rfl), .inl ⟨e, hst, rfl⟩⟩
      · refine ⟨p.consoleWrite k.devices bytes, _, ?_, .inr ⟨bytes, source, hst, hform, hcopy, rfl⟩⟩
        rw [hrun, ← hst, hk₁, Kernel.after_after]
        rfl
    refine ⟨i, devices, events, hi, hne, hevents, ?_⟩
    have hattempt : (consoleProcessDesc p endpoint (k.rings i).ring.next).attempt k₁ =
        (.ok (descStatus k endpoint (k.rings i).ring.next), k.after
          (k.rings.setRing i (k.rings i).ring.popSq) devices events) := by
      unfold Effect.attempt
      rw [hproc]
    rw [Effect.bind_of_ok hattempt]
    set st := descStatus k endpoint (k.rings i).ring.next with hst
    have hlook : ∀ right, ringLookup k.objects k.caps (k.rings.setRing i (k.rings i).ring.popSq)
        ring right = ringLookup k.objects k.caps k.rings ring right :=
      fun right => ringLookup_setRing_eq _ _ _ _ _ _ _
    rcases K.ringComplete_run (k := k.after (k.rings.setRing i (k.rings i).ring.popSq) devices events)
      ((hlook _).trans hi) ((k.rings i).ring.next.completion st) with
      ⟨⟨e, hcomp⟩, hfull⟩ | ⟨hroom, hcomp⟩
    · left
      refine ⟨⟨e, Effect.bind_of_error hcomp _⟩, ?_⟩
      intro hw
      have hle := hfull ((hlook _).trans hw)
      simpa using hle
    · right
      refine ⟨(k.rings i).ring.next.completion st, by simpa using hroom, ?_⟩
      rw [Effect.bind_of_ok hcomp]
      simp only [Kernel.after_after, Kernel.after_rings, Kernel.after_devices, List.append_nil,
        RingTable.setRing_ring_self, setRing_setRing]
      cases hres : st with
      | error e => exact .inl ⟨e, rfl, rfl⟩
      | ok u => exact .inr ⟨rfl, rfl⟩

/-- The console refuses the message, or runs its loop over the descriptors. -/
theorem consoleHandleRingProcess_run (p : Platform δ) (endpoint : UInt64) (k : Kernel δ) :
    (∃ e, consoleHandleRingProcess p endpoint k = (.error e, k)) ∨
    (ringBoundTarget k.objects k.caps k.rings k.msg.arg0 = .ok endpoint ∧
      consoleHandleRingProcess p endpoint k =
        consoleRingLoop p endpoint k.msg.arg0 k.msg.arg1.toNat k) := by
  unfold consoleHandleRingProcess
  rw [Effect.bind_of_ok (show K.msg k = (.ok k.msg, k) from rfl)]
  by_cases hargs : k.msg.arg0 ≠ 0 ∧ k.msg.arg1 ≠ 0
  · rw [Effect.bind_of_ok (Effect.require_pos hargs _)]
    by_cases hmax : k.msg.arg1.toNat ≤ ringMaxEntries
    · rw [Effect.bind_of_ok (Effect.require_pos hmax _)]
      rw [Effect.ask_bind]
      cases ringBoundTarget k.objects k.caps k.rings k.msg.arg0 with
      | error e => exact .inl ⟨e, rfl⟩
      | ok bound =>
        dsimp only
        by_cases heq : bound = endpoint
        · rw [Effect.bind_of_ok (Effect.require_pos heq _), heq]
          exact .inr ⟨rfl, rfl⟩
        · exact .inl ⟨_, Effect.bind_of_error (Effect.require_neg heq _) _⟩
    · exact .inl ⟨_, Effect.bind_of_error (Effect.require_neg hmax _) _⟩
  · exact .inl ⟨_, Effect.bind_of_error (Effect.require_neg hargs _) _⟩

/-! ## A whole submission -/

/-- The message that a submission sends to its endpoint. -/
def processMessage (sourceTask ringCap : UInt64) (count : UInt32) : Message :=
  { messageInit sourceTask 0 Msg.ringProcess with arg0 := ringCap, arg1 := count.toUInt64 }

/-- The checks of a ring operation change nothing. -/
theorem userRingTarget_run (sourceTask ringCap ptr : UInt64) (count : UInt32) (k : Kernel δ) :
    (∃ e, userRingTarget sourceTask ringCap ptr count k = (.error e, k)) ∨
    ∃ s, count ≠ 0 ∧ count.toNat ≤ ringMaxEntries ∧ ptr ≠ 0 ∧
      userRingSlotFor k sourceTask ringCap = .ok s ∧
      userRingTarget sourceTask ringCap ptr count k = (.ok (k.userRings s).targetEndpoint, k) := by
  unfold userRingTarget
  rw [Effect.ask_bind]
  -- The refusals, in the order of the source; none of them changes the state.
  cases hcount : validateCount count with
  | error e => exact .inl ⟨e, rfl⟩
  | ok u =>
    have hc : count ≠ 0 ∧ count.toNat ≤ ringMaxEntries := by
      unfold validateCount at hcount
      split at hcount
      · cases hcount
      · next h =>
        rw [not_or, Nat.not_lt] at h
        exact h
    dsimp only
    by_cases hptr : ptr ≠ 0
    · rw [Effect.bind_of_ok (Effect.require_pos hptr _), Effect.ask_bind]
      cases userRingSlotFor k sourceTask ringCap with
      | error e => exact .inl ⟨e, rfl⟩
      | ok s =>
        dsimp only
        rw [Effect.bind_of_ok Effect.get_run]
        by_cases ht : (k.userRings s).targetEndpoint ≠ 0
        · rw [Effect.bind_of_ok (Effect.require_pos ht _), K.capCheck, Effect.ask_bind]
          cases capCheck k.objects k.caps (k.userRings s).targetEndpoint Right.send
              ObjType.endpoint with
          | error e => exact .inl ⟨e, rfl⟩
          | ok entry => exact .inr ⟨s, hc.1, hc.2, hptr, rfl, rfl⟩
        · exact .inl ⟨_, Effect.bind_of_error (Effect.require_neg ht _) _⟩
    · exact .inl ⟨_, Effect.bind_of_error (Effect.require_neg hptr _) _⟩

/-- On a ring that is not found the first descriptor is refused, if it can be read
    at all. -/
theorem submitLoop_unknown {ringCap : UInt64} {k : Kernel δ} {e : Err}
    (hi : ringLookup k.objects k.caps k.rings ringCap Right.write = .error e) (n : Nat) (ptr : UInt64) :
    ∃ e' events, Validations events ∧
      submitLoop ringCap (n + 1) ptr k = (.error e', k.after k.rings k.devices events) := by
  rw [submitLoop]
  rcases K.userCopyFrom_run k ptr ringDescSize with ⟨e', hcopy⟩ | ⟨_, _, hcopy⟩
  · refine ⟨e', [], validations_nil, ?_⟩
    rw [Effect.bind_of_error hcopy, Kernel.after_nil]
  · refine ⟨e, _, validations_nil.cons ptr ringDescSize false, ?_⟩
    have hsubmit : ∀ desc : RingDesc, K.ringSubmit ringCap desc
        (k.after k.rings k.devices [.validated ptr ringDescSize false]) =
        (.error e, k.after k.rings k.devices [.validated ptr ringDescSize false]) := by
      intro desc
      simp [K.ringSubmit, ringSubmit, hi, Kernel.after]
    rw [Effect.bind_of_ok hcopy, Effect.bind_of_error (hsubmit _)]

/-- A submission fails after it has pushed a part of its batch, perhaps none of
    it; or it pushes all of it and calls the endpoint. -/
theorem userRingSubmit_run (p : Platform δ) (sourceTask ringCap ptr : UInt64) (count : UInt32)
    (k : Kernel δ) :
    (∃ e events rings, Validations events ∧
      userRingSubmit p sourceTask ringCap ptr count k = (.error e, k.after rings k.devices events) ∧
      (rings = k.rings ∨ ∃ i m, m ≤ count.toNat ∧
        ringLookup k.objects k.caps k.rings ringCap Right.write = .ok i ∧
        (k.rings i).ring.sq.count.toNat + m ≤ (k.rings i).ring.entries.toNat ∧
        rings = k.rings.setRing i
          ((k.rings i).ring.pushSq ((batchAt k count.toNat ptr).take m)))) ∨
    ∃ s i events, Validations events ∧ count ≠ 0 ∧ count.toNat ≤ ringMaxEntries ∧
      userRingSlotFor k sourceTask ringCap = .ok s ∧
      Scdk.userValidateRange k.vmm ptr (ringDescSize * count.toUInt64) false = .ok () ∧
      ringLookup k.objects k.caps k.rings ringCap Right.write = .ok i ∧
      (k.rings i).ring.sq.count.toNat + count.toNat ≤ (k.rings i).ring.entries.toNat ∧
      userRingSubmit p sourceTask ringCap ptr count k =
        endpointCall p (k.userRings s).targetEndpoint
          { k.after (k.rings.setRing i ((k.rings i).ring.pushSq (batchAt k count.toNat ptr)))
              k.devices events with
            msg := processMessage sourceTask ringCap count } := by
  unfold userRingSubmit
  rcases userRingTarget_run sourceTask ringCap ptr count k with
    ⟨e, htarget⟩ | ⟨s, hcount, hmax, _, hs, htarget⟩
  · exact .inl ⟨e, [], k.rings, validations_nil,
      by rw [Effect.bind_of_error htarget, Kernel.after_nil], .inl rfl⟩
  rw [Effect.bind_of_ok htarget, Effect.bind_run, K.userValidateRange_run]
  cases hval : Scdk.userValidateRange k.vmm ptr (ringDescSize * count.toUInt64) false with
  | error e => exact .inl ⟨e, [], k.rings, validations_nil, by rw [Kernel.after_nil], .inl rfl⟩
  | ok u =>
    dsimp only
    set k₁ := k.after k.rings k.devices [.validated ptr (ringDescSize * count.toUInt64) false]
      with hk₁
    have hvals := validations_nil.cons ptr (ringDescSize * count.toUInt64) false
    have hpos : count.toNat ≠ 0 := fun h0 => hcount (UInt32.toNat_inj.mp h0)
    cases hi : ringLookup k.objects k.caps k.rings ringCap Right.write with
    | error e =>
      obtain ⟨n, hn⟩ := Nat.exists_eq_succ_of_ne_zero hpos
      have hi₁ : ringLookup k₁.objects k₁.caps k₁.rings ringCap Right.write = .error e := hi
      obtain ⟨e', events, hevents, hrun⟩ := submitLoop_unknown hi₁ n ptr
      left
      refine ⟨e', _, k.rings, hvals.append hevents, ?_, .inl rfl⟩
      rw [hn, Effect.bind_of_error hrun, hk₁, Kernel.after_after]
      rfl
    | ok i =>
      obtain ⟨m, events, hsub⟩ := submitLoop_run count.toNat k₁ ptr hi
      rcases hrun : submitLoop ringCap count.toNat ptr k₁ with ⟨r, k₂⟩
      rw [hrun, hk₁, batchAt_after] at hsub
      have hk₂ := hsub.state
      dsimp only at hk₂
      rw [Kernel.after_after] at hk₂
      have hm : m ≤ count.toNat := by simpa using hsub.le
      cases r with
      | error e =>
        left
        refine ⟨e, [.validated ptr (ringDescSize * count.toUInt64) false] ++ events,
          k.rings.setRing i ((k.rings i).ring.pushSq ((batchAt k count.toNat ptr).take m)),
          hvals.append hsub.validations, ?_, ?_⟩
        · rw [Effect.bind_of_error hrun, hk₂]
          rfl
        · by_cases hm0 : m = 0
          · left
            rw [hm0]
            exact setRing_self k.rings i
          · exact .inr ⟨i, m, hm, rfl, hsub.room hm0, rfl⟩
      | ok u =>
        right
        have hall : m = count.toNat := by simpa using hsub.all rfl
        have hroom := hsub.room (by omega)
        refine ⟨s, i, _, hvals.append hsub.validations, hcount, hmax, hs, rfl, rfl, ?_, ?_⟩
        · rw [hall] at hroom
          exact hroom
        · have htake : (batchAt k count.toNat ptr).take m = batchAt k count.toNat ptr := by
            rw [hall]
            exact List.take_of_length_le (by simp)
          rw [htake] at hk₂
          rw [Effect.bind_of_ok hrun, hk₂]
          rfl

end Scdk
