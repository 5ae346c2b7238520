import Scdk.Boot
import Scdk.Core.RingBatch

/-! # Polling a ring

    `scdk_user_ring_poll` takes a completion off its queue before it copies it to
    the task, so a copy that fails would lose it.  No copy does: the destination of
    all of them was validated at once.

    * `completionsOf`: the queue behind a ring token,
    * `pollLoop_empty`, `pollLoop_next`: one round of the loop,
    * `Polled`: the first completions were moved to memory,
    * `pollLoop_polled`: the loop over memory that was validated,
    * `poll_lossless`: nothing is lost. -/

namespace Scdk

variable {δ : Type}

/-! ## Completions -/

/-- The completions that wait on the ring of a token, oldest first. -/
def completionsOf (k : Kernel δ) (ring : UInt64) : List Completion :=
  match ringLookup k.objects k.caps k.rings ring Right.read with
  | .error _ => []
  | .ok i => (k.rings i).ring.cq.items (k.rings i).ring.entries

theorem completionsOf_eq {k : Kernel δ} {ring : UInt64} {i : Fin maxRings}
    (h : ringLookup k.objects k.caps k.rings ring Right.read = .ok i) :
    completionsOf k ring = (k.rings i).ring.cq.items (k.rings i).ring.entries := by
  unfold completionsOf
  rw [h]

theorem Completion.length_toBytes (completion : Completion) : completion.toBytes.length = 32 := by
  simp [Completion.toBytes, bytesOfWord]

theorem Completion.length_flatMap_toBytes (completions : List Completion) :
    (completions.flatMap Completion.toBytes).length = 32 * completions.length := by
  induction completions with
  | nil => rfl
  | cons c cs ih =>
    rw [List.flatMap_cons, List.length_append, c.length_toBytes, ih, List.length_cons]
    omega

/-- The ring without its oldest completion. -/
def Ring.popCq (ring : Ring) : Ring := { ring with cq := ring.cq.pop }

/-- `k` with other user memory. -/
def Kernel.withFrames (k : Kernel δ) (frames : Frames) : Kernel δ := { k with frames := frames }

/-- The state after one completion was delivered. -/
def Kernel.delivered (k : Kernel δ) (ring : UInt64) (i : Fin maxRings) (ptr : UInt64)
    (completion : Completion) : Kernel δ :=
  (k.after (k.rings.setRing i (k.rings i).ring.popCq) k.devices
    [.validated ptr completionSize true, .delivered ring completion]).withFrames
    (storeBytes k.vmm k.frames ptr completion.toBytes)

/-! ## One round -/

section round

variable {k : Kernel δ} {ring : UInt64} {i : Fin maxRings}

/-- `scdk_ring_poll` on an empty queue. -/
theorem K.ringPoll_empty (hi : ringLookup k.objects k.caps k.rings ring Right.read = .ok i)
    (hempty : (k.rings i).ring.cq.head = (k.rings i).ring.cq.tail) :
    K.ringPoll ring k = (.error .noent, k) := by
  unfold K.ringPoll Scdk.ringPoll
  rw [hi]
  simp only [queuePop_empty hempty]

/-- `scdk_ring_poll` takes the oldest completion. -/
theorem K.ringPoll_next (hi : ringLookup k.objects k.caps k.rings ring Right.read = .ok i)
    (hne : (k.rings i).ring.cq.head ≠ (k.rings i).ring.cq.tail) :
    K.ringPoll ring k =
      (.ok ((k.rings i).ring.cq.front (k.rings i).ring.entries),
        k.after (k.rings.setRing i (k.rings i).ring.popCq) k.devices []) := by
  unfold K.ringPoll Scdk.ringPoll
  rw [hi]
  simp only [queuePop_nonempty hne, Kernel.after, List.append_nil]
  rfl

/-- The copy of a completion to memory that was validated. -/
theorem K.userCopyTo_completion {ptr : UInt64}
    (hval : Scdk.userValidateRange k.vmm ptr completionSize true = .ok ())
    (completion : Completion) :
    K.userCopyTo ptr completion.toBytes k =
      (.ok (), (k.after k.rings k.devices [.validated ptr completionSize true]).withFrames
        (storeBytes k.vmm k.frames ptr completion.toBytes)) := by
  have hlen := completion.length_toBytes
  have hne : completion.toBytes ≠ [] := by
    intro hnil
    rw [hnil] at hlen
    cases hlen
  have hsize : UInt64.ofNat completion.toBytes.length = completionSize := by
    rw [hlen]
    rfl
  unfold K.userCopyTo
  rw [Effect.bind_of_ok (Effect.require_pos hne _), hsize, Effect.bind_run, K.userValidateRange_run,
    hval]
  rfl

/-- The loop stops at an empty queue. -/
theorem pollLoop_empty (hi : ringLookup k.objects k.caps k.rings ring Right.read = .ok i)
    (hempty : (k.rings i).ring.cq.head = (k.rings i).ring.cq.tail) (n : Nat) (ptr : UInt64) :
    pollLoop ring n ptr k = (.ok 0, k) := by
  cases n with
  | zero => rfl
  | succ n =>
    rw [pollLoop, Effect.attempt_bind, K.ringPoll_empty hi hempty]
    rfl

/-- A round delivers the oldest completion. -/
theorem pollLoop_next (hi : ringLookup k.objects k.caps k.rings ring Right.read = .ok i)
    (hne : (k.rings i).ring.cq.head ≠ (k.rings i).ring.cq.tail) {ptr : UInt64}
    (hval : Scdk.userValidateRange k.vmm ptr completionSize true = .ok ()) (n : Nat) :
    pollLoop ring (n + 1) ptr k =
      (pollLoop ring n (ptr + completionSize) >>= fun polled => pure (polled + 1))
        (k.delivered ring i ptr ((k.rings i).ring.cq.front (k.rings i).ring.entries)) := by
  rw [pollLoop, Effect.attempt_bind, K.ringPoll_next hi hne]
  dsimp only
  have hcopy := K.userCopyTo_completion
    (k := k.after (k.rings.setRing i (k.rings i).ring.popCq) k.devices []) hval
    ((k.rings i).ring.cq.front (k.rings i).ring.entries)
  simp only [Kernel.after_after, Kernel.after_rings, Kernel.after_devices, Kernel.after_vmm,
    Kernel.after_frames, List.nil_append] at hcopy
  rw [Effect.bind_of_ok hcopy]
  have hemit : K.emit (.delivered ring ((k.rings i).ring.cq.front (k.rings i).ring.entries))
      ((k.after (k.rings.setRing i (k.rings i).ring.popCq) k.devices
        [.validated ptr completionSize true]).withFrames
        (storeBytes k.vmm k.frames ptr
          ((k.rings i).ring.cq.front (k.rings i).ring.entries).toBytes)) =
      (.ok (), k.delivered ring i ptr ((k.rings i).ring.cq.front (k.rings i).ring.entries)) := by
    simp [K.emit, Effect.modify, Kernel.delivered, Kernel.withFrames, Kernel.after]
  rw [Effect.bind_of_ok hemit]

end round

/-! ## The loop -/

/-- A store of two parts, one after the other. -/
theorem storeBytes_append (v : Vmm) (bytes bytes' : List UInt8) :
    ∀ (frames : Frames) (virt : UInt64),
      storeBytes v frames virt (bytes ++ bytes') =
        storeBytes v (storeBytes v frames virt bytes) (virt + UInt64.ofNat bytes.length) bytes' := by
  induction bytes with
  | nil =>
    intro frames virt
    simp [storeBytes]
  | cons byte bytes ih =>
    intro frames virt
    rw [List.cons_append, storeBytes, storeBytes, ih, add_ofNat_succ]
    rfl

/-- The completions `taken`, the first ones of the ring of slot `i`, were moved to
    user memory from `ptr` on. -/
structure Polled (k : Kernel δ) (ring : UInt64) (i : Fin maxRings) (ptr : UInt64)
    (taken : List Completion) (k' : Kernel δ) : Prop where
  lookup : ringLookup k'.objects k'.caps k'.rings ring Right.read = .ok i
  vmm : k'.vmm = k.vmm
  frames : k'.frames = storeBytes k.vmm k.frames ptr (taken.flatMap Completion.toBytes)
  queue : completionsOf k ring = taken ++ completionsOf k' ring

/-- Nothing was taken. -/
theorem polled_nil {k : Kernel δ} {ring : UInt64} {i : Fin maxRings}
    (hi : ringLookup k.objects k.caps k.rings ring Right.read = .ok i) (ptr : UInt64) :
    Polled k ring i ptr [] k where
  lookup := hi
  vmm := rfl
  frames := rfl
  queue := rfl

/-- One completion before the others. -/
theorem Polled.cons {k k' : Kernel δ} {ring : UInt64} {i : Fin maxRings} {ptr : UInt64}
    {taken : List Completion}
    (hi : ringLookup k.objects k.caps k.rings ring Right.read = .ok i)
    (hne : (k.rings i).ring.cq.head ≠ (k.rings i).ring.cq.tail)
    (h : Polled (k.delivered ring i ptr ((k.rings i).ring.cq.front (k.rings i).ring.entries)) ring i
      (ptr + completionSize) taken k') :
    Polled k ring i ptr ((k.rings i).ring.cq.front (k.rings i).ring.entries :: taken) k' where
  lookup := h.lookup
  vmm := h.vmm
  frames := by
    rw [h.frames, List.flatMap_cons, storeBytes_append, Completion.length_toBytes]
    rfl
  queue := by
    set k₁ := k.delivered ring i ptr ((k.rings i).ring.cq.front (k.rings i).ring.entries) with hk₁
    have hi₁ : ringLookup k₁.objects k₁.caps k₁.rings ring Right.read = .ok i :=
      (ringLookup_setRing_eq _ _ _ _ _ _ _).trans hi
    have hring : (k₁.rings i).ring = (k.rings i).ring.popCq :=
      RingTable.setRing_ring_self k.rings i _
    have hqueue := h.queue
    rw [completionsOf_eq hi₁, hring] at hqueue
    rw [completionsOf_eq hi, Circular.items_pop _ hne, List.cons_append, ← hqueue]
    rfl

/-- The loop of `scdk_user_ring_poll` over memory that was validated. -/
theorem pollLoop_polled {ring : UInt64} {i : Fin maxRings} (n : Nat) :
    ∀ (k : Kernel δ) (ptr : UInt64),
      ringLookup k.objects k.caps k.rings ring Right.read = .ok i →
      (∀ j < n, Scdk.userValidateRange k.vmm (ptr + completionSize * UInt64.ofNat j) completionSize
        true = .ok ()) →
      ∃ taken k', pollLoop ring n ptr k = (.ok (UInt32.ofNat taken.length), k') ∧
        Polled k ring i ptr taken k' ∧ taken.length = min n (completionsOf k ring).length := by
  -- By induction on the completions that are asked for.
  induction n with
  | zero =>
    intro k ptr hi _
    exact ⟨[], k, rfl, polled_nil hi ptr, by simp⟩
  | succ n ih =>
    intro k ptr hi hval
    by_cases hempty : (k.rings i).ring.cq.head = (k.rings i).ring.cq.tail
    · refine ⟨[], k, pollLoop_empty hi hempty _ _, polled_nil hi ptr, ?_⟩
      rw [completionsOf_eq hi, Circular.items_eq_nil.mpr hempty]
      simp
    · obtain ⟨hval0, hrest⟩ := validated_cons hval
      set front := (k.rings i).ring.cq.front (k.rings i).ring.entries with hfront
      obtain ⟨taken, k', hloop, hpolled, hlen⟩ := ih (k.delivered ring i ptr front)
        (ptr + completionSize) ((ringLookup_setRing_eq _ _ _ _ _ _ _).trans hi) hrest
      have hcons := hpolled.cons hi hempty
      refine ⟨front :: taken, k', ?_, hcons, ?_⟩
      · rw [pollLoop_next hi hempty hval0, Effect.bind_of_ok hloop, List.length_cons,
          UInt32.ofNat_add]
        rfl
      · have hall := congrArg List.length hcons.queue
        have hlater := congrArg List.length hpolled.queue
        rw [List.length_append] at hall hlater
        rw [List.length_cons] at hall ⊢
        omega

/-! ## A poll -/

/-- A ring token that was checked leads to its ring, or to none. -/
theorem ringLookup_checked {o : ObjectTable} {c : CapTable} {rings : RingTable} {ring : UInt64}
    {entry : CapEntry} (hcheck : capCheck o c ring Right.read ObjType.ring = .ok entry) :
    ringLookup o c rings ring Right.read = .error .noent ∨
      ∃ i, ringLookup o c rings ring Right.read = .ok i := by
  obtain ⟨_, hlookup, _⟩ := capCheck_eq_ok_iff_lookup.mp hcheck
  obtain ⟨object, hobject⟩ : ∃ object, objectLookup o entry.objectId = .ok object := by
    unfold capLookup at hlookup
    split at hlookup
    · cases hlookup
    split at hlookup
    · cases hlookup
    next object hobject =>
    split at hlookup
    · cases hlookup
    · obtain rfl := Except.ok.inj hlookup
      exact ⟨object, hobject⟩
  unfold ringLookup
  rw [hcheck]
  dsimp only
  rw [hobject]
  dsimp only
  split
  · split
    · exact .inl rfl
    · exact .inr ⟨_, rfl⟩
  · exact .inl rfl

theorem userRingSlotFor_checked {k : Kernel δ} {sourceTask ringCap : UInt64} {s : Fin maxUserRings}
    (h : userRingSlotFor k sourceTask ringCap = .ok s) :
    ∃ entry, capCheck k.objects k.caps ringCap Right.read ObjType.ring = .ok entry := by
  unfold userRingSlotFor at h
  split at h
  · cases h
  split at h
  · cases h
  split at h
  · cases h
  next entry hentry => exact ⟨entry, hentry⟩

/-- A poll past its checks, on a ring that is there. -/
theorem userRingPoll_polled {k : Kernel δ} {sourceTask ringCap ptr : UInt64} {maxCount : UInt32}
    {target : UInt64} {i : Fin maxRings}
    (htarget : userRingTarget sourceTask ringCap ptr maxCount k = (.ok target, k))
    (hmax : maxCount.toNat ≤ ringMaxEntries)
    (hval : Scdk.userValidateRange k.vmm ptr (completionSize * maxCount.toUInt64) true = .ok ())
    (hi : ringLookup k.objects k.caps k.rings ringCap Right.read = .ok i) :
    ∃ taken k', userRingPoll sourceTask ringCap ptr maxCount k =
        (.ok (UInt32.ofNat taken.length), k') ∧
      Polled k ringCap i ptr taken k' ∧
      taken.length = min maxCount.toNat (completionsOf k ringCap).length := by
  set k₁ := k.after k.rings k.devices [.validated ptr (completionSize * maxCount.toUInt64) true]
    with hk₁
  obtain ⟨taken, k', hloop, hpolled, hlen⟩ := pollLoop_polled maxCount.toNat k₁ ptr hi
    (userValidateRange_entries (by decide) hmax hval)
  refine ⟨taken, k', ?_, ⟨hpolled.lookup, hpolled.vmm, hpolled.frames, hpolled.queue⟩, hlen⟩
  unfold userRingPoll
  rw [Effect.bind_of_ok htarget, Effect.bind_run, K.userValidateRange_run, hval]
  exact hloop

/-- A poll past its checks, with a token that leads to no ring. -/
theorem userRingPoll_missing {k : Kernel δ} {sourceTask ringCap ptr : UInt64} {maxCount : UInt32}
    {target : UInt64}
    (htarget : userRingTarget sourceTask ringCap ptr maxCount k = (.ok target, k))
    (hval : Scdk.userValidateRange k.vmm ptr (completionSize * maxCount.toUInt64) true = .ok ())
    (hnone : ringLookup k.objects k.caps k.rings ringCap Right.read = .error .noent) :
    userRingPoll sourceTask ringCap ptr maxCount k =
      (.ok 0, k.after k.rings k.devices
        [.validated ptr (completionSize * maxCount.toUInt64) true]) := by
  have hround : ∀ n, pollLoop ringCap n ptr (k.after k.rings k.devices
      [.validated ptr (completionSize * maxCount.toUInt64) true]) =
      (.ok 0, k.after k.rings k.devices
        [.validated ptr (completionSize * maxCount.toUInt64) true]) := by
    intro n
    cases n with
    | zero => rfl
    | succ n =>
      rw [pollLoop, Effect.attempt_bind]
      have hpoll : K.ringPoll ringCap (k.after k.rings k.devices
          [.validated ptr (completionSize * maxCount.toUInt64) true]) =
          (.error .noent, k.after k.rings k.devices
            [.validated ptr (completionSize * maxCount.toUInt64) true]) := by
        simp [K.ringPoll, Scdk.ringPoll, Kernel.after, hnone]
      rw [hpoll]
      rfl
  unfold userRingPoll
  rw [Effect.bind_of_ok htarget, Effect.bind_run, K.userValidateRange_run, hval]
  exact hround _

/-- What the task reads in its buffer. -/
theorem Polled.buffer {k k' : Kernel δ} {ring ptr : UInt64} {i : Fin maxRings} {count : UInt32}
    {taken : List Completion} (h : Polled k ring i ptr taken k')
    (hmax : count.toNat ≤ ringMaxEntries) (hle : taken.length ≤ count.toNat)
    (hval : Scdk.userValidateRange k.vmm ptr (completionSize * count.toUInt64) true = .ok ()) :
    userBytes k'.vmm k'.frames ptr (32 * taken.length) = taken.flatMap Completion.toBytes := by
  have hlen := Completion.length_flatMap_toBytes taken
  have hcount : count.toNat ≤ 64 := hmax
  have hsize : (completionSize * count.toUInt64).toNat = 32 * count.toNat := by
    rw [UInt64.toNat_mul, UInt32.toNat_toUInt64]
    exact Nat.mod_eq_of_lt (by show 32 * _ < _; omega)
  -- 64 completions take half a page, so no two of the bytes share an offset.
  have hbuffer : Buffer k.vmm ptr (taken.flatMap Completion.toBytes).length := by
    apply buffer_of_page (by omega)
    intro j hj
    exact userValidateRange_translates hval (by omega)
  rw [h.vmm, h.frames, ← hlen]
  exact hbuffer.readBack k.frames

/-- An error comes before the first completion is taken. -/
theorem userRingPoll_error {k k' : Kernel δ} {sourceTask ringCap ptr : UInt64} {maxCount : UInt32}
    {e : Err} (h : userRingPoll sourceTask ringCap ptr maxCount k = (.error e, k')) :
    k'.rings = k.rings := by
  rcases userRingTarget_run sourceTask ringCap ptr maxCount k with
    ⟨e', htarget⟩ | ⟨s, _, hmax, _, hs, htarget⟩
  · unfold userRingPoll at h
    rw [Effect.bind_of_error htarget] at h
    rw [← (Prod.mk.inj h).2]
  cases hval : Scdk.userValidateRange k.vmm ptr (completionSize * maxCount.toUInt64) true with
  | error e' =>
    unfold userRingPoll at h
    rw [Effect.bind_of_ok htarget, Effect.bind_run, K.userValidateRange_run, hval] at h
    rw [← (Prod.mk.inj h).2]
  | ok u =>
    obtain ⟨entry, hentry⟩ := userRingSlotFor_checked hs
    rcases ringLookup_checked hentry with hnone | ⟨i, hi⟩
    · have hpoll := userRingPoll_missing htarget hval hnone
      rw [hpoll] at h
      cases h
    · obtain ⟨taken, k₁, hpoll, _⟩ := userRingPoll_polled htarget hmax hval hi
      rw [hpoll] at h
      cases h

/-- **Polling is lossless.**  A poll that fails leaves all queues as they were.
    One that is past the validation of its destination succeeds: it moves as many
    completions as there are, up to the number asked for, to memory in order. -/
theorem poll_lossless (k : Kernel δ) (sourceTask ringCap ptr : UInt64) (maxCount : UInt32) :
    (∀ e k', userRingPoll sourceTask ringCap ptr maxCount k = (.error e, k') →
      k'.rings = k.rings) ∧
    ∀ target, (userRingTarget sourceTask ringCap ptr maxCount k).1 = .ok target →
      Scdk.userValidateRange k.vmm ptr (completionSize * maxCount.toUInt64) true = .ok () →
      ∃ outCount k', userRingPoll sourceTask ringCap ptr maxCount k = (.ok outCount, k') ∧
        outCount.toNat = min maxCount.toNat (completionsOf k ringCap).length ∧
        userBytes k'.vmm k'.frames ptr (32 * outCount.toNat) =
          ((completionsOf k ringCap).take outCount.toNat).flatMap Completion.toBytes ∧
        completionsOf k' ringCap = (completionsOf k ringCap).drop outCount.toNat := by
  refine ⟨fun e k' => userRingPoll_error, ?_⟩
  intro target htarget hval
  rcases userRingTarget_run sourceTask ringCap ptr maxCount k with
    ⟨e', hrefused⟩ | ⟨s, _, hmax, _, hs, hrun⟩
  · rw [hrefused] at htarget
    cases htarget
  obtain ⟨entry, hentry⟩ := userRingSlotFor_checked hs
  rcases ringLookup_checked hentry with hnone | ⟨i, hi⟩
  · -- The token leads to no ring any more, and there is nothing to take.
    have hempty : completionsOf k ringCap = [] := by
      unfold completionsOf
      rw [hnone]
    refine ⟨0, _, userRingPoll_missing hrun hval hnone, ?_, ?_, ?_⟩
    · rw [hempty]
      simp
    · rw [hempty]
      rfl
    · rw [hempty]
      exact hempty
  · -- What was taken is in the buffer, and what is left is behind it in the queue.
    obtain ⟨taken, k', hpoll, hpolled, hlen⟩ := userRingPoll_polled hrun hmax hval hi
    have hcount : (UInt32.ofNat taken.length).toNat = taken.length := by
      have hle : maxCount.toNat ≤ 64 := hmax
      rw [UInt32.toNat_ofNat', Nat.mod_eq_of_lt (by omega)]
    refine ⟨_, k', hpoll, ?_, ?_, ?_⟩
    · rw [hcount, hlen]
    · rw [hcount, hpolled.queue, List.take_left]
      exact hpolled.buffer hmax (by omega) hval
    · rw [hcount, hpolled.queue, List.drop_left]

/-! ### A ring of two entries -/

/-- A descriptor that writes the first eight bytes of the grant of `ringMachine`. -/
def writeDesc (flags : UInt64) : RingDesc :=
  ⟨ringOpConsoleWrite, firstToken 0, firstToken 5, 0, 8, flags⟩

/-- The words of a descriptor. -/
def RingDesc.words (desc : RingDesc) : List UInt64 :=
  [desc.op, desc.cap, desc.grant, desc.offset, desc.length, desc.flags]

/-- A task that has granted sixteen bytes to the console and bound a ring of two
    entries to it, with three descriptors in its memory, the first of them
    malformed. -/
def ringMachine : Kernel Unit :=
  ((userSystem quietPlatform fun _ => True).exec ⟨machine ⟨[], true⟩, []⟩
    [.newTask 0, .enter (firstToken 4) 0x1000,
      .syscall ⟨Sys.grantCreate, 0x200000, 16, Right.read, firstToken 0, 0⟩,
      .syscall ⟨Sys.ringCreate, 2, 0, 0, 0, 0⟩,
      .syscall ⟨Sys.ringBind, firstToken 6, firstToken 0, 0, 0, 0⟩,
      .memory (framesOfWords 0x6000
        ([⟨0, 0, 0, 0, 0, 0⟩, writeDesc 1, writeDesc 2].flatMap RingDesc.words)) flatTables]).kernel

/-- Both entries of the ring hold a completion. -/
def completedMachine : Kernel Unit :=
  (userRingSubmit quietPlatform (firstToken 4) (firstToken 6) 0x201030 2 ringMachine).2

/-- The first one is taken, and the second one stays. -/
theorem poll_lossless_one :
    ∃ k', userRingPoll (firstToken 4) (firstToken 6) 0x202000 1 completedMachine = (.ok 1, k') ∧
      userBytes k'.vmm k'.frames 0x202000 32 = Completion.toBytes ⟨ringOpConsoleWrite, 0, 8, 1⟩ ∧
      completionsOf k' (firstToken 6) = [⟨ringOpConsoleWrite, 0, 8, 2⟩] := by
  have htarget : (userRingTarget (firstToken 4) (firstToken 6) 0x202000 1 completedMachine).1 =
      .ok (firstToken 0) := by
    decide +kernel
  have hvalid : Scdk.userValidateRange completedMachine.vmm 0x202000
      (completionSize * (1 : UInt32).toUInt64) true = .ok () := by
    decide +kernel
  have hqueue : completionsOf completedMachine (firstToken 6) =
      [⟨ringOpConsoleWrite, 0, 8, 1⟩, ⟨ringOpConsoleWrite, 0, 8, 2⟩] := by
    decide +kernel
  obtain ⟨_, hpoll⟩ := poll_lossless completedMachine (firstToken 4) (firstToken 6) 0x202000 1
  obtain ⟨outCount, k', hrun, hcount, hbytes, hrest⟩ := hpoll _ htarget hvalid
  rw [hqueue] at hcount hbytes hrest
  obtain rfl : outCount = 1 := UInt32.toNat_inj.mp hcount
  exact ⟨k', hrun, hbytes, hrest⟩

end Scdk
