import Scdk.Core.RingPoll

/-! # A user ring that the console serves

    Runs of `scdk_user_ring_submit` and `scdk_user_ring_poll` on one user ring
    that is bound to the console, with anything in between that leaves this
    ring alone.

    * `ConsoleRing`: what it means that the ring is bound to the console,
    * `Processed`: what the loop of the console does, with the numbers of
      descriptors consumed and of completions pushed,
    * `ringUse`: the system of submissions, polls and other steps,
    * `batch_correspondence`: when the submission queue is empty before a
      submission, a submission that answers `SCDK_OK` has had its own batch
      consumed,
    * `completions_accounted`: when every submission finds room for its
      completions, none is lost. -/

namespace Scdk

variable {δ : Type}

/-! ## Observations -/

/-- The descriptors that the console took from a ring. -/
def consumedFrom (ring : UInt64) (trace : List Event) : List RingDesc :=
  trace.filterMap fun
    | .consumed r desc => if r = ring then some desc else none
    | _ => none

/-- The completions of a ring that were copied to the memory of a task. -/
def deliveredFrom (ring : UInt64) (trace : List Event) : List Completion :=
  trace.filterMap fun
    | .delivered r completion => if r = ring then some completion else none
    | _ => none

section observations

variable (ring : UInt64) {events : List Event}

@[simp] theorem consumedFrom_append (events events' : List Event) :
    consumedFrom ring (events ++ events') = consumedFrom ring events ++ consumedFrom ring events' :=
  List.filterMap_append

@[simp] theorem deliveredFrom_append (events events' : List Event) :
    deliveredFrom ring (events ++ events') =
      deliveredFrom ring events ++ deliveredFrom ring events' :=
  List.filterMap_append

theorem Validations.consumedFrom (h : Validations events) : consumedFrom ring events = [] := by
  apply List.filterMap_eq_nil_iff.mpr
  intro ev hev
  obtain ⟨ptr, size, writable, rfl⟩ := h ev hev
  rfl

theorem Validations.deliveredFrom (h : Validations events) : deliveredFrom ring events = [] := by
  apply List.filterMap_eq_nil_iff.mpr
  intro ev hev
  obtain ⟨ptr, size, writable, rfl⟩ := h ev hev
  rfl

theorem DescEvents.observed {ring : UInt64} {k : Kernel δ} {endpoint : UInt64} {desc : RingDesc}
    (h : DescEvents k endpoint ring desc events) :
    consumedFrom ring events = [desc] ∧ deliveredFrom ring events = [] := by
  rcases h with ⟨e, _, rfl⟩ | ⟨bytes, source, _, _, _, rfl⟩
  · simp [Scdk.consumedFrom, Scdk.deliveredFrom]
  · simp [Scdk.consumedFrom, Scdk.deliveredFrom]

end observations

/-! ## The loop of the console -/

/-- The descriptors that wait in a ring. -/
def Ring.pending (ring : Ring) : List RingDesc := ring.sq.items ring.entries

/-- The number of completions that a ring has room for. -/
def Ring.room (ring : Ring) : Nat := ring.entries.toNat - ring.cq.count.toNat

/-- There is room for the completions of the first `n` of `descs`, or the loop
    of the console stops at one of them before the room is used up. -/
def RoomFor (k : Kernel δ) (endpoint : UInt64) (room : Nat) (descs : List RingDesc) (n : Nat) : Prop :=
  n ≤ room ∨ ∃ j < room, ∃ desc, descs[j]? = some desc ∧ descStatus k endpoint desc ≠ .ok ()

/-- The loop of the console has taken `m` descriptors from the ring of slot `i`,
    and completed `c` of them. -/
structure Processed (k : Kernel δ) (endpoint ring : UInt64) (i : Fin maxRings) (n m c : Nat)
    (after : Ring) (devices : δ) (events : List Event) (out : Except Err Unit × Kernel δ) :
    Prop where
  state : out.2 = k.after (k.rings.setRing i after) devices events
  entries : after.entries = (k.rings i).ring.entries
  boundTarget : after.boundTarget = (k.rings i).ring.boundTarget
  consumed : consumedFrom ring events = (k.rings i).ring.pending.take m
  delivered : deliveredFrom ring events = []
  le : m ≤ (k.rings i).ring.pending.length
  completed : after.cq.count.toNat = (k.rings i).ring.cq.count.toNat + c
  all : out.1 = .ok () → m = n
  fits : RoomFor k endpoint (k.rings i).ring.room (k.rings i).ring.pending n → c = m

section loop

variable {k : Kernel δ} {endpoint ring : UInt64} {i : Fin maxRings}

/-- The loop has done nothing. -/
theorem processed_none (k : Kernel δ) (endpoint ring : UInt64) (i : Fin maxRings) (n : Nat)
    (r : Except Err Unit) (hr : r = .ok () → n = 0) :
    Processed k endpoint ring i n 0 0 (k.rings i).ring k.devices [] (r, k) where
  state := by rw [setRing_self, Kernel.after_nil]
  entries := rfl
  boundTarget := rfl
  consumed := rfl
  delivered := rfl
  le := Nat.zero_le _
  completed := rfl
  all := fun h => (hr h).symm
  fits := fun _ => rfl

theorem Ring.pending_popSq {ring : Ring} (h : ring.sq.head ≠ ring.sq.tail) :
    ring.pending = ring.next :: ring.popSq.pending :=
  Circular.items_pop ring.entries h

theorem Ring.count_pushCq (ring : Ring) (h : ring.cq.count.toNat < ring.entries.toNat)
    (completion : Completion) : (ring.pushCq completion).cq.count.toNat = ring.cq.count.toNat + 1 := by
  have hlt := ring.entries.toNat_lt
  exact Circular.count_push _ _ _ (by omega)

/-- What is left for the rounds after the first. -/
theorem RoomFor.tail {room n : Nat} {desc : RingDesc} {descs : List RingDesc}
    (h : RoomFor k endpoint room (desc :: descs) (n + 1)) (hok : descStatus k endpoint desc = .ok ()) :
    RoomFor k endpoint (room - 1) descs n := by
  rcases h with hle | ⟨j, hj, desc', hget, hfail⟩
  · exact .inl (by omega)
  · cases j with
    | zero =>
      obtain rfl := Option.some.inj hget
      exact absurd hok hfail
    | succ j => exact .inr ⟨j, by omega, desc', hget, hfail⟩

theorem consoleRingLoop_processed (p : Platform δ) (endpoint : UInt64) (n : Nat) :
    ∀ k : Kernel δ, NamesRing k.objects k.caps k.rings ring i →
      ∃ m c after devices events, Processed k endpoint ring i n m c after devices events
        (consoleRingLoop p endpoint ring n k) := by
  -- By induction on the rounds that are left; a round takes one descriptor.
  induction n with
  | zero =>
    intro k _
    exact ⟨0, 0, _, _, _, processed_none k endpoint ring i 0 (.ok ()) fun _ => rfl⟩
  | succ n ih =>
    intro k hnames
    rcases consoleRingLoop_round p endpoint ring n k with
      ⟨e, hrun⟩ | ⟨i', devices, events, hi, hne, hevents, hrest⟩
    · rw [hrun]
      exact ⟨0, 0, _, _, _, processed_none k endpoint ring i (n + 1) (.error e) fun h => by cases h⟩
    obtain rfl := Except.ok.inj (hi.symm.trans hnames.read)
    have hpend := Ring.pending_popSq hne
    have hobs := hevents.observed
    have hone : consumedFrom ring events = (k.rings i').ring.pending.take 1 := by
      rw [hobs.1, hpend, List.take_succ_cons, List.take_zero]
    have hlen : 1 ≤ (k.rings i').ring.pending.length := by
      rw [hpend]
      simp
    rcases hrest with ⟨⟨e, hrun⟩, hfull⟩ | ⟨completion, hroom, hrest⟩
    · -- The completion is lost.
      rw [hrun]
      refine ⟨1, 0, (k.rings i').ring.popSq, devices, events, rfl, rfl, rfl, hone, hobs.2, hlen, rfl,
        fun h => (by cases h), ?_⟩
      intro hfits
      have hle := hfull hnames.write
      unfold Ring.room at hfits
      rcases hfits with hle' | ⟨j, hj, _⟩
      · omega
      · omega
    have hcount := (k.rings i').ring.popSq.count_pushCq hroom completion
    rcases hrest with ⟨e, _, hrun⟩ | ⟨hok, hrun⟩
    · -- The descriptor fails, and its completion is there.
      rw [hrun]
      exact ⟨1, 1, (k.rings i').ring.popSq.pushCq completion, devices, events, rfl, rfl, rfl, hone,
        hobs.2, hlen, hcount, fun h => (by cases h), fun _ => rfl⟩
    · -- The descriptor is completed, and the other rounds run on what is left.
      obtain ⟨m, c, after, devices', events', hproc⟩ := ih
        (k.after (k.rings.setRing i' ((k.rings i').ring.popSq.pushCq completion)) devices events)
        (hnames.setRing i' _)
      rw [hrun]
      refine ⟨m + 1, c + 1, after, devices', events ++ events', ?_, ?_, ?_, ?_, ?_, ?_, ?_, ?_, ?_⟩
      · rw [hproc.state]
        simp only [Kernel.after_after, Kernel.after_rings, setRing_setRing]
      · simpa using hproc.entries
      · simpa using hproc.boundTarget
      · have hcons := hproc.consumed
        simp only [Kernel.after_rings, RingTable.setRing_ring_self] at hcons
        rw [consumedFrom_append, hobs.1, hcons, hpend]
        rfl
      · rw [deliveredFrom_append, hobs.2, hproc.delivered]
        rfl
      · have hle := hproc.le
        simp only [Kernel.after_rings, RingTable.setRing_ring_self] at hle
        rw [hpend]
        exact Nat.succ_le_succ hle
      · have hcomp := hproc.completed
        simp only [Kernel.after_rings, RingTable.setRing_ring_self, hcount, Ring.popSq_cq] at hcomp
        omega
      · intro h
        rw [hproc.all h]
      · intro hfits
        rw [hpend] at hfits
        have htail := hfits.tail hok
        have hc := hproc.fits
        simp only [Kernel.after_rings, RingTable.setRing_ring_self] at hc
        have hroom' : ((k.rings i').ring.popSq.pushCq completion).room =
            (k.rings i').ring.room - 1 := by
          unfold Ring.room
          rw [hcount]
          simp only [Ring.pushCq_entries, Ring.popSq_entries, Ring.popSq_cq]
          omega
        rw [hroom'] at hc
        rw [hc htail]

end loop

/-! ## A submission -/

/-- The user ring `ring` of `task` is in slot `i` of the ring table and bound to
    `endpoint`, which the console serves. -/
structure ConsoleRing (k : Kernel δ) (task ring endpoint : UInt64) (i : Fin maxRings) : Prop where
  names : NamesRing k.objects k.caps k.rings ring i
  owner : ∃ s, userRingSlotFor k task ring = .ok s ∧ (k.userRings s).targetEndpoint = endpoint
  handler : ∃ objectId, endpointTarget k.objects k.caps k.endpoints endpoint = .ok (objectId, .console)
  size : (k.rings i).ring.entries.toNat ≤ ringMaxEntries

/-- What a ring operation leaves alone, apart from the ring itself. -/
structure SameTables (k k' : Kernel δ) : Prop where
  objects : k'.objects = k.objects
  caps : k'.caps = k.caps
  endpoints : k'.endpoints = k.endpoints
  userRings : k'.userRings = k.userRings

section submission

variable {k : Kernel δ} {task ring endpoint : UInt64} {i : Fin maxRings}

theorem ConsoleRing.congr {k' : Kernel δ} (h : ConsoleRing k task ring endpoint i)
    (hsame : SameTables k k') {after : Ring} (hrings : k'.rings = k.rings.setRing i after)
    (hentries : after.entries = (k.rings i).ring.entries) :
    ConsoleRing k' task ring endpoint i where
  names := by
    rw [hsame.objects, hsame.caps, hrings]
    exact h.names.setRing i after
  owner := by
    obtain ⟨s, hs, htarget⟩ := h.owner
    refine ⟨s, ?_, by rw [hsame.userRings, htarget]⟩
    unfold userRingSlotFor at hs ⊢
    rw [hsame.objects, hsame.caps, hsame.userRings]
    exact hs
  handler := by
    rw [hsame.objects, hsame.caps, hsame.endpoints]
    exact h.handler
  size := by
    rw [hrings, RingTable.setRing_ring_self, hentries]
    exact h.size

/-- The descriptors that wait in the ring of slot `i` once the batch is pushed. -/
def offered (k : Kernel δ) (i : Fin maxRings) (ptr : UInt64) (count : UInt32) : List RingDesc :=
  ((k.rings i).ring.pushSq (batchAt k count.toNat ptr)).pending

/-- The submission is refused before the console is called: the descriptors cannot
    be read, or the submission queue has no room for them. -/
def Refused (k : Kernel δ) (i : Fin maxRings) (ptr : UInt64) (count : UInt32) : Prop :=
  userValidateRange k.vmm ptr (ringDescSize * count.toUInt64) false ≠ .ok () ∨
    (k.rings i).ring.entries.toNat < (k.rings i).ring.sq.count.toNat + count.toNat

/-- What a submission does to the ring and to the trace. -/
structure SubmitRun (k : Kernel δ) (endpoint ring : UInt64) (i : Fin maxRings) (ptr : UInt64)
    (count : UInt32) (after : Ring) (events : List Event) (out : Except Err Unit × Kernel δ) :
    Prop where
  same : SameTables k out.2
  rings : out.2.rings = k.rings.setRing i after
  entries : after.entries = (k.rings i).ring.entries
  trace : out.2.trace = k.trace ++ events
  delivered : deliveredFrom ring events = []
  consumed : out.1 = .ok () →
    (k.rings i).ring.sq.count.toNat + count.toNat ≤ (k.rings i).ring.entries.toNat ∧
      consumedFrom ring events = (offered k i ptr count).take count.toNat
  accounted : Refused k i ptr count ∨
      RoomFor k endpoint (k.rings i).ring.room (offered k i ptr count) count.toNat →
    after.cq.count.toNat = (k.rings i).ring.cq.count.toNat + (consumedFrom ring events).length

/-- The state in which a submission calls the console: its batch is in the ring. -/
def Kernel.submitted (k : Kernel δ) (task ring : UInt64) (i : Fin maxRings) (ptr : UInt64)
    (count : UInt32) (events : List Event) : Kernel δ :=
  { k.after (k.rings.setRing i ((k.rings i).ring.pushSq (batchAt k count.toNat ptr))) k.devices
      events with msg := processMessage task ring count }

variable {ptr : UInt64} {count : UInt32}

theorem submitted_ring (task : UInt64) (events : List Event) (objectId : UInt64) :
    (((k.submitted task ring i ptr count events).toTarget objectId).rings i).ring =
      (k.rings i).ring.pushSq (batchAt k count.toNat ptr) := by
  show (k.rings.setRing i _ i).ring = _
  rw [RingTable.setRing_ring_self]

/-- The console is not called. -/
theorem ConsoleRing.submit_early (h : ConsoleRing k task ring endpoint i) {rings : RingTable}
    {events : List Event} (hev : Validations events) (e : Err)
    (hrings : rings = k.rings ∨ ∃ i m, m ≤ count.toNat ∧
      ringLookup k.objects k.caps k.rings ring Right.write = .ok i ∧
      (k.rings i).ring.sq.count.toNat + m ≤ (k.rings i).ring.entries.toNat ∧
      rings = k.rings.setRing i ((k.rings i).ring.pushSq ((batchAt k count.toNat ptr).take m))) :
    ∃ after, SubmitRun k endpoint ring i ptr count after events
      (.error e, k.after rings k.devices events) := by
  obtain ⟨after, hafter, hcq, hentries⟩ : ∃ after : Ring, rings = k.rings.setRing i after ∧
      after.cq = (k.rings i).ring.cq ∧ after.entries = (k.rings i).ring.entries := by
    rcases hrings with rfl | ⟨i', m, _, hi', _, rfl⟩
    · exact ⟨(k.rings i).ring, (setRing_self k.rings i).symm, rfl, rfl⟩
    · obtain rfl := Except.ok.inj (hi'.symm.trans h.names.write)
      exact ⟨_, rfl, rfl, rfl⟩
  rw [hafter]
  refine ⟨after, ⟨rfl, rfl, rfl, rfl⟩, rfl, hentries, rfl, hev.deliveredFrom ring,
    fun hok => (by cases hok), ?_⟩
  intro _
  rw [hcq, hev.consumedFrom ring]
  rfl

/-- The console answers without taking a descriptor. -/
theorem submitRun_refused {events : List Event} (hev : Validations events)
    (task objectId word : UInt64) (e : Err) :
    SubmitRun k endpoint ring i ptr count ((k.rings i).ring.pushSq (batchAt k count.toNat ptr)) events
      (.error e, ((k.submitted task ring i ptr count events).toTarget objectId).withStatus word) := by
  refine ⟨⟨rfl, rfl, rfl, rfl⟩, rfl, rfl, rfl, hev.deliveredFrom ring, fun hok => (by cases hok), ?_⟩
  intro _
  rw [hev.consumedFrom ring]
  rfl

/-- The console has run its loop on the ring. -/
theorem submitRun_processed {m c : Nat} {after : Ring} {devices : δ} {events events' : List Event}
    {task objectId : UInt64} {out : Except Err Unit × Kernel δ} (hev : Validations events)
    (hval : userValidateRange k.vmm ptr (ringDescSize * count.toUInt64) false = .ok ())
    (hroom : (k.rings i).ring.sq.count.toNat + count.toNat ≤ (k.rings i).ring.entries.toNat)
    (hloop : Processed ((k.submitted task ring i ptr count events).toTarget objectId) endpoint ring i
      count.toNat m c after devices events' out) (word : UInt64) :
    SubmitRun k endpoint ring i ptr count after (events ++ events') (out.1, out.2.withStatus word) := by
  have hring : (((k.submitted task ring i ptr count events).toTarget objectId).rings i).ring =
      (k.rings i).ring.pushSq (batchAt k count.toNat ptr) := submitted_ring task events objectId
  have hpending : (((k.submitted task ring i ptr count events).toTarget objectId).rings
      i).ring.pending = offered k i ptr count := by
    rw [hring]
    rfl
  have hcons := hloop.consumed
  rw [hpending] at hcons
  have hall : consumedFrom ring (events ++ events') = (offered k i ptr count).take m := by
    rw [consumedFrom_append, hev.consumedFrom ring, hcons]
    rfl
  have hstate := hloop.state
  refine ⟨?_, ?_, ?_, ?_, ?_, ?_, ?_⟩
  · constructor
    · show out.2.objects = _
      rw [hstate]
      rfl
    · show out.2.caps = _
      rw [hstate]
      rfl
    · show out.2.endpoints = _
      rw [hstate]
      rfl
    · show out.2.userRings = _
      rw [hstate]
      rfl
  · show out.2.rings = _
    rw [hstate]
    exact setRing_setRing k.rings i _ _
  · rw [hloop.entries, hring]
    rfl
  · show out.2.trace = _
    rw [hstate]
    exact List.append_assoc _ _ _
  · rw [deliveredFrom_append, hev.deliveredFrom ring, hloop.delivered]
    rfl
  · intro hok
    refine ⟨hroom, ?_⟩
    rw [hall, hloop.all hok]
  · intro hcond
    have hfits : RoomFor k endpoint (k.rings i).ring.room (offered k i ptr count) count.toNat := by
      rcases hcond with (hbad | hfull) | hfits
      · exact absurd hval hbad
      · omega
      · exact hfits
    have hle := hloop.le
    have hcomp := hloop.completed
    have hfit := hloop.fits
    rw [hpending] at hle hfit
    rw [hring] at hcomp hfit
    rw [hcomp, hall, List.length_take_of_le hle, hfit hfits]
    rfl

/-- A submission to the console. -/
theorem ConsoleRing.submit (h : ConsoleRing k task ring endpoint i) (p : Platform δ) (ptr : UInt64)
    (count : UInt32) :
    ∃ after events, SubmitRun k endpoint ring i ptr count after events
      (userRingSubmit p task ring ptr count k) := by
  rcases userRingSubmit_run p task ring ptr count k with
    ⟨e, events, rings, hev, hrun, hrings⟩ |
    ⟨s, i', events, hev, hcount, hmax, hs, hval, hi', hroom, hrun⟩
  · rw [hrun]
    obtain ⟨after, hsubmit⟩ := h.submit_early hev e hrings
    exact ⟨after, events, hsubmit⟩
  obtain rfl := Except.ok.inj (hi'.symm.trans h.names.write)
  obtain ⟨s', hs', htarget⟩ := h.owner
  obtain rfl := Except.ok.inj (hs.symm.trans hs')
  obtain ⟨objectId, hhandler⟩ := h.handler
  -- The message reaches the console.
  set k₁ : Kernel δ := k.submitted task ring i' ptr count events with hk₁
  have hdeliver : ∀ forward : K δ Unit, deliver (runHandler p forward) endpoint k₁ =
      ((consoleHandleRingProcess p endpoint (k₁.toTarget objectId)).1,
        (consoleHandleRingProcess p endpoint (k₁.toTarget objectId)).2.withStatus
          (statusWord (consoleHandleRingProcess p endpoint (k₁.toTarget objectId)).1)) := by
    intro forward
    have htarget₁ : endpointTarget k₁.objects k₁.caps k₁.endpoints endpoint =
        .ok (objectId, .console) := hhandler
    rw [deliver_of_target htarget₁]
    rfl
  have hcall : endpointCall p endpoint k₁ = _ := hdeliver _
  have hsubmit : userRingSubmit p task ring ptr count k = endpointCall p endpoint k₁ := by
    rw [hrun, htarget]
    rfl
  rw [hsubmit, hcall]
  rcases consoleHandleRingProcess_run p endpoint (k₁.toTarget objectId) with
    ⟨e, hproc⟩ | ⟨_, hproc⟩
  · rw [hproc]
    exact ⟨_, events, submitRun_refused hev task objectId _ e⟩
  · have hnames : NamesRing k.objects k.caps (k₁.toTarget objectId).rings ring i' :=
      h.names.setRing i' _
    obtain ⟨m, c, after, devices, events', hloop⟩ := consoleRingLoop_processed p endpoint
      count.toNat (k₁.toTarget objectId) hnames
    have hargs : (k₁.toTarget objectId).msg.arg0 = ring ∧
        (k₁.toTarget objectId).msg.arg1.toNat = count.toNat := ⟨rfl, UInt32.toNat_toUInt64 count⟩
    rw [hproc, hargs.1, hargs.2]
    exact ⟨after, events ++ events', submitRun_processed hev hval hroom hloop _⟩

end submission

/-! ## A poll -/

/-- What a poll does to the ring and to the trace: each completion that leaves
    the queue is delivered. -/
structure PollRun (k : Kernel δ) (ring : UInt64) (i : Fin maxRings) (after : Ring)
    (events : List Event) (k' : Kernel δ) : Prop where
  same : SameTables k k'
  vmm : k'.vmm = k.vmm
  rings : k'.rings = k.rings.setRing i after
  entries : after.entries = (k.rings i).ring.entries
  trace : k'.trace = k.trace ++ events
  consumed : consumedFrom ring events = []
  delivered : after.cq.count.toNat + (deliveredFrom ring events).length =
    (k.rings i).ring.cq.count.toNat

section poll

variable {k : Kernel δ} {task ring endpoint : UInt64} {i : Fin maxRings}

/-- A poll that has taken nothing. -/
theorem pollRun_none (k : Kernel δ) (ring : UInt64) (i : Fin maxRings) {events : List Event}
    (hev : Validations events) :
    PollRun k ring i (k.rings i).ring events (k.after k.rings k.devices events) where
  same := ⟨rfl, rfl, rfl, rfl⟩
  vmm := rfl
  rings := (setRing_self k.rings i).symm
  entries := rfl
  trace := rfl
  consumed := hev.consumedFrom ring
  delivered := by rw [hev.deliveredFrom ring]; rfl

/-- One completion before the others. -/
theorem PollRun.cons {ptr : UInt64} {completion : Completion} {after : Ring}
    {events : List Event} {k' : Kernel δ}
    (hne : (k.rings i).ring.cq.head ≠ (k.rings i).ring.cq.tail)
    (h : PollRun (k.delivered ring i ptr completion) ring i after events k') :
    PollRun k ring i after
      ([.validated ptr completionSize true, .delivered ring completion] ++ events) k' := by
  have hpopped : ((k.delivered ring i ptr completion).rings i).ring =
      (k.rings i).ring.popCq := by
    show (k.rings.setRing i _ i).ring = _
    simp
  have hentries := h.entries
  have hdel := h.delivered
  rw [hpopped] at hentries hdel
  constructor
  · exact ⟨h.same.objects, h.same.caps, h.same.endpoints, h.same.userRings⟩
  · exact h.vmm
  · rw [h.rings]
    exact setRing_setRing k.rings i _ _
  · exact hentries
  · rw [h.trace]
    exact List.append_assoc _ _ _
  · rw [consumedFrom_append, h.consumed]
    rfl
  · have hcq := Circular.count_pop (k.rings i).ring.cq hne
    have hpop : (k.rings i).ring.popCq.cq = (k.rings i).ring.cq.pop := rfl
    have hhead : deliveredFrom ring
        [.validated ptr completionSize true, .delivered ring completion] = [completion] := by
      simp [deliveredFrom]
    rw [deliveredFrom_append, hhead, List.length_append, List.length_singleton]
    rw [hpop] at hdel
    omega

/-- The loop of `scdk_user_ring_poll` over memory that was validated. -/
theorem pollLoop_run (n : Nat) :
    ∀ (k : Kernel δ) (ptr : UInt64), NamesRing k.objects k.caps k.rings ring i →
      (∀ j < n, Scdk.userValidateRange k.vmm (ptr + completionSize * UInt64.ofNat j) completionSize
        true = .ok ()) →
      ∃ after events, PollRun k ring i after events (pollLoop ring n ptr k).2 := by
  induction n with
  | zero =>
    intro k ptr _ _
    have hnone := pollRun_none k ring i validations_nil
    rw [Kernel.after_nil] at hnone
    exact ⟨_, _, hnone⟩
  | succ n ih =>
    intro k ptr hnames hval
    obtain ⟨hval0, hrest⟩ := validated_cons hval
    by_cases hempty : (k.rings i).ring.cq.head = (k.rings i).ring.cq.tail
    · have hnone := pollRun_none k ring i validations_nil
      rw [Kernel.after_nil] at hnone
      rw [pollLoop_empty hnames.read hempty]
      exact ⟨_, _, hnone⟩
    · set front := (k.rings i).ring.cq.front (k.rings i).ring.entries with hfront
      obtain ⟨after, events, hpoll⟩ := ih (k.delivered ring i ptr front) (ptr + completionSize)
        (hnames.setRing i _) hrest
      -- The answer counts what was polled; the state is the one of the later rounds.
      have hend : (pollLoop ring (n + 1) ptr k).2 =
          (pollLoop ring n (ptr + completionSize) (k.delivered ring i ptr front)).2 := by
        rw [pollLoop_next hnames.read hempty hval0, Effect.bind_run]
        rcases pollLoop ring n (ptr + completionSize) (k.delivered ring i ptr front) with ⟨r, k'⟩
        cases r with
        | error e => rfl
        | ok polled => rfl
      rw [hend]
      exact ⟨after, _, hpoll.cons hempty⟩

/-- A poll of the ring. -/
theorem ConsoleRing.poll (h : ConsoleRing k task ring endpoint i) (ptr : UInt64) (count : UInt32) :
    ∃ after events, PollRun k ring i after events (userRingPoll task ring ptr count k).2 := by
  unfold userRingPoll
  rcases userRingTarget_run task ring ptr count k with ⟨e, htarget⟩ | ⟨s, _, hmax, _, _, htarget⟩
  · have hnone := pollRun_none k ring i validations_nil
    rw [Kernel.after_nil] at hnone
    rw [Effect.bind_of_error htarget]
    exact ⟨_, _, hnone⟩
  rw [Effect.bind_of_ok htarget, Effect.bind_run, K.userValidateRange_run]
  cases hval : Scdk.userValidateRange k.vmm ptr (completionSize * count.toUInt64) true with
  | error e =>
    have hnone := pollRun_none k ring i validations_nil
    rw [Kernel.after_nil] at hnone
    exact ⟨_, _, hnone⟩
  | ok u =>
    dsimp only
    -- The batch is validated as a whole, and so is each of its completions.
    have hparts := userValidateRange_entries (by decide) hmax hval
    have hvals := validations_nil.cons ptr (completionSize * count.toUInt64) true
    obtain ⟨after, events, hpoll⟩ := pollLoop_run count.toNat
      (k.after k.rings k.devices [.validated ptr (completionSize * count.toUInt64) true]) ptr
      h.names hparts
    refine ⟨after, [.validated ptr (completionSize * count.toUInt64) true] ++ events, ?_⟩
    constructor
    · exact ⟨hpoll.same.objects, hpoll.same.caps, hpoll.same.endpoints, hpoll.same.userRings⟩
    · exact hpoll.vmm
    · exact hpoll.rings
    · exact hpoll.entries
    · rw [hpoll.trace]
      exact List.append_assoc _ _ _
    · rw [consumedFrom_append, hvals.consumedFrom ring, hpoll.consumed]
      rfl
    · rw [deliveredFrom_append, hvals.deliveredFrom ring]
      exact hpoll.delivered

end poll

/-! ## Runs -/

/-- What can happen next: a submission, a poll, or anything else. -/
inductive RingUse (δ : Type) where
  | submit (ptr : UInt64) (count : UInt32)
  | poll (ptr : UInt64) (count : UInt32)
  | other (k : Kernel δ)

/-- The operations that `task` makes on its ring. -/
def ringUseStep (p : Platform δ) (task ring : UInt64) (k : Kernel δ) :
    RingUse δ → Except Err UInt32 × Kernel δ
  | .submit ptr count =>
      let (status, k) := userRingSubmit p task ring ptr count k
      (status.map fun _ => count, k)
  | .poll ptr count => userRingPoll task ring ptr count k
  | .other k => (.ok 0, k)

/-- A ring that is bound to the console and has not been used yet. -/
structure FreshRing (k : Kernel δ) (task ring endpoint : UInt64) (i : Fin maxRings) : Prop where
  bound : ConsoleRing k task ring endpoint i
  sq : (k.rings i).ring.sq.head = (k.rings i).ring.sq.tail
  cq : (k.rings i).ring.cq.head = (k.rings i).ring.cq.tail
  consumed : consumedFrom ring k.trace = []
  delivered : deliveredFrom ring k.trace = []

/-- The submissions and polls of `task` on its ring. -/
def ringUse (p : Platform δ) (task ring endpoint : UInt64) (i : Fin maxRings) :
    System (Kernel δ) (RingUse δ) (Except Err UInt32) where
  init := fun k => FreshRing k task ring endpoint i
  step := ringUseStep p task ring

/-- A step from `k` to `k'` that has nothing to do with the ring. -/
structure LeavesRing (task ring endpoint : UInt64) (i : Fin maxRings) (k k' : Kernel δ) : Prop where
  bound : ConsoleRing k' task ring endpoint i
  queues : (k'.rings i).ring = (k.rings i).ring
  consumed : consumedFrom ring k'.trace = consumedFrom ring k.trace
  delivered : deliveredFrom ring k'.trace = deliveredFrom ring k.trace

/-- The condition of `batch_correspondence`: a submission finds the submission
    queue empty, and its counters do not wrap around out of step with the
    cells. -/
def FindsEmpty (task ring endpoint : UInt64) (i : Fin maxRings) (k : Kernel δ) : RingUse δ → Prop
  | .submit _ count =>
      (k.rings i).ring.sq.head = (k.rings i).ring.sq.tail ∧
        Circular.InStep (k.rings i).ring.entries ((k.rings i).ring.sq.tail.toNat + count.toNat)
  | .poll _ _ => True
  | .other k' => LeavesRing task ring endpoint i k k'

/-- The condition of `completions_accounted`: the completions of a submission
    find room. -/
def FindsRoom (task ring endpoint : UInt64) (i : Fin maxRings) (k : Kernel δ) : RingUse δ → Prop
  | .submit ptr count =>
      Refused k i ptr count ∨
        RoomFor k endpoint (k.rings i).ring.room (offered k i ptr count) count.toNat
  | .poll _ _ => True
  | .other k' => LeavesRing task ring endpoint i k k'

section runs

variable {p : Platform δ} {task ring endpoint : UInt64} {i : Fin maxRings}
  {log : List (RingUse δ × Except Err UInt32)} {k : Kernel δ}

/-- Submissions and polls keep the ring bound. -/
theorem ConsoleRing.step (h : ConsoleRing k task ring endpoint i) {a : RingUse δ}
    (hother : ∀ k', a = .other k' → LeavesRing task ring endpoint i k k') :
    ConsoleRing (ringUseStep p task ring k a).2 task ring endpoint i := by
  cases a with
  | submit ptr count =>
    obtain ⟨after, events, hrun⟩ := h.submit p ptr count
    exact h.congr hrun.same hrun.rings hrun.entries
  | poll ptr count =>
    obtain ⟨after, events, hrun⟩ := h.poll ptr count
    exact h.congr hrun.same hrun.rings hrun.entries
  | other k' => exact (hother k' rfl).bound

/-- **Batches.**  In every run whose submissions find the submission queue empty,
    a submission that answers `SCDK_OK` has had the descriptors of its own batch
    consumed, in order. -/
theorem batch_correspondence
    (hrun : (ringUse p task ring endpoint i).RunWhen (FindsEmpty task ring endpoint i) log k)
    {ptr : UInt64} {count : UInt32}
    (hempty : FindsEmpty task ring endpoint i k (.submit ptr count))
    (hok : (userRingSubmit p task ring ptr count k).1 = .ok ()) :
    ∃ events, (userRingSubmit p task ring ptr count k).2.trace = k.trace ++ events ∧
      consumedFrom ring events = batchAt k count.toNat ptr := by
  have hbound : ConsoleRing k task ring endpoint i := by
    apply hrun.invariant (P := fun k => ConsoleRing k task ring endpoint i)
    · intro k hinit
      exact hinit.bound
    · intro k a hk ha
      apply hk.step
      intro k' heq
      rw [heq] at ha
      exact ha
  obtain ⟨after, events, hsub⟩ := hbound.submit p ptr count
  refine ⟨events, hsub.trace, ?_⟩
  obtain ⟨hroom, hcons⟩ := hsub.consumed hok
  obtain ⟨hhead, hstep⟩ := hempty
  -- An empty queue tracks as many pushes as its tail says.
  have hcount : (k.rings i).ring.sq.count.toNat = 0 := Circular.count_eq_zero.mpr hhead
  have htracks : Circular.Tracks (k.rings i).ring.entries (k.rings i).ring.sq
      (k.rings i).ring.sq.tail.toNat :=
    ⟨by simp, by omega, by omega⟩
  have hitems : offered k i ptr count =
      (k.rings i).ring.sq.items (k.rings i).ring.entries ++ batchAt k count.toNat ptr :=
    (Circular.items_pushAll hbound.size htracks (by simpa using hroom) (by simpa using hstep)).1
  have hnil : (k.rings i).ring.sq.items (k.rings i).ring.entries = [] :=
    Circular.items_eq_nil.mpr hhead
  rw [hcons, hitems, hnil, List.nil_append]
  exact List.take_of_length_le (by simp)

/-- What has been consumed was delivered, or its completion waits. -/
def Accounted (ring : UInt64) (i : Fin maxRings) (k : Kernel δ) : Prop :=
  (consumedFrom ring k.trace).length =
    (deliveredFrom ring k.trace).length + (k.rings i).ring.cq.count.toNat

/-- **No completion is lost.**  In every run whose submissions find room for
    their completions, every descriptor that the console has consumed has its
    completion delivered or waiting. -/
theorem completions_accounted
    (hrun : (ringUse p task ring endpoint i).RunWhen (FindsRoom task ring endpoint i) log k) :
    Accounted ring i k := by
  have hinv : ConsoleRing k task ring endpoint i ∧ Accounted ring i k := by
    apply hrun.invariant (P := fun k => ConsoleRing k task ring endpoint i ∧ Accounted ring i k)
    · -- At the start both queues are empty.
      intro k hinit
      refine ⟨hinit.bound, ?_⟩
      have hcq := Circular.count_eq_zero.mpr hinit.cq
      unfold Accounted
      rw [hinit.consumed, hinit.delivered, hcq]
      rfl
    · -- Each call keeps the ring and the balance of its completions.
      intro k a hk ha
      have hbound : ConsoleRing (ringUseStep p task ring k a).2 task ring endpoint i := by
        apply hk.1.step
        intro k' heq
        rw [heq] at ha
        exact ha
      refine ⟨hbound, ?_⟩
      have hacc := hk.2
      unfold Accounted at hacc ⊢
      cases a with
      | submit ptr count =>
        obtain ⟨after, events, hsub⟩ := hk.1.submit p ptr count
        have hcq := hsub.accounted ha
        show (consumedFrom ring (userRingSubmit p task ring ptr count k).2.trace).length =
          (deliveredFrom ring (userRingSubmit p task ring ptr count k).2.trace).length +
            ((userRingSubmit p task ring ptr count k).2.rings i).ring.cq.count.toNat
        rw [hsub.trace, hsub.rings, consumedFrom_append, deliveredFrom_append, hsub.delivered,
          RingTable.setRing_ring_self, List.length_append, List.append_nil]
        omega
      | poll ptr count =>
        obtain ⟨after, events, hpoll⟩ := hk.1.poll ptr count
        have hcq := hpoll.delivered
        show (consumedFrom ring (userRingPoll task ring ptr count k).2.trace).length =
          (deliveredFrom ring (userRingPoll task ring ptr count k).2.trace).length +
            ((userRingPoll task ring ptr count k).2.rings i).ring.cq.count.toNat
        rw [hpoll.trace, hpoll.rings, consumedFrom_append, deliveredFrom_append, hpoll.consumed,
          RingTable.setRing_ring_self, List.append_nil, List.length_append]
        omega
      | other k' =>
        obtain ⟨_, hring, hcons, hdel⟩ := ha
        show (consumedFrom ring k'.trace).length =
          (deliveredFrom ring k'.trace).length + (k'.rings i).ring.cq.count.toNat
        rw [hring, hcons, hdel]
        exact hacc
  exact hinv.2

/-! ### A ring of two entries -/

theorem ringMachine_fresh :
    FreshRing ringMachine (firstToken 4) (firstToken 6) (firstToken 0) 0 where
  bound :=
    { names :=
        { lookup := ⟨ringMachine.caps.entry 6, by decide +kernel⟩
          object := ⟨ringMachine.objects.object 6, by decide +kernel⟩
          objectId := by decide +kernel }
      owner := ⟨0, by decide +kernel⟩
      handler := ⟨(ringMachine.caps.entry 0).objectId, by decide +kernel⟩
      size := by decide +kernel }
  sq := by decide +kernel
  cq := by decide +kernel
  consumed := by decide +kernel
  delivered := by decide +kernel

/-- The submissions and polls of that task on its ring. -/
def machineUse : System (Kernel Unit) (RingUse Unit) (Except Err UInt32) :=
  ringUse quietPlatform (firstToken 4) (firstToken 6) (firstToken 0) 0

theorem ringMachine_init : machineUse.init ringMachine := ringMachine_fresh

/-- The two well-formed descriptors, in one batch. -/
theorem batch_correspondence_first :
    ∃ events, (userRingSubmit quietPlatform (firstToken 4) (firstToken 6) 0x201030 2
        ringMachine).2.trace = ringMachine.trace ++ events ∧
      consumedFrom (firstToken 6) events = batchAt ringMachine 2 0x201030 :=
  batch_correspondence (System.RunWhen.init ringMachine_fresh)
    ⟨ringMachine_fresh.sq, .inr (by decide +kernel)⟩ (by decide +kernel)

/-- Submissions and polls without a condition. -/
def AnyUse (task ring endpoint : UInt64) (i : Fin maxRings) (k : Kernel δ) : RingUse δ → Prop
  | .other k' => LeavesRing task ring endpoint i k k'
  | _ => True

/-- A batch fails at its first descriptor and leaves its second one behind, which
    the next batch gets consumed in place of its own. -/
theorem batch_correspondence_fails :
    ¬ ∀ (log : List (RingUse Unit × Except Err UInt32)) (k : Kernel Unit) (ptr : UInt64)
        (count : UInt32),
      machineUse.RunWhen (AnyUse (firstToken 4) (firstToken 6) (firstToken 0) 0) log k →
      (userRingSubmit quietPlatform (firstToken 4) (firstToken 6) ptr count k).1 = .ok () →
      ∃ events, (userRingSubmit quietPlatform (firstToken 4) (firstToken 6) ptr count k).2.trace =
          k.trace ++ events ∧
        consumedFrom (firstToken 6) events = batchAt k count.toNat ptr := by
  intro hall
  have hguard : machineUse.Guarded (AnyUse (firstToken 4) (firstToken 6) (firstToken 0) 0)
      ringMachine [.submit 0x201000 2] := ⟨trivial, trivial⟩
  obtain ⟨log, hrun⟩ := (System.RunWhen.init ringMachine_init).exec hguard
  set k := machineUse.exec ringMachine [.submit 0x201000 2] with hk
  obtain ⟨events, htrace, hcons⟩ := hall log k 0x201060 1 hrun (by rw [hk]; decide +kernel)
  -- What the second submission adds to the trace is fixed, so it can be computed.
  have hevents : events = (userRingSubmit quietPlatform (firstToken 4) (firstToken 6) 0x201060 1
      k).2.trace.drop k.trace.length := by
    rw [htrace, List.drop_left]
  have hne : consumedFrom (firstToken 6) ((userRingSubmit quietPlatform (firstToken 4) (firstToken 6)
      0x201060 1 k).2.trace.drop k.trace.length) ≠ batchAt k 1 0x201060 := by
    rw [hk]
    decide +kernel
  exact hne (hevents ▸ hcons)

/-- The run of one submission of two descriptors. -/
theorem completions_accounted_first :
    Accounted (firstToken 6) 0 (machineUse.exec ringMachine [.submit 0x201030 2]) := by
  have hroom : FindsRoom (firstToken 4) (firstToken 6) (firstToken 0) 0 ringMachine
      (.submit 0x201030 2) := .inr (.inl (by decide +kernel))
  have hguard : machineUse.Guarded (FindsRoom (firstToken 4) (firstToken 6) (firstToken 0) 0)
      ringMachine [.submit 0x201030 2] := ⟨hroom, trivial⟩
  obtain ⟨log, hrun⟩ := (System.RunWhen.init ringMachine_init).exec hguard
  exact completions_accounted hrun

/-- The completion queue is full after two descriptors, and the completion of the
    third is lost. -/
theorem completions_accounted_fails :
    ¬ ∀ (log : List (RingUse Unit × Except Err UInt32)) (k : Kernel Unit),
      machineUse.RunWhen (AnyUse (firstToken 4) (firstToken 6) (firstToken 0) 0) log k →
      Accounted (firstToken 6) 0 k := by
  intro hall
  have hguard : machineUse.Guarded (AnyUse (firstToken 4) (firstToken 6) (firstToken 0) 0)
      ringMachine [.submit 0x201030 2, .submit 0x201060 1] := ⟨trivial, trivial, trivial⟩
  obtain ⟨log, hrun⟩ := (System.RunWhen.init ringMachine_init).exec hguard
  have hlost : ¬ Accounted (firstToken 6) 0
      (machineUse.exec ringMachine [.submit 0x201030 2, .submit 0x201060 1]) := by
    unfold Accounted
    decide +kernel
  exact hlost (hall log _ hrun)

end runs

end Scdk
