import Scdk.Core.Ring
import Scdk.Lib.Run

/-! # Rings as pairs of bounded FIFO queues

    The queues of a ring are read off its counters and cells (`sqItems`,
    `cqItems`).  For any interleaving of creations and queue operations over
    any number of rings, each operation does to the queue it is for what a
    bounded FIFO queue of capacity `entries` does, and nothing to any other
    queue.

    A push finds a cell that no pending item uses as long as the 32-bit tail
    counter and the cell index stay in step: for every number of pushes when
    `entries` is a power of two, and for the first `2 ^ 32` pushes otherwise. -/

namespace Scdk

/-! ## The system -/

/-- The tables the ring code works on. -/
structure RingWorld where
  objects : ObjectTable
  caps : CapTable
  rings : RingTable

/-- The calls of the ring interface. -/
inductive RingCall where
  | create (ownerCore entries : UInt32) (boundTarget : UInt64)
  | submit (ring : UInt64) (desc : RingDesc)
  | consume (ring : UInt64)
  | complete (ring : UInt64) (completion : Completion)
  | poll (ring : UInt64)
  deriving DecidableEq

/-- Their answers. -/
inductive RingAnswer where
  | ring (r : Except Err UInt64)
  | status (r : Except Err Unit)
  | desc (r : Except Err RingDesc)
  | completion (r : Except Err Completion)
  deriving DecidableEq

/-- One call. -/
def ringStep (s : RingWorld) : RingCall → RingAnswer × RingWorld
  | .create ownerCore entries boundTarget =>
      let (r, objects, caps, rings) :=
        ringCreate s.objects s.caps s.rings ownerCore entries boundTarget
      (.ring r, ⟨objects, caps, rings⟩)
  | .submit ring desc =>
      let (r, rings) := ringSubmit s.objects s.caps s.rings ring desc
      (.status r, { s with rings })
  | .consume ring =>
      let (r, rings) := ringConsume s.objects s.caps s.rings ring
      (.desc r, { s with rings })
  | .complete ring completion =>
      let (r, rings) := ringComplete s.objects s.caps s.rings ring completion
      (.status r, { s with rings })
  | .poll ring =>
      let (r, rings) := ringPoll s.objects s.caps s.rings ring
      (.completion r, { s with rings })

/-- The ring code, started on any well-formed object and capability tables
    before any ring exists. -/
def ringSystem : System RingWorld RingCall RingAnswer where
  init := fun s => TablesWf s.objects s.caps ∧ ∀ i, (s.rings i).objectId = 0
  step := ringStep

/-- The calls of a run with their answers, oldest first. -/
abbrev RingLog : Type := List (RingCall × RingAnswer)

/-- `r` was returned by a creation of a ring of `entries` entries. -/
def RingCreated (log : RingLog) (r : UInt64) (entries : UInt32) : Prop :=
  ∃ ownerCore boundTarget, (.create ownerCore entries boundTarget, .ring (.ok r)) ∈ log

/-- A successful submission to `r`. -/
def isSubmit (r : UInt64) : RingCall × RingAnswer → Bool
  | (.submit r' _, .status (.ok _)) => r' == r
  | _ => false

/-- A successful completion on `r`. -/
def isComplete (r : UInt64) : RingCall × RingAnswer → Bool
  | (.complete r' _, .status (.ok _)) => r' == r
  | _ => false

/-- The number of items pushed to the submission queue of `r`. -/
def submitCount (r : UInt64) (log : RingLog) : Nat := log.countP (isSubmit r)

/-- The number of items pushed to the completion queue of `r`. -/
def completeCount (r : UInt64) (log : RingLog) : Nat := log.countP (isComplete r)

/-! ## The queues -/

/-- The pending descriptors of the ring `r` names, oldest first. -/
def sqItems (s : RingWorld) (r : UInt64) : List RingDesc :=
  match ringLookup s.objects s.caps s.rings r Right.read with
  | .ok i => (s.rings i).ring.sq.items (s.rings i).ring.entries
  | .error _ => []

/-- The pending completions of the ring `r` names, oldest first. -/
def cqItems (s : RingWorld) (r : UInt64) : List Completion :=
  match ringLookup s.objects s.caps s.rings r Right.read with
  | .ok i => (s.rings i).ring.cq.items (s.rings i).ring.entries
  | .error _ => []

/-- Nothing but the submission queue of `r` differs between `s` and `s'`. -/
def SqFrame (r : UInt64) (s s' : RingWorld) : Prop :=
  (∀ r', r' ≠ r → sqItems s' r' = sqItems s r') ∧ ∀ r', cqItems s' r' = cqItems s r'

/-- Nothing but the completion queue of `r` differs between `s` and `s'`. -/
def CqFrame (r : UInt64) (s s' : RingWorld) : Prop :=
  (∀ r', r' ≠ r → cqItems s' r' = cqItems s r') ∧ ∀ r', sqItems s' r' = sqItems s r'

/-- `call` pushes `x` to a bounded FIFO queue: it answers busy and changes
    nothing exactly when the queue holds `capacity` items, and else appends. -/
def PushesTo {α : Type} (s : RingWorld) (call : RingCall) (capacity : Nat)
    (items : RingWorld → List α) (frame : RingWorld → Prop) (inStep : Prop) (x : α) : Prop :=
  ((items s).length = capacity → ringStep s call = (.status (.error .busy), s)) ∧
  ((items s).length ≠ capacity → ∃ s', ringStep s call = (.status (.ok ()), s') ∧
    (inStep → items s' = items s ++ [x]) ∧ frame s')

/-- `call` pops from a FIFO queue: it answers that there is no entry and
    changes nothing exactly when the queue is empty, and else takes the oldest
    item. -/
def PopsFrom {α : Type} (s : RingWorld) (call : RingCall) (answer : Except Err α → RingAnswer)
    (items : RingWorld → List α) (frame : RingWorld → Prop) : Prop :=
  (items s = [] → ringStep s call = (answer (.error .noent), s)) ∧
  (∀ x rest, items s = x :: rest → ∃ s', ringStep s call = (answer (.ok x), s') ∧
    items s' = rest ∧ frame s')

/-- The counter of a queue of `entries` entries stays in step with its cell
    index up to `pushed` pushes. -/
def PushesOk (entries : UInt32) (pushed : Nat) : Prop :=
  (∃ k, entries.toNat = 2 ^ k) ∨ pushed ≤ 2 ^ 32

theorem PushesOk.inStep {entries : UInt32} {pushed : Nat} (h : PushesOk entries pushed) :
    Circular.InStep entries pushed := by
  rcases h with ⟨k, hk⟩ | hle
  · left
    have hlt := entries.toNat_lt
    rw [hk] at hlt ⊢
    exact Nat.pow_dvd_pow 2 (Nat.le_of_lt ((Nat.pow_lt_pow_iff_right (by decide)).mp hlt))
  · exact .inr hle

/-! ## The invariant -/

/-- Capability slot `k` holds the only token of the ring in slot `i`. -/
structure RingOwner (s : RingWorld) (i : Fin maxRings) (k : Fin maxCaps) : Prop where
  occupied : s.caps.occupied k = true
  entry : (s.caps.entry k).objectId = (s.rings i).objectId
  type : (s.caps.entry k).objectType = ObjType.ring
  rights : (s.caps.entry k).rights = ringRights
  sole : s.caps.Sole k
  object : ∃ object, objectLookup s.objects (s.rings i).objectId = .ok object ∧
    object.payload = .ring i

/-- The ring of slot `i` has `entries` entries, and its counters agree with
    what was pushed to its two queues. -/
structure RingTracks (log : RingLog) (ring : Ring) (r : UInt64) (entries : UInt32) : Prop where
  size : ring.entries = entries
  pos : 0 < entries.toNat
  le : entries.toNat ≤ ringMaxEntries
  sq : ring.sq.Tracks entries (submitCount r log)
  cq : ring.cq.Tracks entries (completeCount r log)

/-- The invariant between the history and the tables. -/
structure RingInv (log : RingLog) (s : RingWorld) : Prop where
  wf : TablesWf s.objects s.caps
  owned : ∀ i, (s.rings i).objectId ≠ 0 → ∃ k, RingOwner s i k ∧
    ∃ entries, RingCreated log (s.caps.token k) entries
  created : ∀ r entries, RingCreated log r entries → ∃ i k, (s.rings i).objectId ≠ 0 ∧
    RingOwner s i k ∧ r = s.caps.token k ∧ RingTracks log (s.rings i).ring r entries
  pushed : ∀ r, (∀ entries, ¬ RingCreated log r entries) →
    submitCount r log = 0 ∧ completeCount r log = 0

theorem RingOwner.names {s : RingWorld} (hwf : TablesWf s.objects s.caps) {i : Fin maxRings}
    {k : Fin maxCaps} (h : RingOwner s i k) (hid : (s.rings i).objectId ≠ 0) :
    NamesRing s.objects s.caps s.rings (s.caps.token k) i where
  lookup := ⟨s.caps.entry k, (capLookup_eq_ok hwf).mpr ⟨k, h.occupied, rfl, rfl⟩, h.entry, h.type,
    h.rights⟩
  object := h.object
  objectId := hid

/-- Different rings have different tokens. -/
theorem RingOwner.slot_unique {s : RingWorld} {i j : Fin maxRings} {k : Fin maxCaps}
    (hi : RingOwner s i k) (hj : RingOwner s j k) : i = j := by
  obtain ⟨ob, hob, hpay⟩ := hi.object
  obtain ⟨ob', hob', hpay'⟩ := hj.object
  rw [← hi.entry] at hob
  rw [← hj.entry, hob] at hob'
  obtain rfl := Except.ok.inj hob'
  rw [hpay] at hpay'
  exact Payload.ring.inj hpay'

/-- Only the token of a ring leads to it. -/
theorem RingInv.of_ringLookup {log : RingLog} {s : RingWorld} (h : RingInv log s) {r right : UInt64}
    {i : Fin maxRings} (hl : ringLookup s.objects s.caps s.rings r right = .ok i) :
    (s.rings i).objectId ≠ 0 ∧ ∃ k, RingOwner s i k ∧ r = s.caps.token k ∧
      ∃ entries, RingCreated log r entries := by
  unfold ringLookup at hl
  split at hl
  · cases hl
  · next entry hcheck =>
    split at hl
    · cases hl
    · next object hob =>
      split at hl
      · next j hpay =>
        split at hl
        · cases hl
        · next hid =>
          obtain rfl := Except.ok.inj hl
          rw [not_not] at hid
          obtain ⟨_, k, hocc, rfl, rfl, _⟩ := (capCheck_eq_ok h.wf).mp hcheck
          have hne : (s.rings j).objectId ≠ 0 := by
            rw [hid]
            exact (CapTable.occupied_iff.mp hocc).1
          obtain ⟨k', howner, hcreated⟩ := h.owned j hne
          obtain rfl := howner.sole k hocc (hid.symm.trans howner.entry.symm)
          exact ⟨hne, k, howner, rfl, hcreated⟩
      · cases hl

theorem ringCreated_concat_of_ne {log : RingLog} {ev : RingCall × RingAnswer}
    (h : ∀ core entries target r, ev ≠ (.create core entries target, .ring (.ok r)))
    (r : UInt64) (entries : UInt32) :
    RingCreated (log ++ [ev]) r entries ↔ RingCreated log r entries := by
  unfold RingCreated
  constructor
  · rintro ⟨core, target, hmem⟩
    rcases List.mem_append.mp hmem with hold | hnew
    · exact ⟨core, target, hold⟩
    · exact absurd (List.mem_singleton.mp hnew).symm (h core entries target r)
  · rintro ⟨core, target, hmem⟩
    exact ⟨core, target, List.mem_append_left _ hmem⟩

theorem submitCount_concat (r : UInt64) (log : RingLog) (ev : RingCall × RingAnswer) :
    submitCount r (log ++ [ev]) = submitCount r log + if isSubmit r ev then 1 else 0 := by
  unfold submitCount
  rw [List.countP_append, List.countP_singleton]

theorem completeCount_concat (r : UInt64) (log : RingLog) (ev : RingCall × RingAnswer) :
    completeCount r (log ++ [ev]) = completeCount r log + if isComplete r ev then 1 else 0 := by
  unfold completeCount
  rw [List.countP_append, List.countP_singleton]

/-- A queue operation on the ring of slot `i` keeps the invariant when it
    keeps the counters of that ring right. -/
theorem RingInv.setRing {log : RingLog} {s : RingWorld} (h : RingInv log s)
    {ev : RingCall × RingAnswer} {i : Fin maxRings} {k : Fin maxCaps} {ring : Ring}
    (howner : RingOwner s i k)
    (hev : ∀ core entries target r, ev ≠ (.create core entries target, .ring (.ok r)))
    (hother : ∀ r, r ≠ s.caps.token k → isSubmit r ev = false ∧ isComplete r ev = false)
    (hexists : ∃ entries, RingCreated log (s.caps.token k) entries)
    (htracks : ∀ entries, RingTracks log (s.rings i).ring (s.caps.token k) entries →
      RingTracks (log ++ [ev]) ring (s.caps.token k) entries) :
    RingInv (log ++ [ev]) { s with rings := s.rings.setRing i ring } := by
  -- Only the queues of the ring change, so every owner is one still.
  have howner' : ∀ j k', RingOwner s j k' →
      RingOwner { s with rings := s.rings.setRing i ring } j k' := by
    intro j k' ho
    exact ⟨ho.occupied, by simpa using ho.entry, ho.type, ho.rights, ho.sole,
      by simpa using ho.object⟩
  refine ⟨h.wf, ?_, ?_, ?_⟩
  · intro j hj
    rw [RingTable.setRing_objectId] at hj
    obtain ⟨k', ho, entries, hc⟩ := h.owned j hj
    exact ⟨k', howner' j k' ho, entries, (ringCreated_concat_of_ne hev _ _).mpr hc⟩
  · intro r entries hc
    obtain ⟨j, k', hj, ho, rfl, ht⟩ := h.created r entries ((ringCreated_concat_of_ne hev _ _).mp hc)
    refine ⟨j, k', by simpa using hj, howner' j k' ho, rfl, ?_⟩
    dsimp only
    by_cases hji : j = i
    · subst hji
      obtain rfl := howner.sole k' ho.occupied (ho.entry.trans howner.entry.symm)
      rw [RingTable.setRing_ring_self]
      exact htracks entries ht
    · -- Another ring: nothing was pushed to its queues.
      have hne : s.caps.token k' ≠ s.caps.token k := by
        intro heq
        obtain rfl := CapTable.token_injective heq
        exact hji (ho.slot_unique howner)
      obtain ⟨hs, hcq⟩ := hother _ hne
      rw [RingTable.setRing_ne _ _ _ hji]
      refine ⟨ht.size, ht.pos, ht.le, ?_, ?_⟩
      · rw [submitCount_concat, hs]
        exact ht.sq
      · rw [completeCount_concat, hcq]
        exact ht.cq
  · -- A token that names no ring is none of this ring, whose token was created.
    intro r hr
    have hr' : ∀ entries, ¬ RingCreated log r entries :=
      fun entries hc => hr entries ((ringCreated_concat_of_ne hev _ _).mpr hc)
    have hne : r ≠ s.caps.token k := by
      rintro rfl
      obtain ⟨entries, hc⟩ := hexists
      exact hr' entries hc
    obtain ⟨hs, hcq⟩ := hother r hne
    rw [submitCount_concat, completeCount_concat, hs, hcq]
    exact h.pushed r hr'

/-- A call that changes nothing and pushes nothing keeps the invariant. -/
theorem RingInv.quiet {log : RingLog} {s : RingWorld} (h : RingInv log s)
    {ev : RingCall × RingAnswer}
    (hev : ∀ core entries target r, ev ≠ (.create core entries target, .ring (.ok r)))
    (hs : ∀ r, isSubmit r ev = false) (hc : ∀ r, isComplete r ev = false) :
    RingInv (log ++ [ev]) s := by
  refine ⟨h.wf, ?_, ?_, ?_⟩
  · intro i hi
    obtain ⟨k, ho, entries, hcr⟩ := h.owned i hi
    exact ⟨k, ho, entries, (ringCreated_concat_of_ne hev _ _).mpr hcr⟩
  · intro r entries hcr
    obtain ⟨i, k, hi, ho, hr, ht⟩ := h.created r entries ((ringCreated_concat_of_ne hev _ _).mp hcr)
    refine ⟨i, k, hi, ho, hr, ht.size, ht.pos, ht.le, ?_, ?_⟩
    · rw [submitCount_concat, hs]
      exact ht.sq
    · rw [completeCount_concat, hc]
      exact ht.cq
  · intro r hr
    rw [submitCount_concat, completeCount_concat, hs, hc]
    exact h.pushed r fun entries hcr => hr entries ((ringCreated_concat_of_ne hev _ _).mpr hcr)

/-! ## Creating a ring keeps the invariant -/

/-- New objects, and new tokens for new objects, leave the owner of a ring in
    place. -/
theorem RingOwner.mono {s s' : RingWorld} {i : Fin maxRings} {k : Fin maxCaps}
    (h : RingOwner s i k) (hslot : (s'.rings i).objectId = (s.rings i).objectId)
    (hocc : s'.caps.occupied k = s.caps.occupied k) (hentry : s'.caps.entry k = s.caps.entry k)
    (hsole : s'.caps.Sole k)
    (hobj : ∀ id ob, objectLookup s.objects id = .ok ob → objectLookup s'.objects id = .ok ob) :
    RingOwner s' i k where
  occupied := by
    rw [hocc]
    exact h.occupied
  entry := by
    rw [hentry, hslot]
    exact h.entry
  type := by
    rw [hentry]
    exact h.type
  rights := by
    rw [hentry]
    exact h.rights
  sole := hsole
  object := by
    obtain ⟨ob, hl, hpay⟩ := h.object
    exact ⟨ob, by rw [hslot]; exact hobj _ _ hl, hpay⟩

/-- Filling a free ring slot leaves the slots that hold a ring alone. -/
theorem RingTable.update_of_taken {rings : RingTable} {i j : Fin maxRings}
    (hfree : (rings i).objectId = 0) (hj : (rings j).objectId ≠ 0) (slot : RingSlot) :
    Function.update rings i slot j = rings j := by
  apply Function.update_of_ne
  intro hji
  subst hji
  exact hj hfree

/-- A new object leaves the owner of every ring in place. -/
theorem RingOwner.orphan {s : RingWorld} (hwf : TablesWf s.objects s.caps) {i j : Fin maxRings}
    {k : Fin maxCaps} (ho : RingOwner s j k) (hfree : (s.rings i).objectId = 0)
    (hj : (s.rings j).objectId ≠ 0) (core : UInt32) (slot : RingSlot) :
    RingOwner ⟨(objectCreate s.objects ObjType.ring core 0 (.ring i)).2, s.caps,
      Function.update s.rings i slot⟩ j k := by
  refine ho.mono ?_ rfl rfl ho.sole fun id ob hl => objectLookup_objectCreate hwf.objects hl _ _ _ _
  dsimp only
  rw [RingTable.update_of_taken hfree hj]

/-- A new object with its first token leaves the owner of every ring in
    place. -/
theorem RingOwner.create {s : RingWorld} (hwf : TablesWf s.objects s.caps) {i j : Fin maxRings}
    {k k' : Fin maxCaps} (ho : RingOwner s j k') (hfree : (s.rings i).objectId = 0)
    (hj : (s.rings j).objectId ≠ 0) {core : UInt32} {id : UInt64} {o : ObjectTable}
    {object : Object} (hc : objectCreate s.objects ObjType.ring core 0 (.ring i) = (.ok id, o))
    (hl : objectLookup o id = .ok object) (hk : s.caps.occupied k = false) (slot : RingSlot) :
    k' ≠ k ∧ RingOwner ⟨o, s.caps.mintSlot k object ringRights, Function.update s.rings i slot⟩ j k' := by
  have hk' : k' ≠ k := by
    intro heq
    have := ho.occupied
    rw [heq, hk] at this
    cases this
  obtain ⟨g, hl'⟩ := objectLookup_of_objectCreate hwf.objects hc
  obtain rfl := Except.ok.inj (hl.symm.trans hl')
  have hsole : (s.caps.mintSlot k ⟨id, ObjType.ring, g, core, 0, .ring i⟩ ringRights).Sole k' :=
    ho.sole.mintSlot hk' (hwf.objectId_ne (objectLookup_fresh hwf.objects hc) ho.occupied).symm _
  refine ⟨hk', ho.mono ?_ (CapTable.mintSlot_occupied_ne _ _ _ _ hk')
    (CapTable.mintSlot_entry_ne _ _ _ _ hk') hsole ?_⟩
  · dsimp only
    rw [RingTable.update_of_taken hfree hj]
  · intro id' ob hob
    have := objectLookup_objectCreate hwf.objects hob ObjType.ring core 0 (.ring i)
    rwa [hc] at this

/-- The new ring is owned by its new token. -/
theorem RingOwner.created {s : RingWorld} (hwf : TablesWf s.objects s.caps) {i : Fin maxRings}
    {k : Fin maxCaps} {core : UInt32} {id : UInt64} {o : ObjectTable} {object : Object}
    (hc : objectCreate s.objects ObjType.ring core 0 (.ring i) = (.ok id, o))
    (hl : objectLookup o id = .ok object) (ring : Ring) :
    id ≠ 0 ∧ RingOwner ⟨o, s.caps.mintSlot k object ringRights,
      Function.update s.rings i ⟨id, ring⟩⟩ i k := by
  obtain ⟨g, hl'⟩ := objectLookup_of_objectCreate hwf.objects hc
  obtain rfl := Except.ok.inj (hl.symm.trans hl')
  have ho := objectCreate_wf hwf.objects ObjType.ring core 0 (.ring i)
  rw [hc] at ho
  have hid : id ≠ 0 := by
    obtain ⟨j, hj, htype, hjid⟩ := (objectLookup_eq_ok ho).mp hl
    rw [← hjid, ← hj]
    apply ho.id_ne_zero
    rw [hj]
    exact htype
  refine ⟨hid, CapTable.mintSlot_occupied_self ho _ _ _ hl, ?_, ?_, ?_,
    CapTable.sole_mintSlot_self hwf (objectLookup_fresh hwf.objects hc) _ _, _,
    (by simpa using hl), rfl⟩
  · simp
  · simp
  · simp

/-- A creation that made an object but no token leaves only an object behind. -/
theorem RingInv.orphan {log : RingLog} {s : RingWorld} (h : RingInv log s) {i : Fin maxRings}
    (hfree : (s.rings i).objectId = 0) (core entries : UInt32) (target : UInt64) (ring : Ring)
    (e : Err) :
    RingInv (log ++ [(.create core entries target, .ring (.error e))])
      ⟨(objectCreate s.objects ObjType.ring core 0 (.ring i)).2, s.caps,
        Function.update s.rings i ⟨0, ring⟩⟩ := by
  have hquiet : RingInv (log ++ [(.create core entries target, .ring (.error e))]) s :=
    h.quiet (by simp) (fun _ => rfl) (fun _ => rfl)
  refine ⟨tablesWf_objectCreate h.wf _ _ _ _, ?_, ?_, hquiet.pushed⟩
  · intro j hj
    by_cases hji : j = i
    · subst hji
      simp at hj
    · simp only [Function.update_of_ne hji] at hj
      obtain ⟨k, ho, hc⟩ := hquiet.owned j hj
      exact ⟨k, ho.orphan h.wf hfree hj core _, hc⟩
  · intro r entries' hc
    obtain ⟨j, k, hj, ho, hr, ht⟩ := hquiet.created r entries' hc
    refine ⟨j, k, ?_, ho.orphan h.wf hfree hj core _, hr, ?_⟩
    · dsimp only
      rw [RingTable.update_of_taken hfree hj]
      exact hj
    · dsimp only
      rw [RingTable.update_of_taken hfree hj]
      exact ht

theorem ringCreated_concat_create {log : RingLog} {core entries : UInt32} {target token r : UInt64}
    {entries' : UInt32} :
    RingCreated (log ++ [(.create core entries target, .ring (.ok token))]) r entries' ↔
      RingCreated log r entries' ∨ (r = token ∧ entries' = entries) := by
  unfold RingCreated
  simp only [List.mem_append, List.mem_singleton, Prod.mk.injEq, RingCall.create.injEq,
    RingAnswer.ring.injEq, Except.ok.injEq]
  constructor
  · rintro ⟨core', target', hold | ⟨⟨_, he, _⟩, hr⟩⟩
    · exact .inl ⟨core', target', hold⟩
    · exact .inr ⟨hr, he⟩
  · rintro (⟨core', target', hold⟩ | ⟨rfl, rfl⟩)
    · exact ⟨core', target', .inl hold⟩
    · exact ⟨core, target, .inr ⟨⟨rfl, rfl, rfl⟩, rfl⟩⟩

/-- A successful creation: the ring of slot `i` starts with two empty queues
    and a token of its own. -/
theorem RingInv.create {log : RingLog} {s : RingWorld} (h : RingInv log s) {i : Fin maxRings}
    (hfree : (s.rings i).objectId = 0) {core entries : UInt32} {target id : UInt64}
    (hpos : 0 < entries.toNat) (hle : entries.toNat ≤ ringMaxEntries) {o : ObjectTable}
    {k : Fin maxCaps} {object : Object}
    (hc : objectCreate s.objects ObjType.ring core 0 (.ring i) = (.ok id, o))
    (hl : objectLookup o id = .ok object) (hk : s.caps.occupied k = false) :
    RingInv (log ++ [(.create core entries target,
        .ring (.ok ((s.caps.mintSlot k object ringRights).token k)))])
      ⟨o, s.caps.mintSlot k object ringRights,
        Function.update s.rings i ⟨id, (s.rings i).ring.fresh entries target⟩⟩ := by
  have hwf := tablesWf_objectCreate h.wf ObjType.ring core 0 (.ring i)
  rw [hc] at hwf
  obtain ⟨hid, hnew⟩ := RingOwner.created (k := k) h.wf hc hl ((s.rings i).ring.fresh entries target)
  -- The new token was never a ring token, so nothing was pushed under it.
  have hunused : ∀ e, ¬ RingCreated log ((s.caps.mintSlot k object ringRights).token k) e := by
    intro e hcr
    obtain ⟨j, k', hj, ho, htok, _⟩ := h.created _ e hcr
    have hk' := (ho.create h.wf hfree hj hc hl hk (s.rings i)).1
    exact hk' (CapTable.token_injective htok).symm
  obtain ⟨hsub, hcomp⟩ := h.pushed _ hunused
  refine ⟨tablesWf_mintSlot hwf k (by decide) hl, ?_, ?_, ?_⟩
  · intro j hj
    by_cases hji : j = i
    · subst hji
      exact ⟨k, hnew, entries, ringCreated_concat_create.mpr (.inr ⟨rfl, rfl⟩)⟩
    · simp only [Function.update_of_ne hji] at hj
      obtain ⟨k', ho, e, hcr⟩ := h.owned j hj
      obtain ⟨hk', ho'⟩ := ho.create h.wf hfree hj hc hl hk
        ⟨id, (s.rings i).ring.fresh entries target⟩
      refine ⟨k', ho', e, ringCreated_concat_create.mpr (.inl ?_)⟩
      rw [CapTable.mintSlot_token_ne _ _ _ _ hk']
      exact hcr
  · intro r e hcr
    rcases ringCreated_concat_create.mp hcr with hold | ⟨rfl, rfl⟩
    · obtain ⟨j, k', hj, ho, rfl, ht⟩ := h.created r e hold
      obtain ⟨hk', ho'⟩ := ho.create h.wf hfree hj hc hl hk
        ⟨id, (s.rings i).ring.fresh entries target⟩
      have hslot := RingTable.update_of_taken hfree hj
        ⟨id, (s.rings i).ring.fresh entries target⟩
      refine ⟨j, k', ?_, ho', (CapTable.mintSlot_token_ne _ _ _ _ hk').symm, ?_⟩
      · dsimp only
        rw [hslot]
        exact hj
      dsimp only
      rw [hslot]
      refine ⟨ht.size, ht.pos, ht.le, ?_, ?_⟩
      · rw [submitCount_concat]
        exact ht.sq
      · rw [completeCount_concat]
        exact ht.cq
    · refine ⟨i, k, by simpa using hid, hnew, rfl, ?_⟩
      dsimp only
      rw [Function.update_self]
      refine ⟨rfl, hpos, hle, ?_, ?_⟩
      · rw [submitCount_concat, hsub]
        exact Circular.tracks_reset _ _
      · rw [completeCount_concat, hcomp]
        exact Circular.tracks_reset _ _
  · intro r hr
    rw [submitCount_concat, completeCount_concat]
    exact h.pushed r fun e hcr => hr e (ringCreated_concat_create.mpr (.inl hcr))

/-! ## Every step keeps the invariant -/

theorem ringInv_create {log : RingLog} {s : RingWorld} (h : RingInv log s) (core entries : UInt32)
    (target : UInt64) :
    RingInv (log ++ [(.create core entries target, (ringStep s (.create core entries target)).1)])
      (ringStep s (.create core entries target)).2 := by
  simp only [ringStep]
  rcases ringCreate_cases s.objects s.caps s.rings core entries target with
    ⟨e, heq⟩ | ⟨i, hpos, hle, hfree, heq⟩
  · rw [heq]
    exact h.quiet (by simp) (fun _ => rfl) (fun _ => rfl)
  · rw [heq]
    rcases ringCreateSlot_cases s.objects s.caps s.rings i core entries target with
      ⟨e, heq'⟩ | ⟨e, heq'⟩ | ⟨id, o, k, object, hc, hl, hk, heq'⟩
    · rw [heq']
      exact h.quiet (by simp) (fun _ => rfl) (fun _ => rfl)
    · rw [heq']
      exact h.orphan hfree core entries target _ e
    · rw [heq']
      exact h.create hfree hpos hle hc hl hk

theorem ringInv_submit {log : RingLog} {s : RingWorld} (h : RingInv log s) (r : UInt64)
    (desc : RingDesc) :
    RingInv (log ++ [(.submit r desc, (ringStep s (.submit r desc)).1)])
      (ringStep s (.submit r desc)).2 := by
  cases hl : ringLookup s.objects s.caps s.rings r Right.write with
  | error e =>
    simp only [ringStep, ringSubmit, hl]
    exact h.quiet (by simp) (fun _ => rfl) (fun _ => rfl)
  | ok i =>
    obtain ⟨hid, k, ho, rfl, hc⟩ := h.of_ringLookup hl
    simp only [ringStep, ringSubmit_eq (ho.names h.wf hid)]
    cases hq : queuePush (s.rings i).ring.entries (s.rings i).ring.sq desc with
    | error e => exact h.quiet (by simp) (fun _ => rfl) (fun _ => rfl)
    | ok sq =>
      obtain ⟨hroom, rfl⟩ := queuePush_eq_ok hq
      refine h.setRing ho (by simp) (fun r hr => ⟨by simpa [isSubmit] using hr.symm, rfl⟩) hc ?_
      intro entries ht
      obtain rfl := ht.size
      refine ⟨rfl, ht.pos, ht.le, ?_, ?_⟩
      · rw [submitCount_concat, show isSubmit _ (.submit _ _, .status (.ok _)) = true from
          beq_self_eq_true _]
        exact ht.sq.push hroom desc
      · rw [completeCount_concat]
        exact ht.cq

theorem ringInv_consume {log : RingLog} {s : RingWorld} (h : RingInv log s) (r : UInt64) :
    RingInv (log ++ [(.consume r, (ringStep s (.consume r)).1)]) (ringStep s (.consume r)).2 := by
  cases hl : ringLookup s.objects s.caps s.rings r Right.read with
  | error e =>
    simp only [ringStep, ringConsume, hl]
    exact h.quiet (by simp) (fun _ => rfl) (fun _ => rfl)
  | ok i =>
    obtain ⟨hid, k, ho, rfl, hc⟩ := h.of_ringLookup hl
    simp only [ringStep, ringConsume_eq (ho.names h.wf hid)]
    cases hq : queuePop (s.rings i).ring.entries (s.rings i).ring.sq with
    | error e => exact h.quiet (by simp) (fun _ => rfl) (fun _ => rfl)
    | ok popped =>
      obtain ⟨hne, _, hpop⟩ := queuePop_eq_ok hq
      dsimp only
      rw [hpop]
      refine h.setRing ho (by simp) (fun r _ => ⟨rfl, rfl⟩) hc ?_
      intro entries ht
      refine ⟨ht.size, ht.pos, ht.le, ?_, ?_⟩
      · rw [submitCount_concat]
        exact ht.sq.pop hne
      · rw [completeCount_concat]
        exact ht.cq

theorem ringInv_complete {log : RingLog} {s : RingWorld} (h : RingInv log s) (r : UInt64)
    (completion : Completion) :
    RingInv (log ++ [(.complete r completion, (ringStep s (.complete r completion)).1)])
      (ringStep s (.complete r completion)).2 := by
  cases hl : ringLookup s.objects s.caps s.rings r Right.write with
  | error e =>
    simp only [ringStep, ringComplete, hl]
    exact h.quiet (by simp) (fun _ => rfl) (fun _ => rfl)
  | ok i =>
    obtain ⟨hid, k, ho, rfl, hc⟩ := h.of_ringLookup hl
    simp only [ringStep, ringComplete_eq (ho.names h.wf hid)]
    cases hq : queuePush (s.rings i).ring.entries (s.rings i).ring.cq completion with
    | error e => exact h.quiet (by simp) (fun _ => rfl) (fun _ => rfl)
    | ok cq =>
      obtain ⟨hroom, rfl⟩ := queuePush_eq_ok hq
      refine h.setRing ho (by simp) (fun r hr => ⟨rfl, by simpa [isComplete] using hr.symm⟩) hc ?_
      intro entries ht
      obtain rfl := ht.size
      refine ⟨rfl, ht.pos, ht.le, ?_, ?_⟩
      · rw [submitCount_concat]
        exact ht.sq
      · rw [completeCount_concat, show isComplete _ (.complete _ _, .status (.ok _)) = true from
          beq_self_eq_true _]
        exact ht.cq.push hroom completion

theorem ringInv_poll {log : RingLog} {s : RingWorld} (h : RingInv log s) (r : UInt64) :
    RingInv (log ++ [(.poll r, (ringStep s (.poll r)).1)]) (ringStep s (.poll r)).2 := by
  cases hl : ringLookup s.objects s.caps s.rings r Right.read with
  | error e =>
    simp only [ringStep, ringPoll, hl]
    exact h.quiet (by simp) (fun _ => rfl) (fun _ => rfl)
  | ok i =>
    obtain ⟨hid, k, ho, rfl, hc⟩ := h.of_ringLookup hl
    simp only [ringStep, ringPoll_eq (ho.names h.wf hid)]
    cases hq : queuePop (s.rings i).ring.entries (s.rings i).ring.cq with
    | error e => exact h.quiet (by simp) (fun _ => rfl) (fun _ => rfl)
    | ok popped =>
      obtain ⟨hne, _, hpop⟩ := queuePop_eq_ok hq
      dsimp only
      rw [hpop]
      refine h.setRing ho (by simp) (fun r _ => ⟨rfl, rfl⟩) hc ?_
      intro entries ht
      refine ⟨ht.size, ht.pos, ht.le, ?_, ?_⟩
      · rw [submitCount_concat]
        exact ht.sq
      · rw [completeCount_concat]
        exact ht.cq.pop hne

/-- The invariant holds along every run. -/
theorem ringInv_run {log : RingLog} {s : RingWorld} (h : ringSystem.Run log s) : RingInv log s := by
  induction h with
  | init h0 =>
    obtain ⟨hwf, hfree⟩ := h0
    refine ⟨hwf, fun i hi => absurd (hfree i) hi, ?_, fun r _ => ⟨rfl, rfl⟩⟩
    rintro r entries ⟨_, _, hmem⟩
    cases hmem
  | step a _ _ ih =>
    cases a with
    | create core entries target => exact ringInv_create ih core entries target
    | submit r desc => exact ringInv_submit ih r desc
    | consume r => exact ringInv_consume ih r
    | complete r completion => exact ringInv_complete ih r completion
    | poll r => exact ringInv_poll ih r

/-! ## What a step does to the queues -/

theorem ringLookup_setRing (o : ObjectTable) (c : CapTable) (rings : RingTable) (i : Fin maxRings)
    (ring : Ring) (r right : UInt64) :
    ringLookup o c (rings.setRing i ring) r right = ringLookup o c rings r right := by
  simp only [ringLookup, RingTable.setRing_objectId]

section queues

variable {log : RingLog} {s : RingWorld} {i : Fin maxRings} {k : Fin maxCaps}

/-- The queues of the ring of slot `i`, through its token. -/
theorem RingOwner.sqItems (hwf : TablesWf s.objects s.caps) (ho : RingOwner s i k)
    (hid : (s.rings i).objectId ≠ 0) :
    sqItems s (s.caps.token k) = (s.rings i).ring.sq.items (s.rings i).ring.entries := by
  unfold Scdk.sqItems
  rw [(ho.names hwf hid).ringLookup (by decide) (by decide)]

theorem RingOwner.cqItems (hwf : TablesWf s.objects s.caps) (ho : RingOwner s i k)
    (hid : (s.rings i).objectId ≠ 0) :
    cqItems s (s.caps.token k) = (s.rings i).ring.cq.items (s.rings i).ring.entries := by
  unfold Scdk.cqItems
  rw [(ho.names hwf hid).ringLookup (by decide) (by decide)]

/-- Replacing the ring of slot `i` changes what its own token leads to only. -/
theorem RingInv.setRing_frame (h : RingInv log s) (ho : RingOwner s i k) (ring : Ring) {r : UInt64}
    (hr : r ≠ s.caps.token k) :
    sqItems { s with rings := s.rings.setRing i ring } r = sqItems s r ∧
      cqItems { s with rings := s.rings.setRing i ring } r = cqItems s r := by
  unfold sqItems cqItems
  simp only [ringLookup_setRing]
  cases hl : ringLookup s.objects s.caps s.rings r Right.read with
  | error e => exact ⟨rfl, rfl⟩
  | ok j =>
    have hji : j ≠ i := by
      intro hji
      subst hji
      obtain ⟨_, k', ho', rfl, _⟩ := h.of_ringLookup hl
      obtain rfl := ho.sole k' ho'.occupied (ho'.entry.trans ho.entry.symm)
      exact hr rfl
    dsimp only
    rw [RingTable.setRing_ne _ _ _ hji]
    exact ⟨rfl, rfl⟩

/-- Replacing the submission queue of a ring, through its token. -/
theorem RingInv.setSq (h : RingInv log s) (ho : RingOwner s i k) (hid : (s.rings i).objectId ≠ 0)
    (sq : Circular ringMaxEntries RingDesc) :
    sqItems { s with rings := s.rings.setRing i { (s.rings i).ring with sq := sq } }
        (s.caps.token k) = sq.items (s.rings i).ring.entries ∧
      SqFrame (s.caps.token k) s
        { s with rings := s.rings.setRing i { (s.rings i).ring with sq := sq } } := by
  have hnames := ho.names h.wf hid
  refine ⟨?_, fun r hr => (h.setRing_frame ho _ hr).1, fun r => ?_⟩
  · unfold sqItems
    rw [(hnames.setRing i _).ringLookup (by decide) (by decide)]
    dsimp only
    rw [RingTable.setRing_ring_self]
  · by_cases hr : r = s.caps.token k
    · subst hr
      unfold cqItems
      rw [(hnames.setRing i _).ringLookup (by decide) (by decide),
        hnames.ringLookup (by decide) (by decide)]
      dsimp only
      rw [RingTable.setRing_ring_self]
    · exact (h.setRing_frame ho _ hr).2

/-- Replacing the completion queue of a ring, through its token. -/
theorem RingInv.setCq (h : RingInv log s) (ho : RingOwner s i k) (hid : (s.rings i).objectId ≠ 0)
    (cq : Circular ringMaxEntries Completion) :
    cqItems { s with rings := s.rings.setRing i { (s.rings i).ring with cq := cq } }
        (s.caps.token k) = cq.items (s.rings i).ring.entries ∧
      CqFrame (s.caps.token k) s
        { s with rings := s.rings.setRing i { (s.rings i).ring with cq := cq } } := by
  have hnames := ho.names h.wf hid
  refine ⟨?_, fun r hr => (h.setRing_frame ho _ hr).2, fun r => ?_⟩
  · unfold cqItems
    rw [(hnames.setRing i _).ringLookup (by decide) (by decide)]
    dsimp only
    rw [RingTable.setRing_ring_self]
  · by_cases hr : r = s.caps.token k
    · subst hr
      unfold sqItems
      rw [(hnames.setRing i _).ringLookup (by decide) (by decide),
        hnames.ringLookup (by decide) (by decide)]
      dsimp only
      rw [RingTable.setRing_ring_self]
    · exact (h.setRing_frame ho _ hr).1

/-- A step that keeps every ring where it is, and adds rings with empty queues
    only, changes no queue. -/
theorem RingInv.items_eq {log' : RingLog} {s' : RingWorld} (h : RingInv log s)
    (h' : RingInv log' s')
    (hold : ∀ j k, (s.rings j).objectId ≠ 0 → RingOwner s j k →
      s'.rings j = s.rings j ∧ RingOwner s' j k ∧ s'.caps.token k = s.caps.token k)
    (hnew : ∀ j, (s.rings j).objectId = 0 → (s'.rings j).objectId ≠ 0 →
      (s'.rings j).ring.sq.head = (s'.rings j).ring.sq.tail ∧
        (s'.rings j).ring.cq.head = (s'.rings j).ring.cq.tail)
    (r : UInt64) : sqItems s' r = sqItems s r ∧ cqItems s' r = cqItems s r := by
  cases hl : ringLookup s.objects s.caps s.rings r Right.read with
  | ok j =>
    obtain ⟨hid, k, ho, rfl, _⟩ := h.of_ringLookup hl
    obtain ⟨hslot, ho', htok⟩ := hold j k hid ho
    have hid' : (s'.rings j).objectId ≠ 0 := by
      rw [hslot]
      exact hid
    rw [ho.sqItems h.wf hid, ho.cqItems h.wf hid, ← htok, ho'.sqItems h'.wf hid',
      ho'.cqItems h'.wf hid', hslot]
    exact ⟨rfl, rfl⟩
  | error e =>
    -- Whatever `r` names now, it is a new ring.
    have hempty : sqItems s' r = [] ∧ cqItems s' r = [] := by
      unfold sqItems cqItems
      cases hl' : ringLookup s'.objects s'.caps s'.rings r Right.read with
      | error e' => exact ⟨rfl, rfl⟩
      | ok j =>
        obtain ⟨hid', k', ho', rfl, _⟩ := h'.of_ringLookup hl'
        have hid : (s.rings j).objectId = 0 := by
          by_contra hid
          obtain ⟨k, ho, _⟩ := h.owned j hid
          obtain ⟨_, hoj, htok⟩ := hold j k hid ho
          obtain rfl := hoj.sole k' ho'.occupied (ho'.entry.trans hoj.entry.symm)
          have hread : Right.read ≠ 0 := by decide
          rw [htok, (ho.names h.wf hid).ringLookup hread (by decide)] at hl
          cases hl
        obtain ⟨hsq, hcq⟩ := hnew j hid hid'
        exact ⟨Circular.items_eq_nil.mpr hsq, Circular.items_eq_nil.mpr hcq⟩
    rw [hempty.1, hempty.2]
    unfold sqItems cqItems
    rw [hl]
    exact ⟨rfl, rfl⟩

/-- A creation, successful or not, changes no queue: the new ring has two
    empty queues. -/
theorem RingInv.create_items (h : RingInv log s) (core entries : UInt32) (target r : UInt64) :
    sqItems (ringStep s (.create core entries target)).2 r = sqItems s r ∧
      cqItems (ringStep s (.create core entries target)).2 r = cqItems s r := by
  have h' := ringInv_create h core entries target
  refine h.items_eq h' ?_ ?_ r
  · -- A ring that exists is not the free entry that is filled in.
    intro j k hid ho
    simp only [ringStep]
    rcases ringCreate_cases s.objects s.caps s.rings core entries target with
      ⟨e, heq⟩ | ⟨i, _, _, hfree, heq⟩
    · rw [heq]
      exact ⟨rfl, ho, rfl⟩
    · rw [heq]
      rcases ringCreateSlot_cases s.objects s.caps s.rings i core entries target with
        ⟨e, heq'⟩ | ⟨e, heq'⟩ | ⟨id, o, k', object, hc, hl, hk, heq'⟩
      · rw [heq']
        exact ⟨rfl, ho, rfl⟩
      · rw [heq']
        exact ⟨RingTable.update_of_taken hfree hid _, ho.orphan h.wf hfree hid core _, rfl⟩
      · rw [heq']
        obtain ⟨hk', ho'⟩ := ho.create h.wf hfree hid hc hl hk
          ⟨id, (s.rings i).ring.fresh entries target⟩
        exact ⟨RingTable.update_of_taken hfree hid _, ho', CapTable.mintSlot_token_ne _ _ _ _ hk'⟩
  · -- A free entry has no queue; the one that is filled in starts with empty ones.
    intro j hid
    simp only [ringStep]
    rcases ringCreate_cases s.objects s.caps s.rings core entries target with
      ⟨e, heq⟩ | ⟨i, _, _, hfree, heq⟩
    · rw [heq]
      exact fun hid' => absurd hid hid'
    · rw [heq]
      have hreset : ∀ id slot, slot = Function.update s.rings i
          ⟨id, (s.rings i).ring.fresh entries target⟩ j → slot.objectId ≠ 0 →
          slot.ring.sq.head = slot.ring.sq.tail ∧ slot.ring.cq.head = slot.ring.cq.tail := by
        intro id slot hslot hid'
        by_cases hji : j = i
        · subst hji
          rw [hslot, Function.update_self]
          exact ⟨rfl, rfl⟩
        · rw [hslot, Function.update_of_ne hji] at hid'
          exact absurd hid hid'
      rcases ringCreateSlot_cases s.objects s.caps s.rings i core entries target with
        ⟨e, heq'⟩ | ⟨e, heq'⟩ | ⟨id, o, k', object, hc, hl, hk, heq'⟩
      · rw [heq']
        exact fun hid' => absurd hid hid'
      · rw [heq']
        exact hreset 0 _ rfl
      · rw [heq']
        exact hreset id _ rfl

end queues

/-! ## The refinement theorem -/

/-- **Refinement.**  After any run that created the ring `r` with `entries`
    entries, its two queues hold at most `entries` items each; submit and
    complete append to one of them, consume and poll take from one of them,
    and none of the four changes any other queue.  Creating further rings
    changes no queue. -/
theorem ring_refines {log : RingLog} {s : RingWorld} {r : UInt64} {entries : UInt32}
    (hrun : ringSystem.Run log s) (hr : RingCreated log r entries) :
    (sqItems s r).length ≤ entries.toNat ∧ (cqItems s r).length ≤ entries.toNat ∧
    (∀ desc, PushesTo s (.submit r desc) entries.toNat (sqItems · r) (SqFrame r s)
      (PushesOk entries (submitCount r log + 1)) desc) ∧
    PopsFrom s (.consume r) .desc (sqItems · r) (SqFrame r s) ∧
    (∀ completion, PushesTo s (.complete r completion) entries.toNat (cqItems · r) (CqFrame r s)
      (PushesOk entries (completeCount r log + 1)) completion) ∧
    PopsFrom s (.poll r) .completion (cqItems · r) (CqFrame r s) ∧
    (∀ core entries' target r', sqItems (ringStep s (.create core entries' target)).2 r' = sqItems s r' ∧
      cqItems (ringStep s (.create core entries' target)).2 r' = cqItems s r') := by
  have h := ringInv_run hrun
  -- The log says which entry of the table the token leads to.
  obtain ⟨i, k, hid, ho, rfl, ht⟩ := h.created r entries hr
  obtain rfl := ht.size
  have hnames := ho.names h.wf hid
  have hsq := ho.sqItems h.wf hid
  have hcq := ho.cqItems h.wf hid
  have hsqle := ht.sq.le_entries
  have hcqle := ht.cq.le_entries
  refine ⟨?_, ?_, ?_, ?_, ?_, ?_, fun core entries' target r' =>
    h.create_items core entries' target r'⟩
  · rw [hsq, Circular.length_items]
    exact hsqle
  · rw [hcq, Circular.length_items]
    exact hcqle
  · -- The submission queue, pushed and popped.
    intro desc
    unfold PushesTo
    simp only [hsq, Circular.length_items, ringStep, ringSubmit_eq hnames]
    refine ⟨fun hfull => by rw [queuePush_full hfull], fun hroom => ?_⟩
    have hlt : (s.rings i).ring.sq.count.toNat < (s.rings i).ring.entries.toNat := by omega
    rw [queuePush_room hlt]
    obtain ⟨hitems, hframe⟩ := h.setSq ho hid ((s.rings i).ring.sq.push _ desc)
    refine ⟨_, rfl, fun hok => ?_, hframe⟩
    rw [hitems]
    exact Circular.items_push ht.le ht.sq hlt hok.inStep desc
  · unfold PopsFrom
    simp only [hsq, ringStep, ringConsume_eq hnames]
    refine ⟨fun hnil => ?_, fun desc rest hcons => ?_⟩
    · rw [queuePop_empty (Circular.items_eq_nil.mp hnil)]
    · obtain ⟨hpop, hrest⟩ := queuePop_cons hcons
      rw [hpop]
      obtain ⟨hitems, hframe⟩ := h.setSq ho hid (s.rings i).ring.sq.pop
      exact ⟨_, rfl, hitems.trans hrest, hframe⟩
  · -- The completion queue is the same with the other indices.
    intro completion
    unfold PushesTo
    simp only [hcq, Circular.length_items, ringStep, ringComplete_eq hnames]
    refine ⟨fun hfull => by rw [queuePush_full hfull], fun hroom => ?_⟩
    have hlt : (s.rings i).ring.cq.count.toNat < (s.rings i).ring.entries.toNat := by omega
    rw [queuePush_room hlt]
    obtain ⟨hitems, hframe⟩ := h.setCq ho hid ((s.rings i).ring.cq.push _ completion)
    refine ⟨_, rfl, fun hok => ?_, hframe⟩
    rw [hitems]
    exact Circular.items_push ht.le ht.cq hlt hok.inStep completion
  · unfold PopsFrom
    simp only [hcq, ringStep, ringPoll_eq hnames]
    refine ⟨fun hnil => ?_, fun completion rest hcons => ?_⟩
    · rw [queuePop_empty (Circular.items_eq_nil.mp hnil)]
    · obtain ⟨hpop, hrest⟩ := queuePop_cons hcons
      rw [hpop]
      obtain ⟨hitems, hframe⟩ := h.setCq ho hid (s.rings i).ring.cq.pop
      exact ⟨_, rfl, hitems.trans hrest, hframe⟩

/-- A ring of three entries takes a descriptor and gives it back. -/
theorem ring_refines_push_pop :
    ∃ log s s₁ s₂, ringSystem.Run log s ∧ RingCreated log 0x100000000 3 ∧ sqItems s 0x100000000 = [] ∧
      ringStep s (.submit 0x100000000 ⟨1, 2, 3, 4, 5, 6⟩) = (.status (.ok ()), s₁) ∧
      sqItems s₁ 0x100000000 = [⟨1, 2, 3, 4, 5, 6⟩] ∧
      ringStep s₁ (.consume 0x100000000) = (.desc (.ok ⟨1, 2, 3, 4, 5, 6⟩), s₂) ∧
      sqItems s₂ 0x100000000 = [] := by
  have hinit : ringSystem.init ⟨.zero, .zero, .zero⟩ := ⟨tablesWf_zero, fun _ => rfl⟩
  have hrun := (System.Run.init hinit).step (.create 0 3 0)
  have hr : RingCreated ([] ++ [(.create 0 3 0, (ringSystem.step ⟨.zero, .zero, .zero⟩
      (.create 0 3 0)).1)]) 0x100000000 3 := by
    refine ⟨0, 0, ?_⟩
    rw [List.nil_append, List.mem_singleton]
    decide +kernel
  have hempty : sqItems (ringSystem.step ⟨.zero, .zero, .zero⟩ (.create 0 3 0)).2 0x100000000 = [] := by
    decide +kernel
  obtain ⟨_, _, hpush, _⟩ := ring_refines hrun hr
  obtain ⟨s₁, hsubmit, hitems, _⟩ := (hpush ⟨1, 2, 3, 4, 5, 6⟩).2 (by simp [hempty])
  have hone : sqItems s₁ 0x100000000 = [⟨1, 2, 3, 4, 5, 6⟩] := by
    refine (hitems (.inr (by decide))).trans ?_
    show sqItems _ _ ++ _ = _
    rw [hempty]
    rfl
  -- The descriptor is taken out where the run goes on.
  have hrun₁ := hrun.step (.submit 0x100000000 ⟨1, 2, 3, 4, 5, 6⟩)
  obtain ⟨core, target, hmem⟩ := hr
  obtain ⟨_, _, _, hpop, _⟩ := ring_refines hrun₁ ⟨core, target, List.mem_append_left _ hmem⟩
  have hstep : (ringSystem.step (ringSystem.step ⟨.zero, .zero, .zero⟩ (.create 0 3 0)).2
      (.submit 0x100000000 ⟨1, 2, 3, 4, 5, 6⟩)).2 = s₁ := congrArg Prod.snd hsubmit
  rw [hstep] at hpop
  obtain ⟨s₂, hconsume, hrest, _⟩ := hpop.2 _ _ hone
  exact ⟨_, _, s₁, s₂, hrun, ⟨core, target, hmem⟩, hempty, hsubmit, hone, hconsume, hrest⟩

end Scdk
