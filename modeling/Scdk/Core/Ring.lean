import Scdk.Core.Capability
import Scdk.Lib.Circular

/-! # Rings

    Model of `core/ring.c`: a fixed table of rings, each a submission queue and
    a completion queue over circular buffers of at most 64 entries, reached
    through ring capabilities.

    The functions take the object and capability tables as parameters.  Only
    `ringCreate` changes them; the queue operations change one ring slot. -/

namespace Scdk

/-! ## Model -/

/-- `struct scdk_ring_desc` -/
structure RingDesc where
  op : UInt64
  cap : UInt64
  grant : UInt64
  offset : UInt64
  length : UInt64
  flags : UInt64
  deriving DecidableEq, Repr

/-- `struct scdk_completion` -/
structure Completion where
  op : UInt64
  status : UInt64
  result0 : UInt64
  result1 : UInt64
  deriving DecidableEq, Repr

/-- `struct scdk_ring`.  `sq` stands for `submit_head`, `submit_tail` and the
    storage `sq` points to, `cq` for `complete_head`, `complete_tail` and `cq`. -/
structure Ring where
  entries : UInt32
  sq : Circular ringMaxEntries RingDesc
  cq : Circular ringMaxEntries Completion
  boundTarget : UInt64

/-- `struct scdk_ring_slot`, the storage of the queues included. -/
structure RingSlot where
  objectId : UInt64
  ring : Ring

/-- The static `ring_table`. -/
abbrev RingTable : Type := Fin maxRings → RingSlot

/-- The zeroed `ring_table`. -/
def RingTable.zero : RingTable := fun _ =>
  ⟨0, ⟨0, ⟨0, 0, fun _ => ⟨0, 0, 0, 0, 0, 0⟩⟩, ⟨0, 0, fun _ => ⟨0, 0, 0, 0⟩⟩, 0⟩⟩

/-- Replace the ring of slot `i`. -/
def RingTable.setRing (rings : RingTable) (i : Fin maxRings) (r : Ring) : RingTable :=
  Function.update rings i { rings i with ring := r }

/-- `ring_lookup`; the ring returned is the one of slot `i`.  Objects of type
    `SCDK_OBJ_RING` are made by `scdk_ring_create` only, with a ring slot as
    payload. -/
def ringLookup (o : ObjectTable) (c : CapTable) (rings : RingTable) (cap requiredRights : UInt64) :
    Except Err (Fin maxRings) :=
  match capCheck o c cap requiredRights ObjType.ring with
  | .error e => .error e
  | .ok entry =>
    match objectLookup o entry.objectId with
    | .error e => .error e
    | .ok object =>
      match object.payload with
      | .ring i => if (rings i).objectId ≠ entry.objectId then .error .noent else .ok i
      | _ => .error .noent

/-- The ring a successful creation starts with: the counters are reset, the
    storage keeps what it held. -/
def Ring.fresh (old : Ring) (entries : UInt32) (boundTarget : UInt64) : Ring where
  entries := entries
  sq := { old.sq with head := 0, tail := 0 }
  cq := { old.cq with head := 0, tail := 0 }
  boundTarget := boundTarget

/-- The rights a ring capability is minted with. -/
def ringRights : UInt64 := Right.read ||| Right.write ||| Right.bind

/-- The body of the loop of `scdk_ring_create` for the free slot `i`. -/
def ringCreateSlot (o : ObjectTable) (c : CapTable) (rings : RingTable) (i : Fin maxRings)
    (ownerCore entries : UInt32) (boundTarget : UInt64) :
    Except Err UInt64 × ObjectTable × CapTable × RingTable :=
  match objectCreate o ObjType.ring ownerCore 0 (.ring i) with
  | (.error e, o) => (.error e, o, c, rings)
  | (.ok objectId, o) =>
    let slot : RingSlot := ⟨objectId, (rings i).ring.fresh entries boundTarget⟩
    match capCreate o c objectId ringRights with
    | (.ok cap, c) => (.ok cap, o, c, Function.update rings i slot)
    | (.error e, c) => (.error e, o, c, Function.update rings i { slot with objectId := 0 })

/-- The loop of `scdk_ring_create`: take the first slot without an object. -/
def ringCreateFirst (o : ObjectTable) (c : CapTable) (rings : RingTable) (ownerCore entries : UInt32)
    (boundTarget : UInt64) : Except Err UInt64 × ObjectTable × CapTable × RingTable :=
  match Slots.firstSlot fun i => (rings i).objectId == 0 with
  | none => (.error .nomem, o, c, rings)
  | some i => ringCreateSlot o c rings i ownerCore entries boundTarget

/-- `scdk_ring_create` -/
def ringCreate (o : ObjectTable) (c : CapTable) (rings : RingTable) (ownerCore entries : UInt32)
    (boundTarget : UInt64) : Except Err UInt64 × ObjectTable × CapTable × RingTable :=
  if entries = 0 ∨ ringMaxEntries < entries.toNat then
    (.error .inval, o, c, rings)
  else if boundTarget ≠ 0 then
    match capCheck o c boundTarget Right.send ObjType.endpoint with
    | .error e => (.error e, o, c, rings)
    | .ok _ => ringCreateFirst o c rings ownerCore entries boundTarget
  else
    ringCreateFirst o c rings ownerCore entries boundTarget

/-- `scdk_ring_bind_target` -/
def ringBindTarget (o : ObjectTable) (c : CapTable) (rings : RingTable) (ring target : UInt64) :
    Except Err Unit × RingTable :=
  if target = 0 then
    (.error .inval, rings)
  else
    match capCheck o c target Right.send ObjType.endpoint with
    | .error e => (.error e, rings)
    | .ok _ =>
      match ringLookup o c rings ring Right.bind with
      | .error e => (.error e, rings)
      | .ok i => (.ok (), rings.setRing i { (rings i).ring with boundTarget := target })

/-- `scdk_ring_bound_target` -/
def ringBoundTarget (o : ObjectTable) (c : CapTable) (rings : RingTable) (ring : UInt64) :
    Except Err UInt64 :=
  match ringLookup o c rings ring Right.read with
  | .error e => .error e
  | .ok i =>
    let target := (rings i).ring.boundTarget
    if target ≠ 0 then
      match capCheck o c target Right.send ObjType.endpoint with
      | .error e => .error e
      | .ok _ => .ok target
    else
      .ok target

/-- The body of `scdk_ring_submit` and `scdk_ring_complete`: append to a queue
    unless it holds `entries` items. -/
def queuePush {α : Type} (entries : UInt32) (q : Circular ringMaxEntries α) (x : α) :
    Except Err (Circular ringMaxEntries α) :=
  if entries ≤ q.count then .error .busy else .ok (q.push entries x)

/-- The body of `scdk_ring_consume` and `scdk_ring_poll`: take the oldest item
    of a queue unless it is empty. -/
def queuePop {α : Type} (entries : UInt32) (q : Circular ringMaxEntries α) :
    Except Err (α × Circular ringMaxEntries α) :=
  if q.head = q.tail then .error .noent else .ok (q.front entries, q.pop)

/-- `scdk_ring_submit` -/
def ringSubmit (o : ObjectTable) (c : CapTable) (rings : RingTable) (ring : UInt64)
    (desc : RingDesc) : Except Err Unit × RingTable :=
  match ringLookup o c rings ring Right.write with
  | .error e => (.error e, rings)
  | .ok i =>
    let target := (rings i).ring
    match queuePush target.entries target.sq desc with
    | .error e => (.error e, rings)
    | .ok sq => (.ok (), rings.setRing i { target with sq := sq })

/-- `scdk_ring_consume` -/
def ringConsume (o : ObjectTable) (c : CapTable) (rings : RingTable) (ring : UInt64) :
    Except Err RingDesc × RingTable :=
  match ringLookup o c rings ring Right.read with
  | .error e => (.error e, rings)
  | .ok i =>
    let target := (rings i).ring
    match queuePop target.entries target.sq with
    | .error e => (.error e, rings)
    | .ok (desc, sq) => (.ok desc, rings.setRing i { target with sq := sq })

/-- `scdk_ring_complete` -/
def ringComplete (o : ObjectTable) (c : CapTable) (rings : RingTable) (ring : UInt64)
    (completion : Completion) : Except Err Unit × RingTable :=
  match ringLookup o c rings ring Right.write with
  | .error e => (.error e, rings)
  | .ok i =>
    let target := (rings i).ring
    match queuePush target.entries target.cq completion with
    | .error e => (.error e, rings)
    | .ok cq => (.ok (), rings.setRing i { target with cq := cq })

/-- `scdk_ring_poll` -/
def ringPoll (o : ObjectTable) (c : CapTable) (rings : RingTable) (ring : UInt64) :
    Except Err Completion × RingTable :=
  match ringLookup o c rings ring Right.read with
  | .error e => (.error e, rings)
  | .ok i =>
    let target := (rings i).ring
    match queuePop target.entries target.cq with
    | .error e => (.error e, rings)
    | .ok (completion, cq) => (.ok completion, rings.setRing i { target with cq := cq })

/-! ## Ring slots -/

section slots

variable (rings : RingTable) (i : Fin maxRings) (r : Ring)

@[simp] theorem RingTable.setRing_ring_self : (rings.setRing i r i).ring = r := by
  simp [RingTable.setRing]

@[simp] theorem RingTable.setRing_ne {j : Fin maxRings} (h : j ≠ i) :
    rings.setRing i r j = rings j := by
  simp [RingTable.setRing, h]

@[simp] theorem RingTable.setRing_objectId (j : Fin maxRings) :
    (rings.setRing i r j).objectId = (rings j).objectId := by
  by_cases h : j = i
  · subst h
    simp [RingTable.setRing]
  · simp [h]

end slots

/-! ## Which ring a token names -/

/-- `r` is a live token that carries all ring rights for the object of slot `i`. -/
structure NamesRing (o : ObjectTable) (c : CapTable) (rings : RingTable) (r : UInt64)
    (i : Fin maxRings) : Prop where
  lookup : ∃ entry, capLookup o c r = .ok entry ∧ entry.objectId = (rings i).objectId ∧
    entry.objectType = ObjType.ring ∧ entry.rights = ringRights
  object : ∃ object, objectLookup o (rings i).objectId = .ok object ∧ object.payload = .ring i
  objectId : (rings i).objectId ≠ 0

/-- Whatever right the ring code asks for, the token leads to its slot. -/
theorem NamesRing.ringLookup {o : ObjectTable} {c : CapTable} {rings : RingTable} {r : UInt64}
    {i : Fin maxRings} (h : NamesRing o c rings r i) {right : UInt64} (h0 : right ≠ 0)
    (hr : ringRights &&& right = right) : ringLookup o c rings r right = .ok i := by
  obtain ⟨entry, hl, hid, hty, hrights⟩ := h.lookup
  obtain ⟨object, hob, hpay⟩ := h.object
  have hcheck : capCheck o c r right ObjType.ring = .ok entry := by
    rw [capCheck_eq_ok_iff_lookup]
    refine ⟨h0, hl, .inr hty, ?_⟩
    rw [hrights]
    exact hr
  unfold Scdk.ringLookup
  rw [hcheck]
  dsimp only
  rw [hid, hob]
  dsimp only
  rw [hpay]
  simp

theorem NamesRing.read {o : ObjectTable} {c : CapTable} {rings : RingTable} {r : UInt64}
    {i : Fin maxRings} (h : NamesRing o c rings r i) :
    Scdk.ringLookup o c rings r Right.read = .ok i :=
  h.ringLookup (by decide) (by decide)

theorem NamesRing.write {o : ObjectTable} {c : CapTable} {rings : RingTable} {r : UInt64}
    {i : Fin maxRings} (h : NamesRing o c rings r i) :
    Scdk.ringLookup o c rings r Right.write = .ok i :=
  h.ringLookup (by decide) (by decide)

/-- A token names at most one slot. -/
theorem NamesRing.unique {o : ObjectTable} {c : CapTable} {rings : RingTable} {r : UInt64}
    {i j : Fin maxRings} (hi : NamesRing o c rings r i) (hj : NamesRing o c rings r j) : i = j := by
  exact Except.ok.inj (hi.read.symm.trans hj.read)

/-- Queue operations do not change which slot a token names. -/
theorem NamesRing.setRing {o : ObjectTable} {c : CapTable} {rings : RingTable} {r : UInt64}
    {i : Fin maxRings} (h : NamesRing o c rings r i) (j : Fin maxRings) (ring : Ring) :
    NamesRing o c (rings.setRing j ring) r i where
  lookup := by
    rw [RingTable.setRing_objectId]
    exact h.lookup
  object := by
    rw [RingTable.setRing_objectId]
    exact h.object
  objectId := by
    rw [RingTable.setRing_objectId]
    exact h.objectId

/-! ## Queue operations on the ring a token names -/

section named

variable {o : ObjectTable} {c : CapTable} {rings : RingTable} {r : UInt64} {i : Fin maxRings}

theorem ringSubmit_eq (h : NamesRing o c rings r i) (desc : RingDesc) :
    ringSubmit o c rings r desc =
      match queuePush (rings i).ring.entries (rings i).ring.sq desc with
      | .error e => (.error e, rings)
      | .ok sq => (.ok (), rings.setRing i { (rings i).ring with sq := sq }) := by
  unfold ringSubmit
  rw [h.write]

theorem ringConsume_eq (h : NamesRing o c rings r i) :
    ringConsume o c rings r =
      match queuePop (rings i).ring.entries (rings i).ring.sq with
      | .error e => (.error e, rings)
      | .ok (desc, sq) => (.ok desc, rings.setRing i { (rings i).ring with sq := sq }) := by
  unfold ringConsume
  rw [h.read]

theorem ringComplete_eq (h : NamesRing o c rings r i) (completion : Completion) :
    ringComplete o c rings r completion =
      match queuePush (rings i).ring.entries (rings i).ring.cq completion with
      | .error e => (.error e, rings)
      | .ok cq => (.ok (), rings.setRing i { (rings i).ring with cq := cq }) := by
  unfold ringComplete
  rw [h.write]

theorem ringPoll_eq (h : NamesRing o c rings r i) :
    ringPoll o c rings r =
      match queuePop (rings i).ring.entries (rings i).ring.cq with
      | .error e => (.error e, rings)
      | .ok (completion, cq) =>
        (.ok completion, rings.setRing i { (rings i).ring with cq := cq }) := by
  unfold ringPoll
  rw [h.read]

end named

/-! ## One queue as a bounded FIFO -/

section queue

variable {α : Type} {entries : UInt32} {q : Circular ringMaxEntries α}

theorem queuePush_full (h : q.count.toNat = entries.toNat) (x : α) :
    queuePush entries q x = .error .busy := by
  unfold queuePush
  rw [if_pos]
  rw [UInt32.le_iff_toNat_le]
  omega

theorem queuePush_room (h : q.count.toNat < entries.toNat) (x : α) :
    queuePush entries q x = .ok (q.push entries x) := by
  unfold queuePush
  rw [if_neg]
  rw [UInt32.le_iff_toNat_le]
  omega

/-- A push that succeeds found room. -/
theorem queuePush_eq_ok {q' : Circular ringMaxEntries α} {x : α}
    (h : queuePush entries q x = .ok q') :
    q.count.toNat < entries.toNat ∧ q' = q.push entries x := by
  unfold queuePush at h
  split at h
  · cases h
  · next hroom =>
    rw [UInt32.le_iff_toNat_le, Nat.not_le] at hroom
    exact ⟨hroom, (Except.ok.inj h).symm⟩

theorem queuePop_empty (h : q.head = q.tail) : queuePop entries q = .error .noent := by
  unfold queuePop
  rw [if_pos h]

theorem queuePop_nonempty (h : q.head ≠ q.tail) :
    queuePop entries q = .ok (q.front entries, q.pop) := by
  unfold queuePop
  rw [if_neg h]

/-- A queue with items gives the first of them, and keeps the others. -/
theorem queuePop_cons {x : α} {rest : List α} (h : q.items entries = x :: rest) :
    queuePop entries q = .ok (x, q.pop) ∧ q.pop.items entries = rest := by
  have hne : q.head ≠ q.tail := by
    intro heq
    rw [Circular.items_eq_nil.mpr heq] at h
    cases h
  rw [Circular.items_pop entries hne] at h
  obtain ⟨rfl, rfl⟩ := List.cons.inj h
  exact ⟨queuePop_nonempty hne, rfl⟩

/-- A pop that succeeds found an item. -/
theorem queuePop_eq_ok {q' : Circular ringMaxEntries α} {x : α}
    (h : queuePop entries q = .ok (x, q')) :
    q.head ≠ q.tail ∧ x = q.front entries ∧ q' = q.pop := by
  unfold queuePop at h
  split at h
  · cases h
  · next hne =>
    obtain ⟨hx, hq⟩ := Prod.mk.inj (Except.ok.inj h)
    exact ⟨hne, hx.symm, hq.symm⟩

end queue

/-! ## Creating a ring -/

/-- What the loop body of `ringCreate` can do with the free slot `i`: fail to
    make the object, make an object but no token for it, or make both. -/
theorem ringCreateSlot_cases (o : ObjectTable) (c : CapTable) (rings : RingTable)
    (i : Fin maxRings) (ownerCore entries : UInt32) (boundTarget : UInt64) :
    (∃ e, ringCreateSlot o c rings i ownerCore entries boundTarget = (.error e, o, c, rings)) ∨
    (∃ e, ringCreateSlot o c rings i ownerCore entries boundTarget =
      (.error e, (objectCreate o ObjType.ring ownerCore 0 (.ring i)).2, c,
        Function.update rings i ⟨0, (rings i).ring.fresh entries boundTarget⟩)) ∨
    ∃ id o' k object, objectCreate o ObjType.ring ownerCore 0 (.ring i) = (.ok id, o') ∧
      objectLookup o' id = .ok object ∧ c.occupied k = false ∧
      ringCreateSlot o c rings i ownerCore entries boundTarget =
        (.ok ((c.mintSlot k object ringRights).token k), o', c.mintSlot k object ringRights,
          Function.update rings i ⟨id, (rings i).ring.fresh entries boundTarget⟩) := by
  unfold ringCreateSlot
  rcases objectCreate_cases o ObjType.ring ownerCore 0 (.ring i) with
    ⟨e, hob⟩ | ⟨_, id, _, _, _, hob⟩
  · rw [hob]
    exact .inl ⟨e, rfl⟩
  · rw [hob]
    dsimp only
    rcases capCreate_cases _ c id ringRights with ⟨e, hcap⟩ | ⟨k, object, _, hl, hfree, hcap⟩
    · rw [hcap]
      exact .inr (.inl ⟨e, rfl⟩)
    · rw [hcap]
      exact .inr (.inr ⟨id, _, k, object, rfl, hl, hfree, rfl⟩)

/-- What `ringCreate` can do: refuse and change nothing, or run the loop body
    on a slot without an object. -/
theorem ringCreate_cases (o : ObjectTable) (c : CapTable) (rings : RingTable)
    (ownerCore entries : UInt32) (boundTarget : UInt64) :
    (∃ e, ringCreate o c rings ownerCore entries boundTarget = (.error e, o, c, rings)) ∨
    ∃ i, 0 < entries.toNat ∧ entries.toNat ≤ ringMaxEntries ∧ (rings i).objectId = 0 ∧
      ringCreate o c rings ownerCore entries boundTarget =
        ringCreateSlot o c rings i ownerCore entries boundTarget := by
  -- Past the argument checks only the search for a slot is left.
  have hfirst : (∃ e, ringCreateFirst o c rings ownerCore entries boundTarget =
        (.error e, o, c, rings)) ∨
      ∃ i, (rings i).objectId = 0 ∧ ringCreateFirst o c rings ownerCore entries boundTarget =
        ringCreateSlot o c rings i ownerCore entries boundTarget := by
    unfold ringCreateFirst
    cases hfind : Slots.firstSlot fun i => (rings i).objectId == 0 with
    | none => exact .inl ⟨_, rfl⟩
    | some i =>
      have hfree := (Slots.firstSlot_eq_some hfind).1
      rw [beq_iff_eq] at hfree
      exact .inr ⟨i, hfree, rfl⟩
  unfold ringCreate
  split
  · exact .inl ⟨_, rfl⟩
  · next hargs =>
    rw [not_or, Nat.not_lt] at hargs
    have hpos : 0 < entries.toNat := by
      apply Nat.pos_of_ne_zero
      intro h0
      exact hargs.1 (UInt32.toNat_inj.mp h0)
    have hdone : ∀ r, r = ringCreateFirst o c rings ownerCore entries boundTarget →
        (∃ e, r = (.error e, o, c, rings)) ∨
        ∃ i, 0 < entries.toNat ∧ entries.toNat ≤ ringMaxEntries ∧ (rings i).objectId = 0 ∧
          r = ringCreateSlot o c rings i ownerCore entries boundTarget := by
      rintro r rfl
      rcases hfirst with h | ⟨i, hi, h⟩
      · exact .inl h
      · exact .inr ⟨i, hpos, hargs.2, hi, h⟩
    split
    · split
      · exact .inl ⟨_, rfl⟩
      · exact hdone _ rfl
    · exact hdone _ rfl

end Scdk
