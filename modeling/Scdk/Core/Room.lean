import Scdk.Core.Capability

/-! # The room in the two tables

    How many objects and how many tokens can still be made.  Objects are never
    removed, so the room for them only gets less; a token gives its slot back when
    it is revoked.

    * `objectCreate_room`, `capCreate_room`: with room, a creation succeeds and
      takes one slot,
    * `NewObject`: an object that was made with a token, and the room it took,
    * `objectWithCap`: an object and a token for it, the end of every function that
      creates something. -/

namespace Scdk

/-- The number of objects that can still be made. -/
def ObjectTable.room (o : ObjectTable) : Nat :=
  Slots.count fun i => (o.object i).type == ObjType.none

/-- The number of tokens that can still be minted. -/
def CapTable.room (c : CapTable) : Nat := Slots.count fun i => !c.occupied i

section create

variable {o : ObjectTable} {c : CapTable} {type ownerCore flags : UInt32} {payload : Payload}
  {objectId rights : UInt64} {object : Object}

/-- `scdk_object_create` refuses, and nothing was done. -/
theorem objectCreate_refused (h : maxCores ≤ ownerCore ∨ o.room = 0) :
    ∃ e, objectCreate o type ownerCore flags payload = (.error e, o) := by
  unfold objectCreate
  by_cases hargs : type = ObjType.none ∨ maxCores ≤ ownerCore
  · exact ⟨.inval, if_pos hargs⟩
  · refine ⟨.nomem, ?_⟩
    have hroom := h.resolve_left fun hcore => hargs (.inr hcore)
    rw [if_neg hargs, Slots.firstSlot_of_count_eq_zero hroom]

/-- With room, an object is made and is found with its id. -/
theorem objectCreate_room (htype : type ≠ ObjType.none) (hcore : ¬ maxCores ≤ ownerCore)
    (hroom : 0 < o.room) : ∃ id o' generation,
      objectCreate o type ownerCore flags payload = (.ok id, o') ∧
      objectLookup o' id = .ok ⟨id, type, generation, ownerCore, flags, payload⟩ ∧
      o'.room + 1 = o.room := by
  obtain ⟨i, hfind⟩ := Slots.firstSlot_of_count hroom
  have hfree := (Slots.firstSlot_eq_some hfind).1
  unfold objectCreate
  rw [if_neg (not_or.mpr ⟨htype, hcore⟩), hfind]
  refine ⟨_, _, Handle.bump (o.generations i), rfl, ?_, ?_⟩
  · have hslot := @objectLookup_slot
      { object := Function.update o.object i ⟨objectMakeId (Handle.slotWord i) (Handle.bump (o.generations i)),
          type, Handle.bump (o.generations i), ownerCore, flags, payload⟩
        generations := Function.update o.generations i (Handle.bump (o.generations i)) } i
    simp only [Function.update_self] at hslot
    exact hslot htype trivial (Handle.bump_ne_zero _)
  · apply Slots.count_take hfree
    · simpa using htype
    · intro j hj
      simp [hj]

theorem capCreate_full (hrights : rights ≠ 0) (hobject : objectLookup o objectId = .ok object)
    (hroom : c.room = 0) : capCreate o c objectId rights = (.error .nomem, c) := by
  unfold capCreate capCreateSlot
  rw [if_neg hrights, hobject, Slots.firstSlot_of_count_eq_zero hroom]

/-- With room, a token is minted for an object. -/
theorem capCreate_room (hrights : rights ≠ 0) (hobject : objectLookup o objectId = .ok object)
    (hroom : 0 < c.room) : ∃ t c', capCreate o c objectId rights = (.ok t, c') ∧
      c'.room + 1 = c.room := by
  obtain ⟨i, hfind⟩ := Slots.firstSlot_of_count hroom
  have hfree := (Slots.firstSlot_eq_some hfind).1
  obtain ⟨_, _, _, hid, hne⟩ := objectLookup_some hobject
  unfold capCreate capCreateSlot
  rw [if_neg hrights, hobject, hfind]
  refine ⟨_, _, rfl, ?_⟩
  apply Slots.count_take hfree
  · simp [CapTable.occupied, hid, hne]
  · intro j hj
    simp [CapTable.occupied, hj]

/-- The token that was minted is accepted. -/
theorem capLookup_created {t : UInt64} {c' : CapTable}
    (hobject : objectLookup o objectId = .ok object)
    (h : capCreate o c objectId rights = (.ok t, c')) :
    capLookup o c' t = .ok ⟨objectId, object.generation, object.type, 0, rights⟩ := by
  obtain ⟨_, _, _, hid, hne⟩ := objectLookup_some hobject
  rcases capCreate_cases o c objectId rights with ⟨e, heq⟩ | ⟨j, object', _, hobject', _, heq⟩
  · rw [heq] at h
    cases h
  · rw [heq] at h
    obtain ⟨ht, rfl⟩ := Prod.mk.inj h
    obtain rfl := Except.ok.inj ht
    obtain rfl := Except.ok.inj (hobject.symm.trans hobject')
    have hvalid := @validateCapSlot_token (c.mintSlot j object rights) j
      (by simp [CapTable.occupied, hid, hne]) (by simpa using Handle.bump_ne_zero _)
    unfold capLookup
    rw [hvalid, CapTable.mintSlot_entry_self]
    simp [hid, hobject]

/-- The object `id` is new, and `t` is a token for it. -/
structure NewObject (type ownerCore : UInt32) (payload : Payload) (rights : UInt64) (o : ObjectTable)
    (c : CapTable) (id t : UInt64) (o' : ObjectTable) (c' : CapTable) : Prop where
  object : objectCreate o type ownerCore 0 payload = (.ok id, o')
  cap : capCreate o' c id rights = (.ok t, c')
  found : ∃ generation, objectLookup o' id = .ok ⟨id, type, generation, ownerCore, 0, payload⟩ ∧
    capLookup o' c' t = .ok ⟨id, generation, type, 0, rights⟩
  objectRoom : o'.room + 1 = o.room
  capRoom : c'.room + 1 = c.room

/-- With room in both tables there is a new object with a token. -/
theorem newObject_room (htype : type ≠ ObjType.none) (hrights : rights ≠ 0)
    (hcore : ¬ maxCores ≤ ownerCore) (ho : 0 < o.room) (hc : 0 < c.room) :
    ∃ id t o' c', NewObject type ownerCore payload rights o c id t o' c' := by
  obtain ⟨id, o', generation, hcreate, hobject, hroom⟩ :=
    @objectCreate_room o type ownerCore 0 payload htype hcore ho
  obtain ⟨t, c', hcap, hroom'⟩ := capCreate_room hrights hobject hc
  exact ⟨id, t, o', c', hcreate, hcap, ⟨generation, hobject, capLookup_created hobject hcap⟩, hroom,
    hroom'⟩

section newObject

variable {id t : UInt64} {o' : ObjectTable} {c' : CapTable}

/-- An object that could be made with its token is new. -/
theorem NewObject.of_created (hobject : objectCreate o type ownerCore 0 payload = (.ok id, o'))
    (hcap : capCreate o' c id rights = (.ok t, c')) :
    NewObject type ownerCore payload rights o c id t o' c' := by
  have htype : type ≠ ObjType.none := by
    rintro rfl
    unfold objectCreate at hobject
    rw [if_pos (.inl rfl)] at hobject
    cases hobject
  have hargs : ¬ (maxCores ≤ ownerCore ∨ o.room = 0) := by
    intro hargs
    obtain ⟨e, hrefused⟩ := @objectCreate_refused o type ownerCore 0 payload hargs
    rw [hrefused] at hobject
    cases hobject
  rw [not_or] at hargs
  obtain ⟨id', o₁, generation, hcreate, hlookup, hroom⟩ :=
    @objectCreate_room o type ownerCore 0 payload htype hargs.1 (Nat.pos_of_ne_zero hargs.2)
  obtain ⟨hid, rfl⟩ := Prod.mk.inj (hcreate.symm.trans hobject)
  obtain rfl := Except.ok.inj hid
  have hrights : rights ≠ 0 := by
    rintro rfl
    cases hcap
  have hfree : 0 < c.room := by
    apply Nat.pos_of_ne_zero
    intro hfull
    rw [capCreate_full hrights hlookup hfull] at hcap
    cases hcap
  obtain ⟨t', c₁, hmint, hroom'⟩ := capCreate_room hrights hlookup hfree
  obtain ⟨_, rfl⟩ := Prod.mk.inj (hmint.symm.trans hcap)
  exact ⟨hobject, hcap, ⟨generation, hlookup, capLookup_created hlookup hcap⟩, hroom, hroom'⟩

variable (h : NewObject type ownerCore payload rights o c id t o' c')

include h

/-- The token passes every check for some of its rights. -/
theorem NewObject.check {r : UInt64} (hr : r ≠ 0) (hsub : rights &&& r = r) :
    ∃ entry, capCheck o' c' t r type = .ok entry ∧ entry.objectId = id := by
  obtain ⟨generation, _, hlookup⟩ := h.found
  exact ⟨_, capCheck_eq_ok_iff_lookup.mpr ⟨hr, hlookup, .inr rfl, hsub⟩, rfl⟩

/-- A lookup through the token comes to the payload. -/
theorem NewObject.lookup {α : Type} {r : UInt64} (hr : r ≠ 0) (hsub : rights &&& r = r)
    (test : Payload → UInt64 → Except Err α) : payloadLookup o' c' t r type test = test payload id := by
  obtain ⟨generation, hobject, _⟩ := h.found
  obtain ⟨entry, hcheck, rfl⟩ := h.check hr hsub
  unfold payloadLookup
  rw [hcheck]
  dsimp only
  rw [hobject]

end newObject

/-- Make an object and mint a token for it. -/
def objectWithCap (o : ObjectTable) (c : CapTable) (type ownerCore : UInt32) (payload : Payload)
    (rights : UInt64) : Except Err UInt64 × ObjectTable × CapTable :=
  match objectCreate o type ownerCore 0 payload with
  | (.error e, o) => (.error e, o, c)
  | (.ok objectId, o) =>
    let (r, c) := capCreate o c objectId rights
    (r, o, c)

theorem objectWithCap_refused (h : maxCores ≤ ownerCore ∨ o.room = 0) :
    ∃ e, objectWithCap o c type ownerCore payload rights = (.error e, o, c) := by
  obtain ⟨e, hcreate⟩ := @objectCreate_refused o type ownerCore 0 payload h
  refine ⟨e, ?_⟩
  unfold objectWithCap
  simp only [hcreate]

/-- There is no slot for the token, and the object stays. -/
theorem objectWithCap_full (htype : type ≠ ObjType.none) (hrights : rights ≠ 0)
    (hcore : ¬ maxCores ≤ ownerCore) (ho : 0 < o.room) (hc : c.room = 0) :
    ∃ o', objectWithCap o c type ownerCore payload rights = (.error .nomem, o', c) ∧
      o'.room + 1 = o.room := by
  obtain ⟨id, o', _, hcreate, hobject, hroom⟩ :=
    @objectCreate_room o type ownerCore 0 payload htype hcore ho
  refine ⟨o', ?_, hroom⟩
  unfold objectWithCap
  simp only [hcreate, capCreate_full hrights hobject hc]

/-- With room in both tables there is a new object with a token. -/
theorem objectWithCap_room (htype : type ≠ ObjType.none) (hrights : rights ≠ 0)
    (hcore : ¬ maxCores ≤ ownerCore) (ho : 0 < o.room) (hc : 0 < c.room) :
    ∃ t o' c', objectWithCap o c type ownerCore payload rights = (.ok t, o', c') ∧
      o'.room + 1 = o.room ∧ c'.room + 1 = c.room := by
  obtain ⟨id, t, o', c', hnew⟩ := @newObject_room o c type ownerCore payload rights htype hrights hcore
    ho hc
  refine ⟨t, o', c', ?_, hnew.objectRoom, hnew.capRoom⟩
  unfold objectWithCap
  simp only [hnew.object, hnew.cap]

end create

end Scdk
