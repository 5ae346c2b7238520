import Scdk.Basic
import Scdk.Lib.Slots

/-! # The object table

    Model of `core/object.c`: a fixed table of object metadata, whose slots are
    taken first fit and never given back, and the lookup of an object by its
    id.

    The well-formedness invariant `ObjectTable.Wf` says that an occupied slot
    holds the id that names it, so that a lookup finds exactly the objects of
    the table (`objectLookup_eq_ok`). -/

namespace Scdk

/-! ## Model -/

/-- What the `void *payload` of an object points to: a slot of one of the
    static tables of the kernel, or a heap block holding an address space. -/
inductive Payload where
  | null
  | endpoint (i : Fin maxEndpoints)
  | ring (i : Fin maxRings)
  | grant (i : Fin maxGrants)
  | userGrant (i : Fin maxUserGrants)
  | task (i : Fin maxTasks)
  | thread (i : Fin maxThreads)
  | addressSpace (block : Nat)
  | file (i : Fin tmpfsMaxOpenFiles)
  | device (i : Fin devmgrMaxDevices)
  | deviceQueue (i : Fin devmgrMaxQueues)
  deriving DecidableEq, Repr

/-- `struct scdk_object` -/
structure Object where
  id : UInt64
  type : UInt32
  generation : UInt32
  ownerCore : UInt32
  flags : UInt32
  payload : Payload
  deriving DecidableEq, Repr

/-- The statics `object_table` and `object_generations`. -/
structure ObjectTable where
  object : Fin maxObjects → Object
  generations : Fin maxObjects → UInt32

/-- The zeroed tables. -/
def ObjectTable.zero : ObjectTable where
  object := fun _ => ⟨0, 0, 0, 0, 0, .null⟩
  generations := fun _ => 0

/-- `object_make_id` -/
def objectMakeId : UInt32 → UInt32 → UInt64 := Handle.pack

/-- `object_id_index` -/
def objectIdIndex : UInt64 → UInt32 := Handle.index

/-- `object_id_generation` -/
def objectIdGeneration : UInt64 → UInt32 := Handle.generation

/-- `next_generation` -/
def nextGeneration : (Fin maxObjects → UInt32) → Fin maxObjects →
    UInt32 × (Fin maxObjects → UInt32) := Handle.next

/-- `scdk_object_create` -/
def objectCreate (t : ObjectTable) (type ownerCore flags : UInt32) (payload : Payload) :
    Except Err UInt64 × ObjectTable :=
  if type = ObjType.none ∨ maxCores ≤ ownerCore then
    (.error .inval, t)
  else
    match Slots.firstSlot fun i => (t.object i).type == ObjType.none with
    | none => (.error .nomem, t)
    | some i =>
      let (generation, generations) := nextGeneration t.generations i
      let id := objectMakeId (Handle.slotWord i) generation
      (.ok id,
        { object := Function.update t.object i ⟨id, type, generation, ownerCore, flags, payload⟩
          generations := generations })

/-- `scdk_object_lookup` -/
def objectLookup (t : ObjectTable) (id : UInt64) : Except Err Object :=
  if id = 0 then
    .error .inval
  else
    let index := objectIdIndex id
    let generation := objectIdGeneration id
    if h : index.toNat < maxObjects ∧ generation ≠ 0 then
      let object := t.object ⟨index.toNat, h.1⟩
      if object.type = ObjType.none ∨ object.generation ≠ generation ∨ object.id ≠ id then
        .error .noent
      else
        .ok object
    else
      .error .noent

/-! ## Well-formedness -/

/-- Every occupied slot holds the id that names it. -/
def ObjectTable.Wf (t : ObjectTable) : Prop :=
  ∀ i, (t.object i).type ≠ ObjType.none →
    (t.object i).id = objectMakeId (Handle.slotWord i) (t.object i).generation ∧
    (t.object i).generation ≠ 0

theorem ObjectTable.wf_zero : ObjectTable.zero.Wf := by
  intro i hi
  exact absurd rfl hi

theorem ObjectTable.Wf.id_ne_zero {t : ObjectTable} (h : t.Wf) {i : Fin maxObjects}
    (hi : (t.object i).type ≠ ObjType.none) : (t.object i).id ≠ 0 := by
  rw [(h i hi).1]
  exact Handle.pack_ne_zero (h i hi).2

theorem objectIdIndex_makeId (i : Fin maxObjects) (g : UInt32) :
    (objectIdIndex (objectMakeId (Handle.slotWord i) g)).toNat = i.val := by
  rw [objectIdIndex, objectMakeId, Handle.index_pack, Handle.toNat_slotWord (by decide)]

/-- A slot that holds the id that names it is found with that id. -/
theorem objectLookup_slot {t : ObjectTable} {i : Fin maxObjects}
    (htype : (t.object i).type ≠ ObjType.none)
    (hid : (t.object i).id = objectMakeId (Handle.slotWord i) (t.object i).generation)
    (hgen : (t.object i).generation ≠ 0) : objectLookup t (t.object i).id = .ok (t.object i) := by
  have hne : (t.object i).id ≠ 0 := by
    rw [hid]
    exact Handle.pack_ne_zero hgen
  have hindex : (objectIdIndex (t.object i).id).toNat = i.val := by
    rw [hid, objectIdIndex_makeId]
  have hgeneration : objectIdGeneration (t.object i).id = (t.object i).generation := by
    rw [hid, objectIdGeneration, objectMakeId, Handle.generation_pack]
  have hslot : (⟨(objectIdIndex (t.object i).id).toNat, by omega⟩ : Fin maxObjects) = i :=
    Fin.ext hindex
  have hlt : (objectIdIndex (t.object i).id).toNat < maxObjects ∧
      objectIdGeneration (t.object i).id ≠ 0 := ⟨by omega, by rw [hgeneration]; exact hgen⟩
  simp only [objectLookup, if_neg hne]
  rw [dif_pos hlt, if_neg (by simp [hslot, hgeneration, htype]), hslot]

/-- A lookup returns an object with the id that was asked for. -/
theorem objectLookup_some {t : ObjectTable} {id : UInt64} {o : Object}
    (h : objectLookup t id = .ok o) :
    ∃ i, t.object i = o ∧ o.type ≠ ObjType.none ∧ o.id = id ∧ id ≠ 0 := by
  simp only [objectLookup] at h
  split at h
  · cases h
  next hne =>
  split at h
  · split at h
    · cases h
    · next htests =>
      rw [not_or, not_or, not_not, not_not] at htests
      obtain rfl : _ = o := Except.ok.inj h
      exact ⟨_, rfl, htests.1, htests.2.2, hne⟩
  · cases h

/-- A lookup succeeds exactly on the ids of occupied slots. -/
theorem objectLookup_eq_ok {t : ObjectTable} (h : t.Wf) {id : UInt64} {o : Object} :
    objectLookup t id = .ok o ↔ ∃ i, t.object i = o ∧ o.type ≠ ObjType.none ∧ o.id = id := by
  constructor
  · intro hl
    obtain ⟨i, hi, htype, hid, _⟩ := objectLookup_some hl
    exact ⟨i, hi, htype, hid⟩
  · rintro ⟨i, rfl, htype, rfl⟩
    exact objectLookup_slot htype (h i htype).1 (h i htype).2

/-! ## Creating an object -/

/-- What `objectCreate` can do: refuse and leave the table alone, or fill one
    free slot. -/
theorem objectCreate_cases (t : ObjectTable) (type ownerCore flags : UInt32) (payload : Payload) :
    (∃ e, objectCreate t type ownerCore flags payload = (.error e, t)) ∨
    ∃ i id, type ≠ ObjType.none ∧ (t.object i).type = ObjType.none ∧
      id = objectMakeId (Handle.slotWord i) (Handle.bump (t.generations i)) ∧
      objectCreate t type ownerCore flags payload =
        (.ok id,
          { object := Function.update t.object i
              ⟨id, type, Handle.bump (t.generations i), ownerCore, flags, payload⟩
            generations :=
              Function.update t.generations i (Handle.bump (t.generations i)) }) := by
  unfold objectCreate
  split
  · exact .inl ⟨_, rfl⟩
  · next hargs =>
    rw [not_or] at hargs
    split
    · exact .inl ⟨_, rfl⟩
    · next i hfind =>
      have hfree := (Slots.firstSlot_eq_some hfind).1
      rw [beq_iff_eq] at hfree
      exact .inr ⟨i, _, hargs.1, hfree, rfl, rfl⟩

theorem objectCreate_wf {t : ObjectTable} (h : t.Wf) (type ownerCore flags : UInt32)
    (payload : Payload) : (objectCreate t type ownerCore flags payload).2.Wf := by
  obtain ⟨e, heq⟩ | ⟨i, id, htype, hfree, hid, heq⟩ :=
    objectCreate_cases t type ownerCore flags payload
  · rw [heq]; exact h
  · rw [heq]
    intro j hj
    by_cases hji : j = i
    · subst hji
      simp only [Function.update_self]
      exact ⟨hid, Handle.bump_ne_zero _⟩
    · simp only [Function.update_of_ne hji] at hj ⊢
      exact h j hj

/-- Objects are never removed: a successful lookup stays successful. -/
theorem objectLookup_objectCreate {t : ObjectTable} (h : t.Wf) {id : UInt64} {o : Object}
    (hl : objectLookup t id = .ok o) (type ownerCore flags : UInt32) (payload : Payload) :
    objectLookup (objectCreate t type ownerCore flags payload).2 id = .ok o := by
  rw [objectLookup_eq_ok (objectCreate_wf h type ownerCore flags payload)]
  rw [objectLookup_eq_ok h] at hl
  obtain ⟨j, rfl, htype, hid⟩ := hl
  obtain ⟨e, heq⟩ | ⟨i, id', _, hfree, _, heq⟩ :=
    objectCreate_cases t type ownerCore flags payload
  · exact ⟨j, by rw [heq], htype, hid⟩
  · have hji : j ≠ i := by
      rintro rfl
      exact htype hfree
    exact ⟨j, by rw [heq]; exact Function.update_of_ne hji _ _, htype, hid⟩

/-- The id returned by a successful creation names the object created. -/
theorem objectLookup_of_objectCreate {t t' : ObjectTable} (h : t.Wf) {type ownerCore flags : UInt32}
    {payload : Payload} {id : UInt64}
    (hc : objectCreate t type ownerCore flags payload = (.ok id, t')) :
    ∃ g, objectLookup t' id = .ok ⟨id, type, g, ownerCore, flags, payload⟩ := by
  have hwf := objectCreate_wf h type ownerCore flags payload
  rw [hc] at hwf
  obtain ⟨e, heq⟩ | ⟨i, id', htype, _, _, heq⟩ :=
    objectCreate_cases t type ownerCore flags payload
  · rw [heq] at hc; cases hc
  · rw [heq] at hc
    obtain ⟨hid, rfl⟩ := Prod.mk.inj hc
    obtain rfl := Except.ok.inj hid
    exact ⟨_, (objectLookup_eq_ok hwf).mpr ⟨i, Function.update_self _ _ _, htype, rfl⟩⟩

/-- Ids are unique: the id returned by a creation named no object before. -/
theorem objectLookup_fresh {t t' : ObjectTable} (h : t.Wf) {type ownerCore flags : UInt32}
    {payload : Payload} {id : UInt64}
    (hc : objectCreate t type ownerCore flags payload = (.ok id, t')) (o : Object) :
    objectLookup t id ≠ .ok o := by
  intro hl
  obtain ⟨j, rfl, htype, hid⟩ := (objectLookup_eq_ok h).mp hl
  obtain ⟨e, heq⟩ | ⟨i, id', _, hfree, hid', heq⟩ :=
    objectCreate_cases t type ownerCore flags payload
  · rw [heq] at hc; cases hc
  · rw [heq] at hc
    obtain rfl := Except.ok.inj (Prod.mk.inj hc).1
    have hindex := congrArg (fun x => (objectIdIndex x).toNat) (hid.symm.trans (h j htype).1)
    simp only [hid', objectIdIndex_makeId] at hindex
    obtain rfl := Fin.ext hindex
    exact htype hfree

/-- A creation adds the object it returns and no other. -/
theorem objectLookup_objectCreate_cases {t t' : ObjectTable} (h : t.Wf)
    {type ownerCore flags : UInt32} {payload : Payload} {id : UInt64}
    (hc : objectCreate t type ownerCore flags payload = (.ok id, t')) {id' : UInt64} {o : Object}
    (hl : objectLookup t' id' = .ok o) : id' = id ∨ objectLookup t id' = .ok o := by
  have hwf := objectCreate_wf h type ownerCore flags payload
  rw [hc] at hwf
  obtain ⟨j, hj, htype, hid⟩ := (objectLookup_eq_ok hwf).mp hl
  obtain ⟨e, heq⟩ | ⟨i, id₁, _, hfree, hid₁, heq⟩ :=
    objectCreate_cases t type ownerCore flags payload
  · rw [heq] at hc
    cases hc
  · rw [heq] at hc
    obtain ⟨hok, rfl⟩ := Prod.mk.inj hc
    obtain rfl := Except.ok.inj hok
    by_cases hji : j = i
    · subst hji
      left
      simp only [Function.update_self] at hj
      rw [← hid, ← hj]
    · right
      simp only [Function.update_of_ne hji] at hj
      exact (objectLookup_eq_ok h).mpr ⟨j, hj, htype, hid⟩

end Scdk
