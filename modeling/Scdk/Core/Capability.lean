import Scdk.Core.Object

/-! # The capability table

    Model of `core/capability.c`.  A capability token names a slot of a fixed
    table and a generation of that slot; both minting and revoking advance the
    generation, so that a token stops matching as soon as it is revoked.

    The functions take the object table as a parameter: the capability code
    reads it and never writes it. -/

namespace Scdk

/-! ## Model -/

/-- `struct scdk_cap_entry` -/
structure CapEntry where
  objectId : UInt64
  generation : UInt32
  objectType : UInt32
  revoked : UInt32
  rights : UInt64
  deriving DecidableEq, Repr

/-- The statics `cap_table` and `cap_generations`. -/
structure CapTable where
  entry : Fin maxCaps → CapEntry
  generations : Fin maxCaps → UInt32

/-- The zeroed tables. -/
def CapTable.zero : CapTable where
  entry := fun _ => ⟨0, 0, 0, 0, 0⟩
  generations := fun _ => 0

/-- `cap_make_token` -/
def capMakeToken : UInt32 → UInt32 → UInt64 := Handle.pack

/-- `cap_index` -/
def capIndex : UInt64 → UInt32 := Handle.index

/-- `cap_generation` -/
def capGeneration : UInt64 → UInt32 := Handle.generation

/-- `next_cap_generation` -/
def nextCapGeneration : (Fin maxCaps → UInt32) → Fin maxCaps →
    UInt32 × (Fin maxCaps → UInt32) := Handle.next

/-- A slot holds an unrevoked token. -/
def CapTable.occupied (c : CapTable) (i : Fin maxCaps) : Bool :=
  (c.entry i).objectId != 0 && (c.entry i).revoked == 0

/-- `validate_cap_slot`; the entry returned is the one of slot `cap_index(cap)`. -/
def validateCapSlot (c : CapTable) (cap : UInt64) : Except Err CapEntry :=
  if cap = 0 then
    .error .inval
  else
    let index := capIndex cap
    let generation := capGeneration cap
    if h : index.toNat < maxCaps then
      let i : Fin maxCaps := ⟨index.toNat, h⟩
      if generation = 0 ∨ c.generations i ≠ generation ∨ (c.entry i).objectId = 0 ∨
          (c.entry i).revoked ≠ 0 then
        .error .noent
      else
        .ok (c.entry i)
    else
      .error .noent

/-- The loop of `scdk_cap_create`: mint in the first slot that holds no
    unrevoked token. -/
def capCreateSlot (c : CapTable) (object : Object) (rights : UInt64) :
    Except Err UInt64 × CapTable :=
  match Slots.firstSlot fun i => !c.occupied i with
  | none => (.error .nomem, c)
  | some i =>
    let (capGen, generations) := nextCapGeneration c.generations i
    (.ok (capMakeToken (Handle.slotWord i) capGen),
      { entry := Function.update c.entry i
          { objectId := object.id
            generation := object.generation
            objectType := object.type
            revoked := 0
            rights := rights }
        generations := generations })

/-- `scdk_cap_create` -/
def capCreate (o : ObjectTable) (c : CapTable) (objectId rights : UInt64) :
    Except Err UInt64 × CapTable :=
  if rights = 0 then
    (.error .inval, c)
  else
    match objectLookup o objectId with
    | .error e => (.error e, c)
    | .ok object => capCreateSlot c object rights

/-- `scdk_cap_lookup` -/
def capLookup (o : ObjectTable) (c : CapTable) (cap : UInt64) : Except Err CapEntry :=
  match validateCapSlot c cap with
  | .error e => .error e
  | .ok entry =>
    match objectLookup o entry.objectId with
    | .error e => .error e
    | .ok object =>
      if object.generation ≠ entry.generation ∨ object.type ≠ entry.objectType then
        .error .noent
      else
        .ok entry

/-- `scdk_cap_check` -/
def capCheck (o : ObjectTable) (c : CapTable) (cap requiredRights : UInt64)
    (expectedType : UInt32) : Except Err CapEntry :=
  if requiredRights = 0 then
    .error .inval
  else
    match capLookup o c cap with
    | .error e => .error e
    | .ok entry =>
      if expectedType ≠ ObjType.none ∧ entry.objectType ≠ expectedType then
        .error .perm
      else if entry.rights &&& requiredRights ≠ requiredRights then
        .error .perm
      else
        .ok entry

/-- The table after slot `i` has been revoked. -/
def CapTable.revokeSlot (c : CapTable) (i : Fin maxCaps) : CapTable where
  entry := Function.update c.entry i { c.entry i with revoked := 1 }
  generations := (nextCapGeneration c.generations i).2

/-- `scdk_cap_revoke`, also reached as `scdk_revoke_capability` -/
def capRevoke (o : ObjectTable) (c : CapTable) (cap : UInt64) : Except Err Unit × CapTable :=
  match capLookup o c cap with
  | .error e => (.error e, c)
  | .ok _ =>
    if h : (capIndex cap).toNat < maxCaps then
      (.ok (), c.revokeSlot ⟨(capIndex cap).toNat, h⟩)
    else
      -- Unreachable: the lookup has checked the index.
      (.error .noent, c)

/-! ## Well-formedness -/

/-- The token that slot `i` currently answers to. -/
def CapTable.token (c : CapTable) (i : Fin maxCaps) : UInt64 :=
  capMakeToken (Handle.slotWord i) (c.generations i)

/-- The well-formedness invariant of the object and capability tables: an
    occupied slot has a nonzero generation and nonzero rights, and was minted
    for an object that is still in the object table. -/
structure TablesWf (o : ObjectTable) (c : CapTable) : Prop where
  objects : o.Wf
  generation : ∀ i, c.occupied i = true → c.generations i ≠ 0
  rights : ∀ i, c.occupied i = true → (c.entry i).rights ≠ 0
  object : ∀ i, c.occupied i = true →
    ∃ ob, objectLookup o (c.entry i).objectId = .ok ob ∧
      ob.id = (c.entry i).objectId ∧ ob.generation = (c.entry i).generation ∧
      ob.type = (c.entry i).objectType

theorem CapTable.occupied_iff {c : CapTable} {i : Fin maxCaps} :
    c.occupied i = true ↔ (c.entry i).objectId ≠ 0 ∧ (c.entry i).revoked = 0 := by
  simp [CapTable.occupied]

theorem tablesWf_zero : TablesWf ObjectTable.zero CapTable.zero where
  objects := ObjectTable.wf_zero
  generation := by
    intro i hi
    simp [CapTable.occupied, CapTable.zero] at hi
  rights := by
    intro i hi
    simp [CapTable.occupied, CapTable.zero] at hi
  object := by
    intro i hi
    simp [CapTable.occupied, CapTable.zero] at hi

theorem capIndex_token (c : CapTable) (i : Fin maxCaps) : (capIndex (c.token i)).toNat = i.val := by
  rw [CapTable.token, capIndex, capMakeToken, Handle.index_pack,
    Handle.toNat_slotWord (by decide)]

theorem capGeneration_token (c : CapTable) (i : Fin maxCaps) :
    capGeneration (c.token i) = c.generations i := by
  rw [CapTable.token, capGeneration, capMakeToken, Handle.generation_pack]

/-- Tokens of different slots differ. -/
theorem CapTable.token_injective {c c' : CapTable} {i j : Fin maxCaps}
    (h : c.token i = c'.token j) : i = j := by
  have := congrArg (fun t => (capIndex t).toNat) h
  simp only [capIndex_token] at this
  exact Fin.ext this

/-- A token and the generation of its slot determine each other. -/
theorem CapTable.eq_token {c : CapTable} {t : UInt64} {i : Fin maxCaps}
    (hindex : (capIndex t).toNat = i.val) (hgen : c.generations i = capGeneration t) :
    t = c.token i := by
  have hslot : Handle.slotWord i = capIndex t := by
    apply UInt32.toNat_inj.mp
    rw [Handle.toNat_slotWord (by decide), hindex]
  rw [CapTable.token, hslot, hgen]
  exact (Handle.pack_index_generation t).symm

/-! ## Lookup and check

    On well-formed tables the object side of `capLookup` never fails, so the
    verdict on a token is decided by its slot alone. -/

theorem validateCapSlot_token {c : CapTable} {i : Fin maxCaps} (hocc : c.occupied i = true)
    (hgen : c.generations i ≠ 0) : validateCapSlot c (c.token i) = .ok (c.entry i) := by
  obtain ⟨hid, hrev⟩ := CapTable.occupied_iff.mp hocc
  have hindex := capIndex_token c i
  have hlt : (capIndex (c.token i)).toNat < maxCaps := by omega
  have hslot : (⟨(capIndex (c.token i)).toNat, hlt⟩ : Fin maxCaps) = i := Fin.ext hindex
  have hne : c.token i ≠ 0 := Handle.pack_ne_zero hgen
  simp only [validateCapSlot, if_neg hne]
  rw [dif_pos hlt, hslot, capGeneration_token, if_neg (by simp [hgen, hid, hrev])]

/-- `validateCapSlot` accepts exactly the current tokens of occupied slots. -/
theorem validateCapSlot_eq_ok {o : ObjectTable} {c : CapTable} (h : TablesWf o c)
    {t : UInt64} {e : CapEntry} :
    validateCapSlot c t = .ok e ↔ ∃ i, c.occupied i = true ∧ t = c.token i ∧ e = c.entry i := by
  constructor
  · intro hv
    simp only [validateCapSlot] at hv
    split at hv
    · cases hv
    · split at hv
      · next hlt =>
        split at hv
        · cases hv
        · next hne =>
          rw [not_or, not_or, not_or, not_not, not_not] at hne
          obtain ⟨_, hgen, hid, hrev⟩ := hne
          refine ⟨⟨_, hlt⟩, CapTable.occupied_iff.mpr ⟨hid, hrev⟩, ?_, (Except.ok.inj hv).symm⟩
          exact CapTable.eq_token rfl hgen
      · cases hv
  · rintro ⟨i, hocc, rfl, rfl⟩
    exact validateCapSlot_token hocc (h.generation i hocc)

/-- Every token that is not accepted is refused in one of two ways, which
    depend on the token alone. -/
theorem validateCapSlot_error {c : CapTable} {t : UInt64} {e : Err}
    (h : validateCapSlot c t = .error e) : e = if t = 0 then .inval else .noent := by
  simp only [validateCapSlot] at h
  split at h
  · next h0 => rw [if_pos h0]; exact (Except.error.inj h).symm
  · next h0 =>
    rw [if_neg h0]
    split at h
    · split at h
      · exact (Except.error.inj h).symm
      · cases h
    · exact (Except.error.inj h).symm

theorem capLookup_eq_validateCapSlot {o : ObjectTable} {c : CapTable} (h : TablesWf o c)
    (t : UInt64) : capLookup o c t = validateCapSlot c t := by
  unfold capLookup
  cases hv : validateCapSlot c t with
  | error e => rfl
  | ok entry =>
    obtain ⟨i, hocc, _, rfl⟩ := (validateCapSlot_eq_ok h).mp hv
    obtain ⟨ob, hlook, _, hgen, htype⟩ := h.object i hocc
    simp [hlook, hgen, htype]

/-- A lookup accepts exactly the current tokens of occupied slots. -/
theorem capLookup_eq_ok {o : ObjectTable} {c : CapTable} (h : TablesWf o c)
    {t : UInt64} {e : CapEntry} :
    capLookup o c t = .ok e ↔ ∃ i, c.occupied i = true ∧ t = c.token i ∧ e = c.entry i := by
  rw [capLookup_eq_validateCapSlot h, validateCapSlot_eq_ok h]

/-- The tests `capCheck` makes on the entry it has looked up. -/
def CapEntry.grants (e : CapEntry) (requiredRights : UInt64) (expectedType : UInt32) : Prop :=
  (expectedType = ObjType.none ∨ e.objectType = expectedType) ∧
  e.rights &&& requiredRights = requiredRights

theorem capCheck_eq_ok_iff_lookup {o : ObjectTable} {c : CapTable} {t req : UInt64} {ty : UInt32}
    {e : CapEntry} :
    capCheck o c t req ty = .ok e ↔ req ≠ 0 ∧ capLookup o c t = .ok e ∧ e.grants req ty := by
  unfold capCheck CapEntry.grants
  by_cases hreq : req = 0
  · simp [hreq]
  · rw [if_neg hreq]
    cases capLookup o c t with
    | error e' => simp
    | ok e' =>
      simp only [Except.ok.injEq]
      -- The tests of `scdk_cap_check` in their order: the type, then the rights.
      by_cases hty : ty ≠ ObjType.none ∧ e'.objectType ≠ ty
      · rw [if_pos hty]
        simp only [reduceCtorEq, false_iff, not_and]
        rintro _ rfl hor
        rcases hor with h0 | h1
        · exact absurd h0 hty.1
        · exact absurd h1 hty.2
      · rw [if_neg hty]
        have hor : ty = ObjType.none ∨ e'.objectType = ty := by
          by_cases h0 : ty = ObjType.none
          · exact .inl h0
          · exact .inr (not_not.mp fun h1 => hty ⟨h0, h1⟩)
        by_cases hr : e'.rights &&& req = req
        · rw [if_neg (not_not.mpr hr)]
          constructor
          · intro heq
            obtain rfl := Except.ok.inj heq
            exact ⟨hreq, rfl, hor, hr⟩
          · rintro ⟨_, rfl, _⟩
            rfl
        · rw [if_pos hr]
          simp only [reduceCtorEq, false_iff, not_and]
          rintro _ rfl _
          exact hr

/-- A check accepts exactly the current tokens of occupied slots whose entry
    carries the rights and the type. -/
theorem capCheck_eq_ok {o : ObjectTable} {c : CapTable} (h : TablesWf o c) {t req : UInt64}
    {ty : UInt32} {e : CapEntry} :
    capCheck o c t req ty = .ok e ↔
      req ≠ 0 ∧ ∃ i, c.occupied i = true ∧ t = c.token i ∧ e = c.entry i ∧
        (c.entry i).grants req ty := by
  rw [capCheck_eq_ok_iff_lookup, capLookup_eq_ok h]
  constructor
  · rintro ⟨hreq, ⟨i, hocc, ht, rfl⟩, hgr⟩
    exact ⟨hreq, i, hocc, ht, rfl, hgr⟩
  · rintro ⟨hreq, i, hocc, ht, rfl, hgr⟩
    exact ⟨hreq, ⟨i, hocc, ht, rfl⟩, hgr⟩

/-- The verdict on a token is a function of the lookup of that token. -/
theorem capCheck_congr {o o' : ObjectTable} {c c' : CapTable} {t : UInt64}
    (h : capLookup o c t = capLookup o' c' t) (req : UInt64) (ty : UInt32) :
    capCheck o c t req ty = capCheck o' c' t req ty := by
  unfold capCheck
  rw [h]

/-! ## Creating and revoking -/

/-- The table after a token of `object` with `rights` has been minted in slot `i`. -/
def CapTable.mintSlot (c : CapTable) (i : Fin maxCaps) (object : Object) (rights : UInt64) :
    CapTable where
  entry := Function.update c.entry i ⟨object.id, object.generation, object.type, 0, rights⟩
  generations := Function.update c.generations i (Handle.bump (c.generations i))

/-- The loop either finds every slot taken or mints in a free one. -/
theorem capCreateSlot_cases (c : CapTable) (object : Object) (rights : UInt64) :
    ((∀ i, c.occupied i = true) ∧ capCreateSlot c object rights = (.error .nomem, c)) ∨
    ∃ i, c.occupied i = false ∧ capCreateSlot c object rights =
      (.ok ((c.mintSlot i object rights).token i), c.mintSlot i object rights) := by
  unfold capCreateSlot
  cases hfind : Slots.firstSlot fun i => !c.occupied i with
  | none =>
    refine .inl ⟨fun i => ?_, rfl⟩
    have := Slots.firstSlot_eq_none hfind i
    rwa [Bool.not_eq_false'] at this
  | some i =>
    have hfree := (Slots.firstSlot_eq_some hfind).1
    rw [Bool.not_eq_true'] at hfree
    refine .inr ⟨i, hfree, ?_⟩
    simp only [CapTable.mintSlot, CapTable.token, nextCapGeneration, Handle.next,
      Function.update_self]

/-- What `capCreate` can do: refuse and leave the table alone, or mint in a
    slot that holds no unrevoked token. -/
theorem capCreate_cases (o : ObjectTable) (c : CapTable) (objectId rights : UInt64) :
    (∃ e, capCreate o c objectId rights = (.error e, c)) ∨
    ∃ i object, rights ≠ 0 ∧ objectLookup o objectId = .ok object ∧ c.occupied i = false ∧
      capCreate o c objectId rights =
        (.ok ((c.mintSlot i object rights).token i), c.mintSlot i object rights) := by
  unfold capCreate
  split
  · exact .inl ⟨_, rfl⟩
  · next hrights =>
    cases hl : objectLookup o objectId with
    | error e => exact .inl ⟨e, rfl⟩
    | ok object =>
      rcases capCreateSlot_cases c object rights with ⟨_, hslot⟩ | ⟨i, hfree, hslot⟩
      · exact .inl ⟨_, hslot⟩
      · exact .inr ⟨i, object, hrights, rfl, hfree, hslot⟩

/-- `capCreate` of an existing object with nonzero rights fails only when the
    table is full. -/
theorem capCreate_error {o : ObjectTable} {c : CapTable} {objectId rights : UInt64} {object : Object}
    {e : Err} {c' : CapTable} (hr : rights ≠ 0) (hl : objectLookup o objectId = .ok object)
    (h : capCreate o c objectId rights = (.error e, c')) : ∀ i, c.occupied i = true := by
  unfold capCreate at h
  rw [if_neg hr, hl] at h
  rcases capCreateSlot_cases c object rights with ⟨hfull, _⟩ | ⟨i, _, hslot⟩
  · exact hfull
  · have := h.symm.trans hslot
    cases this

/-- What `capRevoke` can do on well-formed tables: refuse and leave the table
    alone, or revoke the slot the token is current for. -/
theorem capRevoke_cases {o : ObjectTable} {c : CapTable} (h : TablesWf o c) (t : UInt64) :
    (∃ e, capLookup o c t = .error e ∧ capRevoke o c t = (.error e, c)) ∨
    ∃ i, c.occupied i = true ∧ t = c.token i ∧ capRevoke o c t = (.ok (), c.revokeSlot i) := by
  unfold capRevoke
  cases hl : capLookup o c t with
  | error e => exact .inl ⟨e, rfl, rfl⟩
  | ok entry =>
    obtain ⟨i, hocc, rfl, rfl⟩ := (capLookup_eq_ok h).mp hl
    have hindex := capIndex_token c i
    have hlt : (capIndex (c.token i)).toNat < maxCaps := by omega
    have hslot : (⟨(capIndex (c.token i)).toNat, hlt⟩ : Fin maxCaps) = i := Fin.ext hindex
    refine .inr ⟨i, hocc, rfl, ?_⟩
    dsimp only
    rw [dif_pos hlt, hslot]

section slots

variable (c : CapTable) (i : Fin maxCaps) (object : Object) (rights : UInt64)

@[simp] theorem CapTable.mintSlot_entry_self :
    (c.mintSlot i object rights).entry i = ⟨object.id, object.generation, object.type, 0, rights⟩ :=
  Function.update_self _ _ _

@[simp] theorem CapTable.mintSlot_generations_self :
    (c.mintSlot i object rights).generations i = Handle.bump (c.generations i) :=
  Function.update_self _ _ _

@[simp] theorem CapTable.mintSlot_entry_ne {j : Fin maxCaps} (h : j ≠ i) :
    (c.mintSlot i object rights).entry j = c.entry j :=
  Function.update_of_ne h _ _

@[simp] theorem CapTable.mintSlot_generations_ne {j : Fin maxCaps} (h : j ≠ i) :
    (c.mintSlot i object rights).generations j = c.generations j :=
  Function.update_of_ne h _ _

@[simp] theorem CapTable.revokeSlot_entry_self :
    (c.revokeSlot i).entry i = { c.entry i with revoked := 1 } :=
  Function.update_self _ _ _

@[simp] theorem CapTable.revokeSlot_generations_self :
    (c.revokeSlot i).generations i = Handle.bump (c.generations i) :=
  Function.update_self _ _ _

@[simp] theorem CapTable.revokeSlot_entry_ne {j : Fin maxCaps} (h : j ≠ i) :
    (c.revokeSlot i).entry j = c.entry j :=
  Function.update_of_ne h _ _

@[simp] theorem CapTable.revokeSlot_generations_ne {j : Fin maxCaps} (h : j ≠ i) :
    (c.revokeSlot i).generations j = c.generations j :=
  Function.update_of_ne h _ _

@[simp] theorem CapTable.revokeSlot_occupied_self : (c.revokeSlot i).occupied i = false := by
  simp [CapTable.occupied]

theorem CapTable.mintSlot_occupied_ne {j : Fin maxCaps} (h : j ≠ i) :
    (c.mintSlot i object rights).occupied j = c.occupied j := by
  simp [CapTable.occupied, h]

theorem CapTable.revokeSlot_occupied_ne {j : Fin maxCaps} (h : j ≠ i) :
    (c.revokeSlot i).occupied j = c.occupied j := by
  simp [CapTable.occupied, h]

theorem CapTable.mintSlot_token_ne {j : Fin maxCaps} (h : j ≠ i) :
    (c.mintSlot i object rights).token j = c.token j := by
  simp [CapTable.token, h]

theorem CapTable.revokeSlot_token_ne {j : Fin maxCaps} (h : j ≠ i) :
    (c.revokeSlot i).token j = c.token j := by
  simp [CapTable.token, h]

end slots

theorem CapTable.mintSlot_occupied_self {o : ObjectTable} (ho : o.Wf) (c : CapTable)
    (i : Fin maxCaps) {object : Object} {objectId : UInt64} (rights : UInt64)
    (hl : objectLookup o objectId = .ok object) :
    (c.mintSlot i object rights).occupied i = true := by
  obtain ⟨j, rfl, htype, _⟩ := (objectLookup_eq_ok ho).mp hl
  rw [CapTable.occupied_iff]
  simp [ho.id_ne_zero htype]

/-- The well-formedness invariant survives a step that mints in one slot. -/
theorem tablesWf_mintSlot {o : ObjectTable} {c : CapTable} (h : TablesWf o c) (i : Fin maxCaps)
    {object : Object} {objectId rights : UInt64} (hrights : rights ≠ 0)
    (hl : objectLookup o objectId = .ok object) : TablesWf o (c.mintSlot i object rights) where
  objects := h.objects
  rights := by
    intro j hj
    by_cases hji : j = i
    · subst hji
      rw [CapTable.mintSlot_entry_self]
      exact hrights
    · rw [CapTable.mintSlot_occupied_ne _ _ _ _ hji] at hj
      rw [CapTable.mintSlot_entry_ne _ _ _ _ hji]
      exact h.rights j hj
  generation := by
    intro j hj
    by_cases hji : j = i
    · subst hji
      rw [CapTable.mintSlot_generations_self]
      exact Handle.bump_ne_zero _
    · rw [CapTable.mintSlot_occupied_ne _ _ _ _ hji] at hj
      rw [CapTable.mintSlot_generations_ne _ _ _ _ hji]
      exact h.generation j hj
  object := by
    intro j hj
    by_cases hji : j = i
    · subst hji
      obtain ⟨k, hk, htype, hid⟩ := (objectLookup_eq_ok h.objects).mp hl
      refine ⟨object, ?_, by simp, by simp, by simp⟩
      rw [CapTable.mintSlot_entry_self]
      exact (objectLookup_eq_ok h.objects).mpr ⟨k, hk, htype, rfl⟩
    · rw [CapTable.mintSlot_occupied_ne _ _ _ _ hji] at hj
      rw [CapTable.mintSlot_entry_ne _ _ _ _ hji]
      exact h.object j hj

/-- The well-formedness invariant survives the revocation of one slot. -/
theorem tablesWf_revokeSlot {o : ObjectTable} {c : CapTable} (h : TablesWf o c) (i : Fin maxCaps) :
    TablesWf o (c.revokeSlot i) where
  objects := h.objects
  rights := by
    intro j hj
    by_cases hji : j = i
    · subst hji
      simp at hj
    · rw [CapTable.revokeSlot_occupied_ne _ _ hji] at hj
      rw [CapTable.revokeSlot_entry_ne _ _ hji]
      exact h.rights j hj
  generation := by
    intro j hj
    by_cases hji : j = i
    · subst hji
      simp at hj
    · rw [CapTable.revokeSlot_occupied_ne _ _ hji] at hj
      rw [CapTable.revokeSlot_generations_ne _ _ hji]
      exact h.generation j hj
  object := by
    intro j hj
    by_cases hji : j = i
    · subst hji
      simp at hj
    · rw [CapTable.revokeSlot_occupied_ne _ _ hji] at hj
      rw [CapTable.revokeSlot_entry_ne _ _ hji]
      exact h.object j hj

theorem tablesWf_objectCreate {o : ObjectTable} {c : CapTable} (h : TablesWf o c)
    (type ownerCore flags : UInt32) (payload : Payload) :
    TablesWf (objectCreate o type ownerCore flags payload).2 c where
  objects := objectCreate_wf h.objects type ownerCore flags payload
  generation := h.generation
  rights := h.rights
  object := by
    intro i hi
    obtain ⟨ob, hl, hrest⟩ := h.object i hi
    exact ⟨ob, objectLookup_objectCreate h.objects hl type ownerCore flags payload, hrest⟩

theorem tablesWf_capCreate {o : ObjectTable} {c : CapTable} (h : TablesWf o c)
    (objectId rights : UInt64) : TablesWf o (capCreate o c objectId rights).2 := by
  obtain ⟨e, heq⟩ | ⟨i, object, hr, hl, _, heq⟩ := capCreate_cases o c objectId rights
  · rw [heq]; exact h
  · rw [heq]; exact tablesWf_mintSlot h i hr hl

theorem tablesWf_capRevoke {o : ObjectTable} {c : CapTable} (h : TablesWf o c) (t : UInt64) :
    TablesWf o (capRevoke o c t).2 := by
  obtain ⟨e, _, heq⟩ | ⟨i, _, _, heq⟩ := capRevoke_cases h t
  · rw [heq]; exact h
  · rw [heq]; exact tablesWf_revokeSlot h i

/-! ## Objects with a single token -/

/-- Slot `i` holds the only live token of its object. -/
def CapTable.Sole (c : CapTable) (i : Fin maxCaps) : Prop :=
  ∀ j, c.occupied j = true → (c.entry j).objectId = (c.entry i).objectId → j = i

/-- An object that was not in the table before has no live token. -/
theorem TablesWf.objectId_ne {o : ObjectTable} {c : CapTable} (h : TablesWf o c) {id : UInt64}
    (hid : ∀ ob, objectLookup o id ≠ .ok ob) {j : Fin maxCaps} (hj : c.occupied j = true) :
    (c.entry j).objectId ≠ id := by
  obtain ⟨ob, hl, _⟩ := h.object j hj
  intro heq
  rw [heq] at hl
  exact hid ob hl

/-- A token minted for an object that has none is its only one. -/
theorem CapTable.sole_mintSlot_of_none {c : CapTable} {object : Object}
    (hnone : ∀ j, c.occupied j = true → (c.entry j).objectId ≠ object.id) (i : Fin maxCaps)
    (rights : UInt64) : (c.mintSlot i object rights).Sole i := by
  intro j hj hid
  by_contra hji
  rw [CapTable.mintSlot_occupied_ne _ _ _ _ hji] at hj
  rw [CapTable.mintSlot_entry_ne _ _ _ _ hji, CapTable.mintSlot_entry_self] at hid
  exact hnone j hj hid

/-- The first token minted for an object is its only one. -/
theorem CapTable.sole_mintSlot_self {o : ObjectTable} {c : CapTable} (h : TablesWf o c)
    {object : Object} (hfresh : ∀ ob, objectLookup o object.id ≠ .ok ob) (i : Fin maxCaps)
    (rights : UInt64) : (c.mintSlot i object rights).Sole i :=
  CapTable.sole_mintSlot_of_none (fun _ => h.objectId_ne hfresh) i rights

/-- Minting for another object keeps a token the only one of its object. -/
theorem CapTable.Sole.mintSlot {c : CapTable} {i k : Fin maxCaps} (h : c.Sole k) (hki : k ≠ i)
    {object : Object} (hid : object.id ≠ (c.entry k).objectId) (rights : UInt64) :
    (c.mintSlot i object rights).Sole k := by
  intro j hj heq
  rw [CapTable.mintSlot_entry_ne _ _ _ _ hki] at heq
  by_cases hji : j = i
  · subst hji
    rw [CapTable.mintSlot_entry_self] at heq
    exact absurd heq hid
  · rw [CapTable.mintSlot_occupied_ne _ _ _ _ hji] at hj
    rw [CapTable.mintSlot_entry_ne _ _ _ _ hji] at heq
    exact h j hj heq

/-- Revoking another token keeps a token the only one of its object. -/
theorem CapTable.Sole.revokeSlot {c : CapTable} {i k : Fin maxCaps} (h : c.Sole k) (hki : k ≠ i) :
    (c.revokeSlot i).Sole k := by
  intro j hj heq
  have hji : j ≠ i := by
    intro hji
    rw [hji, CapTable.revokeSlot_occupied_self] at hj
    cases hj
  rw [CapTable.revokeSlot_occupied_ne _ _ hji] at hj
  rw [CapTable.revokeSlot_entry_ne _ _ hji, CapTable.revokeSlot_entry_ne _ _ hki] at heq
  exact h j hj heq

/-! ## Frame: what a step does to the other tokens -/

/-- Lookups agree when every accepted token is accepted by both with the same
    entry: a refusal is the same word for word. -/
theorem capLookup_congr {o o' : ObjectTable} {c c' : CapTable} (h : TablesWf o c)
    (h' : TablesWf o' c') {t : UInt64}
    (hiff : ∀ e, capLookup o c t = .ok e ↔ capLookup o' c' t = .ok e) :
    capLookup o c t = capLookup o' c' t := by
  rw [capLookup_eq_validateCapSlot h, capLookup_eq_validateCapSlot h'] at *
  cases hv : validateCapSlot c t with
  | ok e => exact ((hiff e).mp hv).symm
  | error e =>
    cases hv' : validateCapSlot c' t with
    | ok e' =>
      rw [(hiff e').mpr hv'] at hv
      cases hv
    | error e' => rw [validateCapSlot_error hv, validateCapSlot_error hv']

theorem capLookup_objectCreate {o : ObjectTable} {c : CapTable} (h : TablesWf o c)
    (type ownerCore flags : UInt32) (payload : Payload) (t : UInt64) :
    capLookup (objectCreate o type ownerCore flags payload).2 c t = capLookup o c t := by
  rw [capLookup_eq_validateCapSlot h,
    capLookup_eq_validateCapSlot (tablesWf_objectCreate h type ownerCore flags payload)]

/-- A token that names slot `i` neither before nor after has the lookup it had, if the
    other slots are as they were. -/
theorem capLookup_of_others {o : ObjectTable} {c c' : CapTable} (h : TablesWf o c)
    (h' : TablesWf o c') {i : Fin maxCaps} {t : UInt64}
    (hother : ∀ j, j ≠ i →
      c'.occupied j = c.occupied j ∧ c'.token j = c.token j ∧ c'.entry j = c.entry j)
    (hbefore : c.occupied i = true → t ≠ c.token i)
    (hafter : c'.occupied i = true → t ≠ c'.token i) : capLookup o c' t = capLookup o c t := by
  apply capLookup_congr h' h
  intro e
  rw [capLookup_eq_ok h', capLookup_eq_ok h]
  constructor
  · rintro ⟨j, hocc, rfl, rfl⟩
    have hji : j ≠ i := by
      rintro rfl
      exact hafter hocc rfl
    obtain ⟨hocc', htoken, hentry⟩ := hother j hji
    exact ⟨j, hocc'.symm.trans hocc, htoken, hentry⟩
  · rintro ⟨j, hocc, rfl, rfl⟩
    have hji : j ≠ i := by
      rintro rfl
      exact hbefore hocc rfl
    obtain ⟨hocc', htoken, hentry⟩ := hother j hji
    exact ⟨j, hocc'.trans hocc, htoken.symm, hentry.symm⟩

/-- Minting in a free slot changes the lookup of the new token only. -/
theorem capLookup_mintSlot_ne {o : ObjectTable} {c : CapTable} (h : TablesWf o c) {i : Fin maxCaps}
    {object : Object} {objectId rights : UInt64} (hr : rights ≠ 0)
    (hl : objectLookup o objectId = .ok object) (hfree : c.occupied i = false) {t : UInt64}
    (ht : t ≠ (c.mintSlot i object rights).token i) :
    capLookup o (c.mintSlot i object rights) t = capLookup o c t := by
  apply capLookup_of_others h (tablesWf_mintSlot h i hr hl) (i := i)
  · intro j hj
    exact ⟨CapTable.mintSlot_occupied_ne _ _ _ _ hj, CapTable.mintSlot_token_ne _ _ _ _ hj,
      CapTable.mintSlot_entry_ne _ _ _ _ hj⟩
  · intro hocc
    rw [hfree] at hocc
    cases hocc
  · exact fun _ => ht

/-- Revoking a slot changes the lookup of its current token only. -/
theorem capLookup_revokeSlot_ne {o : ObjectTable} {c : CapTable} (h : TablesWf o c) {i : Fin maxCaps}
    {t : UInt64} (ht : t ≠ c.token i) : capLookup o (c.revokeSlot i) t = capLookup o c t := by
  apply capLookup_of_others h (tablesWf_revokeSlot h i) (i := i)
  · intro j hj
    exact ⟨CapTable.revokeSlot_occupied_ne _ _ hj, CapTable.revokeSlot_token_ne _ _ hj,
      CapTable.revokeSlot_entry_ne _ _ hj⟩
  · exact fun _ => ht
  · intro hocc
    simp at hocc

/-- A revoked slot refuses every token that names it, whatever its generation. -/
theorem capLookup_revokeSlot_self {o : ObjectTable} {c : CapTable} (h : TablesWf o c)
    (i : Fin maxCaps) (e : CapEntry) : capLookup o (c.revokeSlot i) (c.token i) ≠ .ok e := by
  intro hl
  obtain ⟨j, hocc, ht, _⟩ := (capLookup_eq_ok (tablesWf_revokeSlot h i)).mp hl
  obtain rfl := CapTable.token_injective ht
  simp at hocc

/-! ## Slots that a step leaves alone -/

/-- Slot `j` is the same in both tables. -/
def CapTable.SameSlot (c c' : CapTable) (j : Fin maxCaps) : Prop :=
  c'.entry j = c.entry j ∧ c'.generations j = c.generations j

theorem CapTable.SameSlot.refl (c : CapTable) (j : Fin maxCaps) : c.SameSlot c j := ⟨rfl, rfl⟩

theorem CapTable.SameSlot.trans {c c' c'' : CapTable} {j : Fin maxCaps} (h : c.SameSlot c' j)
    (h' : c'.SameSlot c'' j) : c.SameSlot c'' j := ⟨h'.1.trans h.1, h'.2.trans h.2⟩

theorem CapTable.SameSlot.occupied {c c' : CapTable} {j : Fin maxCaps} (h : c.SameSlot c' j) :
    c'.occupied j = c.occupied j := by
  unfold CapTable.occupied
  rw [h.1]

theorem CapTable.SameSlot.token {c c' : CapTable} {j : Fin maxCaps} (h : c.SameSlot c' j) :
    c'.token j = c.token j := by
  unfold CapTable.token
  rw [h.2]

theorem CapTable.sameSlot_mintSlot {c : CapTable} {i j : Fin maxCaps} (h : j ≠ i) (object : Object)
    (rights : UInt64) : c.SameSlot (c.mintSlot i object rights) j :=
  ⟨CapTable.mintSlot_entry_ne _ _ _ _ h, CapTable.mintSlot_generations_ne _ _ _ _ h⟩

theorem CapTable.sameSlot_revokeSlot {c : CapTable} {i j : Fin maxCaps} (h : j ≠ i) :
    c.SameSlot (c.revokeSlot i) j :=
  ⟨CapTable.revokeSlot_entry_ne _ _ h, CapTable.revokeSlot_generations_ne _ _ h⟩

/-- A slot that is occupied is not the free slot `i`. -/
theorem CapTable.ne_of_occupied {c : CapTable} {i j : Fin maxCaps} (hfree : c.occupied i = false)
    (hj : c.occupied j = true) : j ≠ i := by
  intro heq
  rw [heq, hfree] at hj
  cases hj

/-- A check that passed still passes when the occupied slots are as before. -/
theorem capCheck_of_sameSlot {o o' : ObjectTable} {c c' : CapTable} (h : TablesWf o c)
    (h' : TablesWf o' c') (hsame : ∀ j, c.occupied j = true → c.SameSlot c' j) {t req : UInt64}
    {ty : UInt32} {e : CapEntry} (hok : capCheck o c t req ty = .ok e) :
    capCheck o' c' t req ty = .ok e := by
  obtain ⟨hreq, j, hocc, rfl, rfl, hgr⟩ := (capCheck_eq_ok h).mp hok
  have hj := hsame j hocc
  refine (capCheck_eq_ok h').mpr
    ⟨hreq, j, hj.occupied.trans hocc, hj.token.symm, hj.1.symm, ?_⟩
  rw [hj.1]
  exact hgr

/-- Checks for a type accept the same tokens in two tables that agree on the
    slots of that type. -/
theorem capCheck_ok_iff_of_sameSlot {o o' : ObjectTable} {c c' : CapTable} (h : TablesWf o c)
    (h' : TablesWf o' c') {ty : UInt32} (hty : ty ≠ ObjType.none)
    (hold : ∀ j, c.occupied j = true → (c.entry j).objectType = ty → c.SameSlot c' j)
    (hnew : ∀ j, c'.occupied j = true → (c'.entry j).objectType = ty → c.SameSlot c' j)
    {t req : UInt64} {e : CapEntry} :
    capCheck o' c' t req ty = .ok e ↔ capCheck o c t req ty = .ok e := by
  rw [capCheck_eq_ok h', capCheck_eq_ok h]
  have htype : ∀ entry : CapEntry, entry.grants req ty → entry.objectType = ty := by
    intro entry hgr
    rcases hgr.1 with hnone | htype
    · exact absurd hnone hty
    · exact htype
  constructor
  · intro hok
    obtain ⟨hreq, j, hocc, rfl, rfl, hgr⟩ := hok
    have hsame := hnew j hocc (htype _ hgr)
    refine ⟨hreq, j, hsame.occupied ▸ hocc, hsame.token, hsame.1, ?_⟩
    rw [← hsame.1]
    exact hgr
  · intro hok
    obtain ⟨hreq, j, hocc, rfl, rfl, hgr⟩ := hok
    have hsame := hold j hocc (htype _ hgr)
    refine ⟨hreq, j, hsame.occupied.trans hocc, hsame.token.symm, hsame.1.symm, ?_⟩
    rw [hsame.1]
    exact hgr

/-- Minting for an object of another type changes no check. -/
theorem capCheck_mintSlot_iff {o : ObjectTable} {c : CapTable} (h : TablesWf o c)
    {i : Fin maxCaps} {object : Object} {objectId rights : UInt64} (hr : rights ≠ 0)
    (hl : objectLookup o objectId = .ok object) (hfree : c.occupied i = false) {ty : UInt32}
    (hty : ty ≠ ObjType.none) (hne : object.type ≠ ty) {t req : UInt64} {e : CapEntry} :
    capCheck o (c.mintSlot i object rights) t req ty = .ok e ↔ capCheck o c t req ty = .ok e := by
  apply capCheck_ok_iff_of_sameSlot h (tablesWf_mintSlot h i hr hl) hty
  · intro j hj _
    exact CapTable.sameSlot_mintSlot (CapTable.ne_of_occupied hfree hj) object rights
  · intro j _ htype
    apply CapTable.sameSlot_mintSlot
    intro hji
    rw [hji, CapTable.mintSlot_entry_self] at htype
    exact hne htype

/-- Revoking a token of another type changes no check. -/
theorem capCheck_revokeSlot_iff {o : ObjectTable} {c : CapTable} (h : TablesWf o c)
    {i : Fin maxCaps} {ty : UInt32} (hty : ty ≠ ObjType.none)
    (hne : (c.entry i).objectType ≠ ty) {t req : UInt64} {e : CapEntry} :
    capCheck o (c.revokeSlot i) t req ty = .ok e ↔ capCheck o c t req ty = .ok e := by
  apply capCheck_ok_iff_of_sameSlot h (tablesWf_revokeSlot h i) hty
  · intro j _ htype
    apply CapTable.sameSlot_revokeSlot
    intro hji
    rw [hji] at htype
    exact hne htype
  · intro j hj _
    apply CapTable.sameSlot_revokeSlot
    intro hji
    rw [hji, CapTable.revokeSlot_occupied_self] at hj
    cases hj

/-! ## Objects with their tokens -/

/-- What a function that creates an object of type `type` and mints one token
    for it can do to the tables, when it is told how each of the two ended. -/
inductive TablesGrown (type : UInt32) (payload : Payload) (o : ObjectTable) (c : CapTable) :
    ObjectTable → CapTable → Prop where
  | same : TablesGrown type payload o c o c
  | object {ownerCore flags : UInt32} {id : UInt64} {o' : ObjectTable} :
      objectCreate o type ownerCore flags payload = (.ok id, o') → TablesGrown type payload o c o' c
  | token {ownerCore flags : UInt32} {id rights : UInt64} {o' : ObjectTable} {ob : Object}
      {j : Fin maxCaps} :
      objectCreate o type ownerCore flags payload = (.ok id, o') →
      objectLookup o' id = .ok ob → rights ≠ 0 → c.occupied j = false →
      TablesGrown type payload o c o' (c.mintSlot j ob rights)

section grown

variable {type ownerCore flags : UInt32} {payload : Payload} {o o' : ObjectTable}
  {c c' : CapTable} {id : UInt64}

theorem tablesGrown_objectCreate {r : Except Err UInt64} (c : CapTable)
    (h : objectCreate o type ownerCore flags payload = (r, o')) : TablesGrown type payload o c o' c := by
  cases r with
  | ok id => exact .object h
  | error e =>
    rcases objectCreate_cases o type ownerCore flags payload with ⟨e', heq⟩ | ⟨_, _, _, _, _, heq⟩
    · rw [heq] at h
      obtain ⟨_, rfl⟩ := Prod.mk.inj h
      exact .same
    · rw [heq] at h
      cases h

theorem tablesGrown_capCreate {rights : UInt64} {r : Except Err UInt64}
    (h : objectCreate o type ownerCore flags payload = (.ok id, o'))
    (hcap : capCreate o' c id rights = (r, c')) : TablesGrown type payload o c o' c' := by
  rcases capCreate_cases o' c id rights with ⟨e, heq⟩ | ⟨j, ob, hr, hob, hfree, heq⟩
  · rw [heq] at hcap
    obtain ⟨_, rfl⟩ := Prod.mk.inj hcap
    exact .object h
  · rw [heq] at hcap
    obtain ⟨_, rfl⟩ := Prod.mk.inj hcap
    exact .token h hob hr hfree

theorem TablesGrown.wf (h : TablesGrown type payload o c o' c') (hwf : TablesWf o c) : TablesWf o' c' := by
  have hnew : ∀ {ownerCore flags id o'}, objectCreate o type ownerCore flags payload = (.ok id, o') →
      TablesWf o' c := by
    intro ownerCore flags id o' hc
    have hwf' := tablesWf_objectCreate hwf type ownerCore flags payload
    rw [hc] at hwf'
    exact hwf'
  cases h with
  | same => exact hwf
  | object hc => exact hnew hc
  | token hc hob hr _ => exact tablesWf_mintSlot (hnew hc) _ hr hob

/-- The tokens there were are as before. -/
theorem TablesGrown.sameSlot (h : TablesGrown type payload o c o' c') {j : Fin maxCaps}
    (hj : c.occupied j = true) : c.SameSlot c' j := by
  cases h with
  | same => exact .refl c j
  | object _ => exact .refl c j
  | token _ _ _ hfree => exact CapTable.sameSlot_mintSlot (CapTable.ne_of_occupied hfree hj) _ _

/-- The objects there were are as before. -/
theorem TablesGrown.lookup (h : TablesGrown type payload o c o' c') (hwf : TablesWf o c) {ob : Object}
    (hob : objectLookup o id = .ok ob) : objectLookup o' id = .ok ob := by
  have hnew : ∀ {ownerCore flags id' o'},
      objectCreate o type ownerCore flags payload = (.ok id', o') → objectLookup o' id = .ok ob := by
    intro ownerCore flags id' o' hc
    have hkeep := objectLookup_objectCreate hwf.objects hob type ownerCore flags payload
    rw [hc] at hkeep
    exact hkeep
  cases h with
  | same => exact hob
  | object hc => exact hnew hc
  | token hc _ _ _ => exact hnew hc

/-- An object is an old one, or has the type and the payload asked for. -/
theorem TablesGrown.lookup_cases (h : TablesGrown type payload o c o' c') (hwf : TablesWf o c) {ob : Object}
    (hob : objectLookup o' id = .ok ob) :
    objectLookup o id = .ok ob ∨ (ob.type = type ∧ ob.payload = payload) := by
  have hnew : ∀ {ownerCore flags id' o'},
      objectCreate o type ownerCore flags payload = (.ok id', o') → objectLookup o' id = .ok ob →
      objectLookup o id = .ok ob ∨ (ob.type = type ∧ ob.payload = payload) := by
    intro ownerCore flags id' o' hc hob
    rcases objectLookup_objectCreate_cases hwf.objects hc hob with rfl | hold
    · obtain ⟨_, hob'⟩ := objectLookup_of_objectCreate hwf.objects hc
      obtain rfl := Except.ok.inj (hob'.symm.trans hob)
      exact .inr ⟨rfl, rfl⟩
    · exact .inl hold
  cases h with
  | same => exact .inl hob
  | object hc => exact hnew hc hob
  | token hc _ _ _ => exact hnew hc hob

/-- A token is an old one, or is for an object of the type and the payload asked
    for. -/
theorem TablesGrown.occupied_cases (h : TablesGrown type payload o c o' c') (hwf : TablesWf o c)
    {j : Fin maxCaps} (hj : c'.occupied j = true) :
    c.occupied j = true ∨
      ∃ ob, objectLookup o' (c'.entry j).objectId = .ok ob ∧ ob.type = type ∧
        ob.payload = payload ∧ ∀ ob', objectLookup o (c'.entry j).objectId ≠ .ok ob' := by
  cases h with
  | same => exact .inl hj
  | object _ => exact .inl hj
  | @token ownerCore flags id rights _ ob i hc hob hr hfree =>
    by_cases hji : j = i
    · obtain ⟨_, hnew⟩ := objectLookup_of_objectCreate hwf.objects hc
      obtain rfl := Except.ok.inj (hnew.symm.trans hob)
      right
      rw [hji, CapTable.mintSlot_entry_self]
      exact ⟨_, hob, rfl, rfl, objectLookup_fresh hwf.objects hc⟩
    · rw [CapTable.mintSlot_occupied_ne _ _ _ _ hji] at hj
      exact .inl hj

end grown

/-! ## The slot behind a token -/

/-- The lookups of the subsystems have this in common: check the token, look its
    object up, and test the slot that the payload points to. -/
def payloadLookup {α : Type} (o : ObjectTable) (c : CapTable) (cap requiredRights : UInt64)
    (expectedType : UInt32) (test : Payload → UInt64 → Except Err α) : Except Err α :=
  match capCheck o c cap requiredRights expectedType with
  | .error e => .error e
  | .ok entry =>
    match objectLookup o entry.objectId with
    | .error e => .error e
    | .ok object => test object.payload entry.objectId

/-- What a successful lookup has found. -/
theorem payloadLookup_eq_ok {α : Type} {o : ObjectTable} {c : CapTable} {cap req : UInt64}
    {ty : UInt32} {test : Payload → UInt64 → Except Err α} {a : α} :
    payloadLookup o c cap req ty test = .ok a ↔
      ∃ entry object, capCheck o c cap req ty = .ok entry ∧
        objectLookup o entry.objectId = .ok object ∧ test object.payload entry.objectId = .ok a := by
  unfold payloadLookup
  cases capCheck o c cap req ty with
  | error e => simp
  | ok entry =>
    cases hob : objectLookup o entry.objectId with
    | error e => simp [hob]
    | ok object => simp [hob]

end Scdk
