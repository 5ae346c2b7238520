import Scdk.Core.UserGrant

/-! # The records behind the grant tokens

    The object, capability and grant tables while every user grant has at most
    the token it was created with.

    * `GrantRecords`: a live token of a user grant is the only one of its object,
      and its slot is in use and records what the token was minted for,
    * `GrantsKept`: what a step leaves alone,
    * `GrantStep`: a step that leaves every live grant alone, and the slots where
      it may have minted new tokens,
    * what `scdk_user_grant_create` and the two ways to revoke a token do to the
      records. -/

namespace Scdk

/-! ## The invariant -/

/-- The object `id` is a user grant with its record in slot `i`. -/
def GrantObject (o : ObjectTable) (id : UInt64) (i : Fin maxUserGrants) : Prop :=
  ∃ object, objectLookup o id = .ok object ∧ object.type = ObjType.grant ∧
    object.payload = .userGrant i

/-- Capability slot `j` holds a token of the user grant in slot `i`. -/
def IsGrantCap (o : ObjectTable) (c : CapTable) (j : Fin maxCaps) (i : Fin maxUserGrants) : Prop :=
  c.occupied j = true ∧ GrantObject o (c.entry j).objectId i

/-- The record in slot `i` goes with the token in capability slot `j`. -/
structure LiveGrant (c : CapTable) (g : GrantTables) (j : Fin maxCaps) (i : Fin maxUserGrants) :
    Prop where
  objectId : (g.user i).objectId = (c.entry j).objectId
  revoked : (g.user i).revoked = false
  sole : c.Sole j
  capRights : (c.entry j).rights = userGrantRights (g.user i).rights
  rights : (g.user i).rights ≠ 0
  mask : (g.user i).rights &&& ~~~grantRightsMask = 0
  length : (g.user i).length ≠ 0

/-- The relation depends on the entry of the token and the record only. -/
theorem LiveGrant.congr {c c' : CapTable} {g g' : GrantTables} {j : Fin maxCaps}
    {i : Fin maxUserGrants} (h : LiveGrant c g j i) (hentry : c'.entry j = c.entry j)
    (hslot : g'.user i = g.user i) (hsole : c'.Sole j) : LiveGrant c' g' j i where
  objectId := by rw [hslot, hentry, h.objectId]
  revoked := by rw [hslot, h.revoked]
  sole := hsole
  capRights := by rw [hslot, hentry, h.capRights]
  rights := by rw [hslot]; exact h.rights
  mask := by rw [hslot, h.mask]
  length := by rw [hslot]; exact h.length

/-- The invariant of the object, capability and grant tables. -/
structure GrantRecords (o : ObjectTable) (c : CapTable) (g : GrantTables) : Prop where
  wf : TablesWf o c
  live : ∀ j i, IsGrantCap o c j i → LiveGrant c g j i
  slots : ∀ i, (g.user i).objectId ≠ 0 → GrantObject o (g.user i).objectId i

section inv

variable {o : ObjectTable} {c : CapTable} {g : GrantTables} {i i' : Fin maxUserGrants}
  {j j' : Fin maxCaps} {id : UInt64}

theorem GrantObject.unique (h : GrantObject o id i) (h' : GrantObject o id i') : i = i' := by
  obtain ⟨object, hob, _, hpay⟩ := h
  obtain ⟨object', hob', _, hpay'⟩ := h'
  obtain rfl := Except.ok.inj (hob.symm.trans hob')
  rw [hpay] at hpay'
  exact Payload.userGrant.inj hpay'

theorem IsGrantCap.objectType (h : TablesWf o c) (hj : IsGrantCap o c j i) :
    (c.entry j).objectType = ObjType.grant := by
  obtain ⟨hocc, object, hob, htype, _⟩ := hj
  obtain ⟨object', hob', _, _, htype'⟩ := h.object j hocc
  obtain rfl := Except.ok.inj (hob.symm.trans hob')
  exact htype'.symm.trans htype

theorem IsGrantCap.unique (hj : IsGrantCap o c j i) (hj' : IsGrantCap o c j i') : i = i' :=
  hj.2.unique hj'.2

/-- The slot of a live grant is neither free nor revoked. -/
theorem GrantRecords.slot_ne (h : GrantRecords o c g) (hj : IsGrantCap o c j i')
    (hi : (g.user i).objectId = 0 ∨ (g.user i).revoked = true) : i' ≠ i := by
  have hlive := h.live j i' hj
  intro heq
  rw [heq] at hlive
  rcases hi with hfree | hrevoked
  · have hid := (CapTable.occupied_iff.mp hj.1).1
    rw [← hlive.objectId] at hid
    exact hid hfree
  · rw [hlive.revoked] at hrevoked
    cases hrevoked

/-- Two live tokens of one slot are one token. -/
theorem GrantRecords.cap_unique (h : GrantRecords o c g) (hj : IsGrantCap o c j i)
    (hj' : IsGrantCap o c j' i) : j = j' := by
  have hlive := h.live j i hj
  have hlive' := h.live j' i hj'
  exact hlive'.sole j hj.1 (hlive.objectId.symm.trans hlive'.objectId)

end inv

/-! ## Lookups and verdicts -/

section verdict

variable {o : ObjectTable} {c : CapTable} {g : GrantTables} {i : Fin maxUserGrants}
  {j : Fin maxCaps}

theorem toStatus_eq_ok {α : Type} {r : Except Err α} : toStatus r = .ok () ↔ ∃ a, r = .ok a := by
  cases r with
  | error e => simp
  | ok a => simp

theorem liveBinding_eq_ok {slot : UserGrantSlot} :
    liveBinding o c slot = .ok () ↔
      (∃ e, capCheck o c slot.sourceTask Right.read ObjType.task = .ok e) ∧
      ∃ e, capCheck o c slot.targetEndpoint Right.send ObjType.endpoint = .ok e := by
  unfold liveBinding
  cases capCheck o c slot.sourceTask Right.read ObjType.task with
  | error e => simp
  | ok e => simp [toStatus_eq_ok]

theorem IsGrantCap.capLookup (h : TablesWf o c) (hj : IsGrantCap o c j i) :
    capLookup o c (c.token j) = .ok (c.entry j) :=
  (capLookup_eq_ok h).mpr ⟨j, hj.1, rfl, rfl⟩

/-- What a successful lookup has found. -/
theorem userGrantLookup_found {grantCap r : UInt64} {live : Bool} {ref : UserGrantRef}
    (h : userGrantLookup o c g grantCap r live = .ok ref) :
    ∃ entry object, capCheck o c grantCap r ObjType.grant = .ok entry ∧
      objectLookup o entry.objectId = .ok object ∧ object.payload.grantRef = some ref ∧
      (g.slot ref).objectId = entry.objectId ∧ (g.slot ref).revoked = false ∧
      (live = true → liveBinding o c (g.slot ref) = .ok ()) := by
  unfold userGrantLookup at h
  -- The tests of the lookup, in the order of the source.
  split at h
  · cases h
  · next entry hcheck =>
    split at h
    · cases h
    · next object hob =>
      split at h
      · cases h
      · next ref' hpay =>
        dsimp only at h
        split at h
        · cases h
        next hid =>
        split at h
        · cases h
        next hrev =>
        rw [ne_eq, not_not] at hid
        rw [Bool.not_eq_true] at hrev
        split at h
        · split at h
          · cases h
          · next hb =>
            obtain rfl := Except.ok.inj h
            exact ⟨entry, object, hcheck, hob, hpay, hid, hrev, fun _ => hb⟩
        · next hlive =>
          obtain rfl := Except.ok.inj h
          exact ⟨entry, object, hcheck, hob, hpay, hid, hrev, fun hl => absurd hl hlive⟩

/-- The lookup of a live grant: what is left are the checks of the token and of
    the two tokens that its record names. -/
theorem GrantRecords.lookup_eq (h : GrantRecords o c g) (hj : IsGrantCap o c j i) (r : UInt64)
    (live : Bool) :
    userGrantLookup o c g (c.token j) r live =
      match capCheck o c (c.token j) r ObjType.grant with
      | .error e => .error e
      | .ok _ =>
        if live = true then
          match liveBinding o c (g.user i) with
          | .error e => .error e
          | .ok _ => .ok (.user i)
        else .ok (.user i) := by
  have hlive := h.live j i hj
  have hlook := hj.capLookup h.wf
  obtain ⟨_, object, hob, _, hpay⟩ := hj
  unfold userGrantLookup
  cases hcheck : capCheck o c (c.token j) r ObjType.grant with
  | error e => rfl
  | ok entry =>
    have hentry : entry = c.entry j := by
      have hlook' := (capCheck_eq_ok_iff_lookup.mp hcheck).2.1
      exact Except.ok.inj (hlook'.symm.trans hlook)
    rw [hentry]
    cases hbinding : liveBinding o c (g.user i) with
    | error e =>
      simp only [hob, hpay, Payload.grantRef, GrantTables.slot, hlive.objectId, hlive.revoked, hbinding,
        ne_eq, not_true_eq_false, if_false, Bool.false_eq_true]
    | ok _ =>
      simp only [hob, hpay, Payload.grantRef, GrantTables.slot, hlive.objectId, hlive.revoked, hbinding,
        ne_eq, not_true_eq_false, if_false, Bool.false_eq_true]

/-- The check of a live token passes for the rights it was minted with. -/
theorem GrantRecords.check_ok (h : GrantRecords o c g) (hj : IsGrantCap o c j i) {r : UInt64} (hr : r ≠ 0)
    (hrights : userGrantRights (g.user i).rights &&& r = r) :
    capCheck o c (c.token j) r ObjType.grant = .ok (c.entry j) := by
  refine capCheck_eq_ok_iff_lookup.mpr ⟨hr, hj.capLookup h.wf, .inr (hj.objectType h.wf), ?_⟩
  rw [(h.live j i hj).capRights, hrights]

theorem or_and_self_left (a b : UInt64) : (a ||| b) &&& a = a := by
  rw [← UInt64.toBitVec_inj]
  ext n
  simp only [UInt64.toBitVec_and, UInt64.toBitVec_or, BitVec.getElem_and, BitVec.getElem_or]
  cases a.toBitVec[n] with
  | false => exact Bool.and_false _
  | true => rfl

end verdict

/-! ## What a step leaves alone -/

/-- The grants whose tokens are in the slots of `P`, and the checks of tasks and
    endpoints, are as before. -/
structure GrantsKept (P : Fin maxCaps → Prop) (o : ObjectTable) (c : CapTable) (g : GrantTables)
    (o' : ObjectTable) (c' : CapTable) (g' : GrantTables) : Prop where
  caps : ∀ j i, P j → IsGrantCap o c j i →
    c.SameSlot c' j ∧ IsGrantCap o' c' j i ∧ g'.user i = g.user i
  checks : ∀ t req ty e, ty = ObjType.task ∨ ty = ObjType.endpoint →
    (capCheck o' c' t req ty = .ok e ↔ capCheck o c t req ty = .ok e)

section kept

variable {P : Fin maxCaps → Prop} {o o' : ObjectTable} {c c' : CapTable} {g g' : GrantTables}

theorem GrantsKept.refl (P : Fin maxCaps → Prop) (o : ObjectTable) (c : CapTable)
    (g : GrantTables) : GrantsKept P o c g o c g where
  caps := fun j _ _ hj => ⟨CapTable.SameSlot.refl c j, hj, rfl⟩
  checks := fun _ _ _ _ _ => Iff.rfl

theorem GrantsKept.trans {o'' : ObjectTable} {c'' : CapTable} {g'' : GrantTables}
    (h : GrantsKept P o c g o' c' g') (h' : GrantsKept P o' c' g' o'' c'' g'') :
    GrantsKept P o c g o'' c'' g'' where
  caps := by
    intro j i hP hj
    obtain ⟨hsame, hj', hslot⟩ := h.caps j i hP hj
    obtain ⟨hsame', hj'', hslot'⟩ := h'.caps j i hP hj'
    exact ⟨hsame.trans hsame', hj'', hslot'.trans hslot⟩
  checks := fun t req ty e hty => (h'.checks t req ty e hty).trans (h.checks t req ty e hty)

theorem GrantsKept.liveBinding (h : GrantsKept P o c g o' c' g') (slot : UserGrantSlot) :
    liveBinding o' c' slot = .ok () ↔ liveBinding o c slot = .ok () := by
  simp only [liveBinding_eq_ok, h.checks _ _ ObjType.task _ (.inl rfl),
    h.checks _ _ ObjType.endpoint _ (.inr rfl)]

end kept

/-- A step that leaves every live grant alone; a token that was not live before
    is in a slot of `N`. -/
structure GrantStep (N : Fin maxCaps → Prop) (o : ObjectTable) (c : CapTable) (g : GrantTables)
    (o' : ObjectTable) (c' : CapTable) (g' : GrantTables) : Prop where
  records : GrantRecords o' c' g'
  kept : GrantsKept (fun _ => True) o c g o' c' g'
  old : ∀ j i, IsGrantCap o' c' j i → N j ∨ IsGrantCap o c j i
  kernel : g'.kernel = g.kernel

theorem GrantStep.refl {o : ObjectTable} {c : CapTable} {g : GrantTables} (h : GrantRecords o c g)
    (N : Fin maxCaps → Prop) : GrantStep N o c g o c g where
  records := h
  kept := GrantsKept.refl _ o c g
  old := fun _ _ hj => .inr hj
  kernel := rfl

theorem GrantStep.trans {N : Fin maxCaps → Prop} {o o' o'' : ObjectTable} {c c' c'' : CapTable}
    {g g' g'' : GrantTables} (h : GrantStep N o c g o' c' g') (h' : GrantStep N o' c' g' o'' c'' g'') :
    GrantStep N o c g o'' c'' g'' where
  records := h'.records
  kept := h.kept.trans h'.kept
  old := by
    intro j i hj
    rcases h'.old j i hj with hnew | hj'
    · exact .inl hnew
    · exact h.old j i hj'
  kernel := h'.kernel.trans h.kernel

/-! ## Steps of the tables -/

section steps

variable {o : ObjectTable} {c : CapTable} {g : GrantTables} {i : Fin maxUserGrants}

/-- A new object changes nothing about the tokens there are. -/
theorem isGrantCap_objectCreate (h : TablesWf o c) (type ownerCore flags : UInt32)
    (payload : Payload) {j : Fin maxCaps} :
    IsGrantCap (objectCreate o type ownerCore flags payload).2 c j i ↔ IsGrantCap o c j i := by
  unfold IsGrantCap
  apply and_congr_right
  intro hocc
  obtain ⟨object, hob, _⟩ := h.object j hocc
  have hkeep := objectLookup_objectCreate h.objects hob type ownerCore flags payload
  unfold GrantObject
  rw [hob, hkeep]

theorem GrantRecords.newObject (h : GrantRecords o c g) (type ownerCore flags : UInt32)
    (payload : Payload) (N : Fin maxCaps → Prop) :
    GrantStep N o c g (objectCreate o type ownerCore flags payload).2 c g := by
  have hcap : ∀ j i, IsGrantCap (objectCreate o type ownerCore flags payload).2 c j i ↔
      IsGrantCap o c j i :=
    fun j i => isGrantCap_objectCreate h.wf type ownerCore flags payload
  refine ⟨⟨tablesWf_objectCreate h.wf type ownerCore flags payload, ?_, ?_⟩, ⟨?_, ?_⟩, ?_, rfl⟩
  · intro j i hj
    exact h.live j i ((hcap j i).mp hj)
  · intro i hi
    obtain ⟨object, hob, hrest⟩ := h.slots i hi
    exact ⟨object, objectLookup_objectCreate h.wf.objects hob type ownerCore flags payload, hrest⟩
  · intro j i _ hj
    exact ⟨CapTable.SameSlot.refl c j, (hcap j i).mpr hj, rfl⟩
  · intro t req ty e _
    rw [capCheck_congr (capLookup_objectCreate h.wf type ownerCore flags payload t)]
  · intro j i hj
    exact .inr ((hcap j i).mp hj)

/-- The slots after a record was written over one that is not in use. -/
theorem GrantRecords.slots_update (h : GrantRecords o c g) {slot : UserGrantSlot}
    (hslot : slot.objectId ≠ 0 → GrantObject o slot.objectId i) (i' : Fin maxUserGrants)
    (hi' : (Function.update g.user i slot i').objectId ≠ 0) :
    GrantObject o (Function.update g.user i slot i').objectId i' := by
  by_cases heq : i' = i
  · rw [heq, Function.update_self] at hi' ⊢
    exact hslot hi'
  · rw [Function.update_of_ne heq] at hi' ⊢
    exact h.slots i' hi'

/-- Writing a record that is not in use over one that is not. -/
theorem GrantRecords.setSlot (h : GrantRecords o c g)
    (hi : (g.user i).objectId = 0 ∨ (g.user i).revoked = true) {slot : UserGrantSlot}
    (hslot : slot.objectId ≠ 0 → GrantObject o slot.objectId i) (N : Fin maxCaps → Prop) :
    GrantStep N o c g o c { g with user := Function.update g.user i slot } := by
  have hkeep : ∀ j i', IsGrantCap o c j i' → Function.update g.user i slot i' = g.user i' :=
    fun j i' hj => Function.update_of_ne (h.slot_ne hj hi) _ _
  refine ⟨⟨h.wf, ?_, h.slots_update hslot⟩, ⟨?_, fun _ _ _ _ _ => Iff.rfl⟩, fun _ _ => .inr, rfl⟩
  · intro j i' hj
    have hlive := h.live j i' hj
    exact hlive.congr rfl (hkeep j i' hj) hlive.sole
  · intro j i' _ hj
    exact ⟨CapTable.SameSlot.refl c j, hj, hkeep j i' hj⟩

/-- Minting the token of a grant that has none, with a fresh record. -/
theorem GrantRecords.mintGrant (h : GrantRecords o c g)
    (hi : (g.user i).objectId = 0 ∨ (g.user i).revoked = true) (slot : UserGrantSlot)
    (hobject : GrantObject o slot.objectId i)
    (hnone : ∀ j, c.occupied j = true → (c.entry j).objectId ≠ slot.objectId)
    (hrevoked : slot.revoked = false) (hrights : slot.rights ≠ 0)
    (hmask : slot.rights &&& ~~~grantRightsMask = 0) (hlength : slot.length ≠ 0)
    {k : Fin maxCaps} {object : Object} (hob : objectLookup o slot.objectId = .ok object)
    (hfree : c.occupied k = false) (hr : userGrantRights slot.rights ≠ 0) :
    GrantStep (· = k) o c g o (c.mintSlot k object (userGrantRights slot.rights))
        { g with user := Function.update g.user i slot } ∧
      IsGrantCap o (c.mintSlot k object (userGrantRights slot.rights)) k i := by
  have hid : object.id = slot.objectId := by
    obtain ⟨_, _, _, hid⟩ := (objectLookup_eq_ok h.wf.objects).mp hob
    exact hid
  have htype : object.type = ObjType.grant := by
    obtain ⟨object', hob', htype, _⟩ := hobject
    obtain rfl := Except.ok.inj (hob.symm.trans hob')
    exact htype
  have hold : ∀ j i', j ≠ k → (IsGrantCap o (c.mintSlot k object (userGrantRights slot.rights)) j i' ↔
      IsGrantCap o c j i') := by
    intro j i' hjk
    unfold IsGrantCap
    rw [CapTable.mintSlot_occupied_ne _ _ _ _ hjk, CapTable.mintSlot_entry_ne _ _ _ _ hjk]
  have hkeep : ∀ j i', IsGrantCap o c j i' → Function.update g.user i slot i' = g.user i' :=
    fun j i' hj => Function.update_of_ne (h.slot_ne hj hi) _ _
  -- The new token is a grant of slot `i`.
  have hnew : IsGrantCap o (c.mintSlot k object (userGrantRights slot.rights)) k i := by
    refine ⟨CapTable.mintSlot_occupied_self h.wf.objects c k _ hob, ?_⟩
    rw [CapTable.mintSlot_entry_self]
    dsimp only
    rw [hid]
    exact hobject
  refine ⟨⟨⟨tablesWf_mintSlot h.wf k hr hob, ?_, h.slots_update fun _ => hobject⟩, ⟨?_, ?_⟩, ?_, rfl⟩,
    hnew⟩
  · intro j i' hj
    by_cases hjk : j = k
    · subst hjk
      obtain rfl := hj.unique hnew
      have hsole := CapTable.sole_mintSlot_of_none (hid ▸ hnone) j (userGrantRights slot.rights)
      constructor
      · simp [hid]
      · simpa using hrevoked
      · exact hsole
      · simp
      · simpa using hrights
      · simpa using hmask
      · simpa using hlength
    · have hj' := (hold j i' hjk).mp hj
      have hlive := h.live j i' hj'
      have hne : object.id ≠ (c.entry j).objectId := by
        rw [hid]
        exact (hnone j hj'.1).symm
      exact hlive.congr (CapTable.mintSlot_entry_ne _ _ _ _ hjk) (hkeep j i' hj')
        (hlive.sole.mintSlot hjk hne _)
  · intro j i' _ hj
    have hjk := CapTable.ne_of_occupied hfree hj.1
    exact ⟨CapTable.sameSlot_mintSlot hjk _ _, (hold j i' hjk).mpr hj, hkeep j i' hj⟩
  · intro t req ty e hty
    have hne : ty ≠ ObjType.none ∧ object.type ≠ ty := by
      rw [htype]
      rcases hty with rfl | rfl
      · decide
      · decide
    exact capCheck_mintSlot_iff h.wf hr hob hfree hne.1 hne.2
  · intro j i' hj
    by_cases hjk : j = k
    · exact .inl hjk
    · exact .inr ((hold j i' hjk).mp hj)

/-- An object of another type is no user grant, so the grants are those from before. -/
theorem grantObject_of_grown {type : UInt32} {payload : Payload} {o' : ObjectTable} {c' : CapTable}
    (hwf : TablesWf o c) (hgrown : TablesGrown type payload o c o' c')
    (htype : type ≠ ObjType.grant) {id : UInt64} (hgrant : GrantObject o' id i) :
    GrantObject o id i := by
  obtain ⟨object, hob, hgr, hpay⟩ := hgrant
  rcases hgrown.lookup_cases hwf hob with hold | hnew
  · exact ⟨object, hold, hgr, hpay⟩
  · exact absurd (hnew.1.symm.trans hgr) htype

/-- The tokens of grants after a new object of another type was created with its
    token. -/
theorem isGrantCap_of_grown {type : UInt32} {payload : Payload} {o' : ObjectTable} {c' : CapTable}
    (hwf : TablesWf o c) (hgrown : TablesGrown type payload o c o' c')
    (htype : type ≠ ObjType.grant) {j : Fin maxCaps} (hj : IsGrantCap o' c' j i) :
    c.SameSlot c' j ∧ IsGrantCap o c j i := by
  obtain ⟨hocc, object, hob, hgr, hpay⟩ := hj
  have hold : c.occupied j = true := by
    rcases hgrown.occupied_cases hwf hocc with hold | ⟨object', hob', hty, _⟩
    · exact hold
    · obtain rfl := Except.ok.inj (hob'.symm.trans hob)
      exact absurd (hty.symm.trans hgr) htype
  have hsame := hgrown.sameSlot hold
  refine ⟨hsame, hold, ?_⟩
  rw [← hsame.1]
  exact grantObject_of_grown hwf hgrown htype ⟨object, hob, hgr, hpay⟩

/-- A new object of another type, with its token. -/
theorem GrantRecords.grow (h : GrantRecords o c g) {type : UInt32} {payload : Payload}
    {o' : ObjectTable} {c' : CapTable} (hgrown : TablesGrown type payload o c o' c')
    (htype : type ≠ ObjType.grant) : GrantRecords o' c' g := by
  refine ⟨hgrown.wf h.wf, ?_, ?_⟩
  · intro j i hj
    obtain ⟨hsame, hj'⟩ := isGrantCap_of_grown h.wf hgrown htype hj
    have hlive := h.live j i hj'
    have hsole : c'.Sole j := by
      intro j' hocc heq
      rcases hgrown.occupied_cases h.wf hocc with hold | ⟨_, _, _, _, hfresh⟩
      · rw [(hgrown.sameSlot hold).1, hsame.1] at heq
        exact hlive.sole j' hold heq
      · -- The object of a new token is new.
        obtain ⟨object, hob, _⟩ := hj'.2
        rw [heq, hsame.1] at hfresh
        exact absurd hob (hfresh object)
    exact hlive.congr hsame.1 rfl hsole
  · intro i hi
    obtain ⟨object, hob, hrest⟩ := h.slots i hi
    exact ⟨object, hgrown.lookup h.wf hob, hrest⟩

/-- What `scdk_user_grant_create` with these terms can do: leave the live grants
    as they are, or mint the token of a fresh record with the terms. -/
inductive GrantCreated (o : ObjectTable) (c : CapTable) (g : GrantTables)
    (sourceTask userBase length rights targetEndpoint : UInt64) :
    Except Err UInt64 × ObjectTable × CapTable × GrantTables → Prop where
  | refused {e : Err} {o' : ObjectTable} {c' : CapTable} {g' : GrantTables} :
      GrantStep (fun _ => False) o c g o' c' g' →
      GrantCreated o c g sourceTask userBase length rights targetEndpoint (.error e, o', c', g')
  | minted {k : Fin maxCaps} {i : Fin maxUserGrants} {o' : ObjectTable} {c' : CapTable}
      {g' : GrantTables} {id : UInt64} :
      GrantStep (· = k) o c g o' c' g' → IsGrantCap o' c' k i →
      g'.user i = ⟨id, sourceTask, targetEndpoint, userBase, length, rights, 1, false⟩ →
      liveBinding o' c' (g'.user i) = .ok () →
      GrantCreated o c g sourceTask userBase length rights targetEndpoint
        (.ok (c'.token k), o', c', g')

/-- A step before the creation that leaves the live grants as they are. -/
theorem GrantCreated.after {o' : ObjectTable} {c' : CapTable} {g' : GrantTables}
    {sourceTask userBase length rights targetEndpoint : UInt64}
    {out : Except Err UInt64 × ObjectTable × CapTable × GrantTables}
    (hstep : ∀ N, GrantStep N o c g o' c' g')
    (h : GrantCreated o' c' g' sourceTask userBase length rights targetEndpoint out) :
    GrantCreated o c g sourceTask userBase length rights targetEndpoint out := by
  cases h with
  | refused hnext => exact .refused ((hstep _).trans hnext)
  | minted hnext hcap hrec hbound => exact .minted ((hstep _).trans hnext) hcap hrec hbound

section create

variable {sourceTask length rights targetEndpoint : UInt64} (userBase : UInt64)

/-- The end of the loop body of `scdk_user_grant_create`. -/
theorem GrantRecords.fill (h : GrantRecords o c g)
    (hi : (g.user i).objectId = 0 ∨ (g.user i).revoked = true) {objectId : UInt64}
    (hobject : GrantObject o objectId i)
    (hnone : ∀ j, c.occupied j = true → (c.entry j).objectId ≠ objectId) (reuse : Bool)
    (hlength : length ≠ 0) (hrights : rights ≠ 0) (hmask : rights &&& ~~~grantRightsMask = 0)
    (htask : ∃ e, capCheck o c sourceTask Right.read ObjType.task = .ok e)
    (hendpoint : ∃ e, capCheck o c targetEndpoint Right.send ObjType.endpoint = .ok e) :
    GrantCreated o c g sourceTask userBase length rights targetEndpoint
      (userGrantFill o c g i reuse objectId sourceTask userBase length rights targetEndpoint) := by
  unfold userGrantFill
  rcases capCreate_cases o c objectId (userGrantRights rights) with
    ⟨e, hcap⟩ | ⟨k, object, hr, hob, hfree, hcap⟩
  · rw [hcap]
    refine .refused (h.setSlot hi ?_ _)
    intro hne
    -- A reused slot keeps its object, a new one is given back.
    cases reuse with
    | true => exact hobject
    | false => exact absurd rfl hne
  · rw [hcap]
    obtain ⟨hstep, hnew⟩ := h.mintGrant hi
      ⟨objectId, sourceTask, targetEndpoint, userBase, length, rights, 1, false⟩
      hobject hnone rfl hrights hmask hlength hob hfree hr
    refine .minted hstep hnew (Function.update_self _ _ _) ?_
    dsimp only
    rw [hstep.kept.liveBinding, Function.update_self]
    exact liveBinding_eq_ok.mpr ⟨htask, hendpoint⟩

theorem GrantRecords.createSlot (h : GrantRecords o c g)
    (hi : (g.user i).objectId = 0 ∨ (g.user i).revoked = true)
    (hlength : length ≠ 0) (hrights : rights ≠ 0) (hmask : rights &&& ~~~grantRightsMask = 0)
    (htask : ∃ e, capCheck o c sourceTask Right.read ObjType.task = .ok e)
    (hendpoint : ∃ e, capCheck o c targetEndpoint Right.send ObjType.endpoint = .ok e) :
    GrantCreated o c g sourceTask userBase length rights targetEndpoint
      (userGrantCreateSlot o c g i sourceTask userBase length rights targetEndpoint) := by
  unfold userGrantCreateSlot
  split
  · next hne =>
    -- The object of a revoked record has no live token.
    have hobject := h.slots i hne
    have hrevoked : (g.user i).revoked = true := by
      rcases hi with h0 | hrevoked
      · exact absurd h0 hne
      · exact hrevoked
    have hnone : ∀ j, c.occupied j = true → (c.entry j).objectId ≠ (g.user i).objectId := by
      intro j hj heq
      have hcap : IsGrantCap o c j i := ⟨hj, heq ▸ hobject⟩
      exact h.slot_ne hcap (.inr hrevoked) rfl
    exact h.fill userBase hi hobject hnone true hlength hrights hmask htask hendpoint
  · rcases objectCreate_cases o ObjType.grant bootCore 0 (.userGrant i) with
      ⟨e, hc⟩ | ⟨_, objectId, _, _, _, hc⟩
    · rw [hc]
      exact .refused (GrantStep.refl h _)
    · have hstep := h.newObject ObjType.grant bootCore 0 (.userGrant i)
      obtain ⟨o', hc⟩ : ∃ o', objectCreate o ObjType.grant bootCore 0 (.userGrant i) =
          (.ok objectId, o') := ⟨_, hc⟩
      rw [hc] at hstep ⊢
      dsimp only at hstep ⊢
      have hkept := (hstep fun _ => True).kept
      obtain ⟨gen, hnew⟩ := objectLookup_of_objectCreate h.wf.objects hc
      have hobject : GrantObject o' objectId i := ⟨_, hnew, rfl, rfl⟩
      have htask' : ∃ e, capCheck o' c sourceTask Right.read ObjType.task = .ok e := by
        obtain ⟨e, he⟩ := htask
        exact ⟨e, (hkept.checks _ _ _ _ (.inl rfl)).mpr he⟩
      have hendpoint' : ∃ e, capCheck o' c targetEndpoint Right.send ObjType.endpoint = .ok e := by
        obtain ⟨e, he⟩ := hendpoint
        exact ⟨e, (hkept.checks _ _ _ _ (.inr rfl)).mpr he⟩
      have hnone : ∀ j, c.occupied j = true → (c.entry j).objectId ≠ objectId :=
        fun j hj => h.wf.objectId_ne (objectLookup_fresh h.wf.objects hc) hj
      exact .after hstep ((hstep fun _ => True).records.fill userBase hi hobject hnone false
        hlength hrights hmask htask' hendpoint')

end create

/-- What `scdk_user_grant_create` does to the records. -/
theorem GrantRecords.create (h : GrantRecords o c g) (v : Vmm)
    (sourceTask userBase length rights targetEndpoint : UInt64) :
    GrantCreated o c g sourceTask userBase length rights targetEndpoint
      (userGrantCreate o c g v sourceTask userBase length rights targetEndpoint) := by
  have hsame : ∀ e : Err, GrantCreated o c g sourceTask userBase length rights targetEndpoint
      (.error e, o, c, g) := fun e => .refused (GrantStep.refl h _)
  unfold userGrantCreate
  split
  · exact hsame _
  · next hargs =>
    simp only [not_or, ne_eq, not_not] at hargs
    obtain ⟨_, _, hlength, hrights, hmask, _⟩ := hargs
    split
    · exact hsame _
    next entry htask =>
    split
    · exact hsame _
    next entry' hendpoint =>
    split
    · exact hsame _
    split
    · exact hsame _
    · next i hfind =>
      have hi := (Slots.firstSlot_eq_some hfind).1
      rw [Bool.or_eq_true, beq_iff_eq] at hi
      exact h.createSlot userBase hi hlength hrights hmask ⟨entry, htask⟩ ⟨entry', hendpoint⟩

theorem Payload.grantRef_eq_user {payload : Payload}
    (h : payload.grantRef = some (.user i)) : payload = .userGrant i := by
  cases payload with
  | userGrant i' =>
    obtain rfl := UserGrantRef.user.inj (Option.some.inj h)
    rfl
  | grant i' => cases h
  | _ => cases h

/-- What `scdk_user_grant_revoke` can do: refuse, or revoke one token and its
    record. -/
theorem userGrantRevoke_cases (h : TablesWf o c) (g : GrantTables) (grantCap : UInt64) :
    (∃ e, userGrantLookup o c g grantCap Right.revoke false = .error e ∧
      userGrantRevoke o c g grantCap = (.error e, c, g)) ∨
    ∃ j ref, userGrantLookup o c g grantCap Right.revoke false = .ok ref ∧
      c.occupied j = true ∧ grantCap = c.token j ∧ (c.entry j).objectType = ObjType.grant ∧
      (∀ i, ref = .user i → IsGrantCap o c j i) ∧
      userGrantRevoke o c g grantCap = (.ok (), c.revokeSlot j, g.setRevoked ref) := by
  unfold userGrantRevoke
  cases hl : userGrantLookup o c g grantCap Right.revoke false with
  | error e => exact .inl ⟨e, rfl, rfl⟩
  | ok ref =>
    right
    obtain ⟨entry, object, hcheck, hob, hpay, _, _, _⟩ := userGrantLookup_found hl
    obtain ⟨_, j, hocc, rfl, rfl, hgr⟩ := (capCheck_eq_ok h).mp hcheck
    have htype : (c.entry j).objectType = ObjType.grant := by
      rcases hgr.1 with hnone | htype
      · exact absurd hnone (by decide)
      · exact htype
    obtain ⟨object', hob', _, _, hobtype⟩ := h.object j hocc
    obtain rfl := Except.ok.inj (hob.symm.trans hob')
    have hcap : ∀ i, ref = .user i → IsGrantCap o c j i := by
      intro i hi
      rw [hi] at hpay
      exact ⟨hocc, object, hob, hobtype.trans htype, Payload.grantRef_eq_user hpay⟩
    refine ⟨j, ref, rfl, hocc, rfl, htype, hcap, ?_⟩
    rcases capRevoke_cases h (c.token j) with ⟨e, hlook, _⟩ | ⟨k, _, htoken, hrev⟩
    · have hok := (capLookup_eq_ok h).mpr ⟨j, hocc, rfl, rfl⟩
      rw [hlook] at hok
      cases hok
    · obtain rfl := CapTable.token_injective htoken
      rw [hrev]

theorem GrantTables.setRevoked_objectId (g : GrantTables) (ref : UserGrantRef)
    (i : Fin maxUserGrants) : ((g.setRevoked ref).user i).objectId = (g.user i).objectId := by
  cases ref with
  | user i' =>
    by_cases heq : i = i'
    · subst heq
      simp [GrantTables.setRevoked]
    · simp [GrantTables.setRevoked, heq]
  | kernel i' => rfl

theorem GrantTables.setRevoked_ne (g : GrantTables) {ref : UserGrantRef} {i : Fin maxUserGrants}
    (h : ref ≠ .user i) : (g.setRevoked ref).user i = g.user i := by
  cases ref with
  | user i' =>
    have hne : i ≠ i' := by
      intro heq
      exact h (by rw [heq])
    simp [GrantTables.setRevoked, hne]
  | kernel i' => rfl

/-- The live grants after a token was revoked. -/
theorem isGrantCap_revokeSlot {j j' : Fin maxCaps} :
    IsGrantCap o (c.revokeSlot j) j' i ↔ j' ≠ j ∧ IsGrantCap o c j' i := by
  unfold IsGrantCap
  by_cases heq : j' = j
  · rw [heq, CapTable.revokeSlot_occupied_self]
    simp
  · rw [CapTable.revokeSlot_occupied_ne _ _ heq, CapTable.revokeSlot_entry_ne _ _ heq]
    simp [heq]

/-- Revoking one token, where the record of every other live grant stays. -/
theorem GrantRecords.revoke (h : GrantRecords o c g) {j : Fin maxCaps} {g' : GrantTables}
    (hrec : ∀ j' i, j' ≠ j → IsGrantCap o c j' i → g'.user i = g.user i)
    (hid : ∀ i, (g'.user i).objectId = (g.user i).objectId) :
    GrantRecords o (c.revokeSlot j) g' := by
  refine ⟨tablesWf_revokeSlot h.wf j, ?_, ?_⟩
  · intro j' i hj'
    obtain ⟨hne, hj⟩ := isGrantCap_revokeSlot.mp hj'
    have hlive := h.live j' i hj
    exact hlive.congr (CapTable.revokeSlot_entry_ne _ _ hne) (hrec j' i hne hj)
      (hlive.sole.revokeSlot hne)
  · intro i hi
    rw [hid] at hi ⊢
    exact h.slots i hi

/-- `scdk_user_grant_revoke` changes the record of the token it revokes only. -/
theorem GrantRecords.setRevoked_user (h : GrantRecords o c g) {j : Fin maxCaps} {ref : UserGrantRef}
    (hcap : ∀ i, ref = .user i → IsGrantCap o c j i) (j' : Fin maxCaps) (i : Fin maxUserGrants)
    (hne : j' ≠ j) (hj' : IsGrantCap o c j' i) : (g.setRevoked ref).user i = g.user i := by
  apply g.setRevoked_ne
  intro href
  exact hne (h.cap_unique hj' (hcap i href))

end steps

end Scdk
