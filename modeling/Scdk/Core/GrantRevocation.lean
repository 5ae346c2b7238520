import Scdk.Core.GrantRefinement

/-! # Tokens of a revoked grant

    Runs in which a grant object may get further tokens.  Revoking a grant through
    one of its tokens leaves the others in the capability table; they are refused
    because the record of the grant says that it is revoked, until a creation
    takes that record again.

    * `siblingSystem`: the tables, driven by creations, revocations and
      `scdk_cap_create`,
    * `Reopens`, `Reissues`: the two ways in which a later call gives access to
      such a token,
    * `KeptOut`: what keeps a token out,
    * `revocation_survives`: when no later call does either, the token is refused
      in every later state. -/

namespace Scdk

/-! ## The calls -/

/-- The calls of a run. -/
inductive SiblingCall where
  | create (v : Vmm) (terms : GrantTerms)
  | revoke (grant : UInt64)
  | capCreate (objectId rights : UInt64)

def siblingStep (s : GrantState) : SiblingCall → Except Err UInt64 × GrantState
  | .create v terms => grantStep s (.create v terms)
  | .revoke grant => grantStep s (.revoke grant)
  | .capCreate objectId rights =>
      let (r, caps) := capCreate s.objects s.caps objectId rights
      (r, { s with caps })

/-- The tables, driven by any of these calls. -/
def siblingSystem : System GrantState SiblingCall (Except Err UInt64) where
  init := GrantStart
  step := siblingStep

/-- `t` is a live token of the object `id`. -/
def GrantState.TokenOf (s : GrantState) (t id : UInt64) : Prop :=
  ∃ j, s.caps.occupied j = true ∧ t = s.caps.token j ∧ (s.caps.entry j).objectId = id

/-- The checks of `scdk_user_grant_create` on its arguments. -/
structure GrantTerms.Acceptable (terms : GrantTerms) (s : GrantState) (v : Vmm) : Prop where
  args : ¬ (terms.sourceTask = 0 ∨ terms.userBase = 0 ∨ terms.length = 0 ∨ terms.rights = 0 ∨
    terms.rights &&& ~~~grantRightsMask ≠ 0 ∨ terms.targetEndpoint = 0)
  task : ∃ e, capCheck s.objects s.caps terms.sourceTask Right.read ObjType.task = .ok e
  endpoint : ∃ e, capCheck s.objects s.caps terms.targetEndpoint Right.send ObjType.endpoint = .ok e
  range : checkedUserRange v terms.userBase terms.length (terms.rights &&& Right.write ≠ 0) = .ok ()

/-- The record that the next creation takes. -/
def GrantState.nextRecord (s : GrantState) : Option (Fin maxUserGrants) :=
  Slots.firstSlot fun i => (s.grants.user i).objectId == 0 || (s.grants.user i).revoked

/-- The creation takes the record of a grant that has `t` as a live token, and its
    rights are not foreign to `t`. -/
def Reopens (t : UInt64) (s : GrantState) (v : Vmm) (terms : GrantTerms) : Prop :=
  terms.Acceptable s v ∧ ∃ j i, s.caps.occupied j = true ∧ t = s.caps.token j ∧
    s.nextRecord = some i ∧ (s.grants.user i).objectId = (s.caps.entry j).objectId ∧
    (s.caps.entry j).rights &&& terms.rights ≠ 0

/-- The next token of the capability table is `t` again: the generation of its
    slot has come round to the value it had in `t`. -/
def Reissues (t : UInt64) (s : GrantState) : Prop :=
  ∃ j, Slots.firstSlot (fun j => !s.caps.occupied j) = some j ∧
    t = capMakeToken (Handle.slotWord j) (Handle.bump (s.caps.generations j))

/-- The call gives no access to `t`. -/
def KeepsOut (t : UInt64) (s : GrantState) : SiblingCall → Prop
  | .create v terms => ¬ Reopens t s v terms ∧ ¬ Reissues t s
  | .revoke _ => True
  | .capCreate _ _ => ¬ Reissues t s

/-! ## Steps -/

/-- What keeps the token `t` of the grant `id` out: while it is live, the record
    of the grant is revoked, or has no right in common with the token. -/
structure KeptOut (t id : UInt64) (i : Fin maxUserGrants) (s : GrantState) : Prop where
  wf : TablesWf s.objects s.caps
  object : GrantObject s.objects id i
  record : (s.grants.user i).objectId = id
  token : ∀ j, s.caps.occupied j = true → t = s.caps.token j → (s.caps.entry j).objectId = id ∧
    ((s.grants.user i).revoked = true ∨ (s.caps.entry j).rights &&& (s.grants.user i).rights = 0)

section steps

variable {s : GrantState} {t id : UInt64} {i : Fin maxUserGrants}

theorem KeptOut.verdict (h : KeptOut t id i s) (offset length r : UInt64) :
    s.verdict t offset length r ≠ .ok () := by
  unfold GrantState.verdict validateGrantAccess
  intro hok
  cases hlook : userGrantLookup s.objects s.caps s.grants t r true with
  | error e =>
    rw [hlook] at hok
    cases hok
  | ok ref =>
    rw [hlook] at hok
    obtain ⟨entry, object, hcheck, hob, hpay, _, hrev, _⟩ := userGrantLookup_found hlook
    obtain ⟨_, j, hocc, htoken, rfl, _, hgiven⟩ := (capCheck_eq_ok h.wf).mp hcheck
    obtain ⟨hid, hout⟩ := h.token j hocc htoken
    -- The record that the lookup has found is that of the grant.
    obtain ⟨object', hob', _, hpay'⟩ := h.object
    rw [hid] at hob
    obtain rfl := Except.ok.inj (hob.symm.trans hob')
    rw [hpay'] at hpay
    obtain rfl := Option.some.inj hpay
    have hallow := checkGrantRange_eq_ok.mp hok
    rcases hout with hrevoked | hnone
    · rw [show (s.grants.slot (.user i)).revoked = (s.grants.user i).revoked from rfl,
        hrevoked] at hrev
      cases hrev
    · have hrecord : (s.grants.user i).rights &&& r = r := hallow.given
      apply hallow.nonzero
      rw [← hgiven, ← hrecord, ← UInt64.and_assoc, hnone, UInt64.zero_and]

/-- Minting a token that is not `t`. -/
theorem KeptOut.mint (h : KeptOut t id i s) {objectId rights : UInt64} {object : Object}
    {k : Fin maxCaps} (hr : rights ≠ 0) (hob : objectLookup s.objects objectId = .ok object)
    (hne : t ≠ (s.caps.mintSlot k object rights).token k) :
    KeptOut t id i { s with caps := s.caps.mintSlot k object rights } := by
  refine ⟨tablesWf_mintSlot h.wf k hr hob, h.object, h.record, ?_⟩
  intro j hocc htoken
  have hjk : j ≠ k := by
    intro heq
    rw [heq] at htoken
    exact hne htoken
  dsimp only at hocc htoken ⊢
  rw [CapTable.mintSlot_occupied_ne _ _ _ _ hjk] at hocc
  rw [CapTable.mintSlot_token_ne _ _ _ _ hjk] at htoken
  rw [CapTable.mintSlot_entry_ne _ _ _ _ hjk]
  exact h.token j hocc htoken

/-- Writing a record that keeps `t` out. -/
theorem KeptOut.setRecord (h : KeptOut t id i s) {i' : Fin maxUserGrants} {slot : UserGrantSlot}
    (hslot : i' = i → slot.objectId = id ∧ (slot.revoked = true ∨
      ∀ j, s.caps.occupied j = true → t = s.caps.token j →
        (s.caps.entry j).rights &&& slot.rights = 0)) :
    KeptOut t id i
      { s with grants := { s.grants with user := Function.update s.grants.user i' slot } } := by
  by_cases heq : i' = i
  · obtain ⟨hid, hout⟩ := hslot heq
    subst heq
    refine ⟨h.wf, h.object, ?_, ?_⟩
    · dsimp only
      rw [Function.update_self]
      exact hid
    · intro j hocc htoken
      refine ⟨(h.token j hocc htoken).1, ?_⟩
      dsimp only
      rw [Function.update_self]
      rcases hout with hrevoked | hnone
      · exact .inl hrevoked
      · exact .inr (hnone j hocc htoken)
  · have hkeep : Function.update s.grants.user i' slot i = s.grants.user i :=
      Function.update_of_ne (Ne.symm heq) _ _
    refine ⟨h.wf, h.object, ?_, ?_⟩
    · dsimp only
      rw [hkeep]
      exact h.record
    · intro j hocc htoken
      dsimp only
      rw [hkeep]
      exact h.token j hocc htoken

/-- The token that a capability is created with. -/
theorem capCreate_token {o : ObjectTable} {c c' : CapTable} {objectId rights : UInt64}
    (h : capCreate o c objectId rights = (.ok t, c')) :
    ∃ j, Slots.firstSlot (fun j => !c.occupied j) = some j ∧
      t = capMakeToken (Handle.slotWord j) (Handle.bump (c.generations j)) := by
  unfold capCreate at h
  split at h
  · cases h
  split at h
  · cases h
  unfold capCreateSlot at h
  split at h
  · cases h
  · next j hj => exact ⟨j, hj, (Except.ok.inj (Prod.mk.inj h).1).symm⟩

theorem KeptOut.capCreate (h : KeptOut t id i s) (objectId rights : UInt64)
    (hne : ¬ Reissues t s) :
    KeptOut t id i { s with caps := (capCreate s.objects s.caps objectId rights).2 } := by
  rcases capCreate_cases s.objects s.caps objectId rights with
    ⟨e, hcap⟩ | ⟨k, object, hr, hob, _, hcap⟩
  · rw [hcap]
    exact h
  · obtain ⟨j, hfirst, htoken⟩ := capCreate_token hcap
    rw [hcap]
    apply h.mint hr hob
    intro heq
    exact hne ⟨j, hfirst, heq.trans htoken⟩

/-- The end of the loop body of `scdk_user_grant_create`, for the record `i'`. -/
theorem KeptOut.fill (h : KeptOut t id i s) (hne : ¬ Reissues t s) (i' : Fin maxUserGrants)
    (reuse : Bool) (objectId : UInt64) (terms : GrantTerms)
    (hreuse : i' = i → reuse = true ∧ objectId = id ∧
      ∀ j, s.caps.occupied j = true → t = s.caps.token j →
        (s.caps.entry j).rights &&& terms.rights = 0) :
    ∃ r c' g', userGrantFill s.objects s.caps s.grants i' reuse objectId terms.sourceTask
        terms.userBase terms.length terms.rights terms.targetEndpoint = (r, s.objects, c', g') ∧
      KeptOut t id i ⟨s.objects, c', g'⟩ := by
  have hcaps := h.capCreate objectId (userGrantRights terms.rights) hne
  unfold userGrantFill
  rcases hcap : Scdk.capCreate s.objects s.caps objectId (userGrantRights terms.rights) with ⟨r, c'⟩
  rw [hcap] at hcaps
  cases r with
  | error e =>
    refine ⟨_, _, _, rfl, hcaps.setRecord ?_⟩
    intro heq
    obtain ⟨rfl, rfl, _⟩ := hreuse heq
    exact ⟨rfl, .inl rfl⟩
  | ok cap =>
    refine ⟨_, _, _, rfl, hcaps.setRecord ?_⟩
    intro heq
    obtain ⟨_, rfl, hnone⟩ := hreuse heq
    refine ⟨rfl, .inr ?_⟩
    intro j hocc htoken
    dsimp only at hocc htoken ⊢
    -- The token that was minted is another one, so `t` was live before.
    rcases capCreate_cases s.objects s.caps objectId (userGrantRights terms.rights) with
      ⟨e, hcap'⟩ | ⟨k, object, _, _, _, hcap'⟩
    · rw [hcap] at hcap'
      cases hcap'
    · rw [hcap] at hcap'
      obtain ⟨hr, rfl⟩ := Prod.mk.inj hcap'
      have hjk : j ≠ k := by
        intro heq
        obtain ⟨j', hfirst, hnew⟩ := capCreate_token hcap
        refine hne ⟨j', hfirst, ?_⟩
        rw [htoken, heq, ← hnew]
        exact (Except.ok.inj hr).symm
      rw [CapTable.mintSlot_occupied_ne _ _ _ _ hjk] at hocc
      rw [CapTable.mintSlot_token_ne _ _ _ _ hjk] at htoken
      rw [CapTable.mintSlot_entry_ne _ _ _ _ hjk]
      exact hnone j hocc htoken

/-- What `scdk_user_grant_create` can do: refuse, or take the next record. -/
theorem userGrantCreate_cases (s : GrantState) (v : Vmm) (terms : GrantTerms) :
    (∃ e, grantStep s (.create v terms) = (.error e, s)) ∨
    ∃ i', terms.Acceptable s v ∧ s.nextRecord = some i' ∧
      userGrantCreate s.objects s.caps s.grants v terms.sourceTask terms.userBase terms.length
          terms.rights terms.targetEndpoint =
        userGrantCreateSlot s.objects s.caps s.grants i' terms.sourceTask terms.userBase
          terms.length terms.rights terms.targetEndpoint := by
  unfold grantStep userGrantCreate
  by_cases hargs : terms.sourceTask = 0 ∨ terms.userBase = 0 ∨ terms.length = 0 ∨
      terms.rights = 0 ∨ terms.rights &&& ~~~grantRightsMask ≠ 0 ∨ terms.targetEndpoint = 0
  · simp only [if_pos hargs]
    exact .inl ⟨_, rfl⟩
  simp only [if_neg hargs]
  cases htask : capCheck s.objects s.caps terms.sourceTask Right.read ObjType.task with
  | error e => exact .inl ⟨e, rfl⟩
  | ok entry =>
    cases hendpoint : capCheck s.objects s.caps terms.targetEndpoint Right.send ObjType.endpoint with
    | error e => exact .inl ⟨e, rfl⟩
    | ok entry' =>
      cases hrange : checkedUserRange v terms.userBase terms.length
        (terms.rights &&& Right.write ≠ 0) with
      | error e => exact .inl ⟨e, rfl⟩
      | ok u =>
        cases hnext : s.nextRecord with
        | none =>
          unfold GrantState.nextRecord at hnext
          simp only [hnext]
          exact .inl ⟨_, rfl⟩
        | some i' =>
          unfold GrantState.nextRecord at hnext
          simp only [hnext]
          exact .inr ⟨i', ⟨hargs, ⟨entry, htask⟩, ⟨entry', hendpoint⟩, hrange⟩, rfl, rfl⟩

/-- A creation that does not reopen the grant. -/
theorem KeptOut.create (h : KeptOut t id i s) {v : Vmm} {terms : GrantTerms}
    (hopen : ¬ Reopens t s v terms) (hne : ¬ Reissues t s) :
    KeptOut t id i (grantStep s (.create v terms)).2 := by
  rcases userGrantCreate_cases s v terms with ⟨e, hrun⟩ | ⟨i', hacc, hnext, hrun⟩
  · rw [hrun]
    exact h
  simp only [grantStep, hrun]
  unfold userGrantCreateSlot
  have hid : id ≠ 0 := by
    obtain ⟨object, hob, _⟩ := h.object
    obtain ⟨_, rfl, htype, rfl⟩ := (objectLookup_eq_ok h.wf.objects).mp hob
    exact h.wf.objects.id_ne_zero htype
  split
  · next hused =>
    -- The record keeps its object; if it is that of the grant, `t` has none of the rights.
    have hreuse : i' = i → true = true ∧ (s.grants.user i').objectId = id ∧
        ∀ j, s.caps.occupied j = true → t = s.caps.token j →
          (s.caps.entry j).rights &&& terms.rights = 0 := by
      intro heq
      refine ⟨rfl, by rw [heq, h.record], ?_⟩
      intro j hocc htoken
      by_contra hshare
      refine hopen ⟨hacc, j, i', hocc, htoken, hnext, ?_, hshare⟩
      rw [heq, h.record, (h.token j hocc htoken).1]
    obtain ⟨r, c', g', hfill, hout⟩ := h.fill hne i' true _ terms hreuse
    rw [hfill]
    exact hout
  · next hfree =>
    have hii : i' ≠ i := by
      intro heq
      rw [heq, h.record] at hfree
      exact hfree hid
    rcases objectCreate_cases s.objects ObjType.grant bootCore 0 (.userGrant i') with
      ⟨e, hc⟩ | ⟨_, objectId, _, _, _, hc⟩
    · rw [hc]
      exact h
    · have hwf := tablesWf_objectCreate h.wf ObjType.grant bootCore 0 (.userGrant i')
      obtain ⟨object, hob, hrest⟩ := h.object
      have hkeep := objectLookup_objectCreate h.wf.objects hob ObjType.grant bootCore 0 (.userGrant i')
      obtain ⟨o', hc⟩ : ∃ o', objectCreate s.objects ObjType.grant bootCore 0 (.userGrant i') =
          (.ok objectId, o') := ⟨_, hc⟩
      rw [hc] at hwf hkeep ⊢
      have hnew : KeptOut t id i { s with objects := o' } :=
        ⟨hwf, ⟨object, hkeep, hrest⟩, h.record, h.token⟩
      obtain ⟨r, c', g', hfill, hout⟩ := hnew.fill hne i' false objectId terms
        fun heq => absurd heq hii
      dsimp only at hfill ⊢
      rw [hfill]
      exact hout

/-- Revoking a token never unrevokes a record. -/
theorem KeptOut.revoke (h : KeptOut t id i s) (j : Fin maxCaps) (ref : UserGrantRef) :
    KeptOut t id i ⟨s.objects, s.caps.revokeSlot j, s.grants.setRevoked ref⟩ := by
  refine ⟨tablesWf_revokeSlot h.wf j, h.object, ?_, ?_⟩
  · exact (s.grants.setRevoked_objectId ref i).trans h.record
  · intro j' hocc htoken
    have hjj : j' ≠ j := by
      intro heq
      rw [heq] at hocc
      exact absurd hocc (by simp)
    dsimp only at hocc htoken ⊢
    rw [CapTable.revokeSlot_occupied_ne _ _ hjj] at hocc
    rw [CapTable.revokeSlot_token_ne _ _ hjj] at htoken
    rw [CapTable.revokeSlot_entry_ne _ _ hjj]
    obtain ⟨hid, hout⟩ := h.token j' hocc htoken
    refine ⟨hid, ?_⟩
    by_cases href : ref = .user i
    · subst href
      exact .inl (by simp [GrantTables.setRevoked])
    · rw [s.grants.setRevoked_ne href]
      exact hout

/-- Every call that gives no access to `t` keeps it out. -/
theorem KeptOut.step (h : KeptOut t id i s) {call : SiblingCall} (hcall : KeepsOut t s call) :
    KeptOut t id i (siblingStep s call).2 := by
  cases call with
  | create v terms => exact h.create hcall.1 hcall.2
  | revoke grant =>
    rcases userGrantRevoke_cases h.wf s.grants grant with
      ⟨e, _, hrev⟩ | ⟨j, ref, _, _, _, _, _, hrev⟩
    · simp only [siblingStep, grantStep, hrev]
      exact h
    · simp only [siblingStep, grantStep, hrev]
      exact h.revoke j ref
  | capCreate objectId rights => exact h.capCreate objectId rights hcall

end steps

/-! ## Runs -/

/-- The invariant of all runs. -/
structure SiblingRun (s : GrantState) : Prop where
  wf : TablesWf s.objects s.caps
  kernel : KernelGrantsCounted s.grants

section runs

variable {s : GrantState} {log : List (SiblingCall × Except Err UInt64)}

theorem SiblingRun.create (h : SiblingRun s) (v : Vmm) (terms : GrantTerms) :
    SiblingRun (grantStep s (.create v terms)).2 := by
  have hfill : ∀ o' i reuse objectId, TablesWf o' s.caps →
      ∃ r c' g', userGrantFill o' s.caps s.grants i reuse objectId terms.sourceTask terms.userBase
          terms.length terms.rights terms.targetEndpoint = (r, o', c', g') ∧
        SiblingRun ⟨o', c', g'⟩ := by
    intro o' i reuse objectId hwf
    have hwf' := tablesWf_capCreate hwf objectId (userGrantRights terms.rights)
    unfold userGrantFill
    rcases hcap : capCreate o' s.caps objectId (userGrantRights terms.rights) with ⟨r, c'⟩
    rw [hcap] at hwf'
    cases r with
    | error e => exact ⟨_, _, _, rfl, hwf', h.kernel⟩
    | ok cap => exact ⟨_, _, _, rfl, hwf', h.kernel⟩
  rcases userGrantCreate_cases s v terms with ⟨e, hrun⟩ | ⟨i, _, _, hrun⟩
  · rw [hrun]
    exact h
  simp only [grantStep, hrun]
  unfold userGrantCreateSlot
  split
  · obtain ⟨r, c', g', hrun', hnext⟩ := hfill s.objects i true (s.grants.user i).objectId h.wf
    rw [hrun']
    exact hnext
  · have hwf := tablesWf_objectCreate h.wf ObjType.grant bootCore 0 (.userGrant i)
    rcases hc : objectCreate s.objects ObjType.grant bootCore 0 (.userGrant i) with ⟨r, o'⟩
    rw [hc] at hwf
    cases r with
    | error e => exact ⟨hwf, h.kernel⟩
    | ok objectId =>
      obtain ⟨r, c', g', hrun', hnext⟩ := hfill o' i false objectId hwf
      dsimp only
      rw [hrun']
      exact hnext

theorem SiblingRun.step (h : SiblingRun s) (call : SiblingCall) :
    SiblingRun (siblingStep s call).2 := by
  cases call with
  | create v terms => exact h.create v terms
  | revoke grant =>
    rcases userGrantRevoke_cases h.wf s.grants grant with
      ⟨e, _, hrev⟩ | ⟨j, ref, hlook, _, _, _, _, hrev⟩
    · simp only [siblingStep, grantStep, hrev]
      exact h
    · obtain ⟨_, i, rfl, _⟩ := h.kernel.lookup h.wf hlook
      simp only [siblingStep, grantStep, hrev]
      exact ⟨tablesWf_revokeSlot h.wf j, h.kernel⟩
  | capCreate objectId rights => exact ⟨tablesWf_capCreate h.wf objectId rights, h.kernel⟩

/-- A revocation that succeeds keeps out every token of the grant. -/
theorem SiblingRun.keptOut (h : SiblingRun s) {grant id t x : UInt64}
    (hrev : (siblingStep s (.revoke grant)).1 = .ok x) (hgrant : s.TokenOf grant id)
    (ht : s.TokenOf t id) : ∃ i, KeptOut t id i (siblingStep s (.revoke grant)).2 := by
  rcases userGrantRevoke_cases h.wf s.grants grant with
    ⟨e, _, hrun⟩ | ⟨j, ref, hlook, hocc, rfl, _, hcap, hrun⟩
  · simp only [siblingStep, grantStep, hrun] at hrev
    cases hrev
  obtain ⟨_, i, rfl, _⟩ := h.kernel.lookup h.wf hlook
  obtain ⟨j', hocc', htoken', hid⟩ := hgrant
  obtain rfl := CapTable.token_injective htoken'
  have hobject := (hcap i rfl).2
  rw [hid] at hobject
  -- The record of the grant is that of its object.
  have hrecord : (s.grants.user i).objectId = id := by
    obtain ⟨entry, _, hcheck, _, _, hslot, _⟩ := userGrantLookup_found hlook
    obtain ⟨_, j', _, htoken, rfl, _⟩ := (capCheck_eq_ok h.wf).mp hcheck
    obtain rfl := CapTable.token_injective htoken
    exact hslot.trans hid
  simp only [siblingStep, grantStep, hrun]
  refine ⟨i, tablesWf_revokeSlot h.wf j, hobject, ?_, ?_⟩
  · exact (s.grants.setRevoked_objectId (.user i) i).trans hrecord
  · intro k hocck htokenk
    obtain ⟨kt, hocct, htokent, hidt⟩ := ht
    have hkj : k ≠ j := by
      intro heq
      rw [heq] at hocck
      exact absurd hocck (by simp)
    dsimp only at htokenk ⊢
    rw [CapTable.revokeSlot_token_ne _ _ hkj, htokent] at htokenk
    obtain rfl := CapTable.token_injective htokenk
    rw [CapTable.revokeSlot_entry_ne _ _ hkj]
    exact ⟨hidt, .inl (by simp [GrantTables.setRevoked])⟩

/-- **Tokens of a revoked grant.**  After every run and a successful revocation of
    a grant, every token that was live for the grant is refused in every later
    state, as long as no call takes the record of the grant while that token is
    live, and no call issues that token again. -/
theorem revocation_survives (hrun : siblingSystem.Run log s) {grant id t x : UInt64}
    (hrev : (siblingSystem.step s (.revoke grant)).1 = .ok x) (hgrant : s.TokenOf grant id)
    (ht : s.TokenOf t id) {calls : List SiblingCall}
    (hcalls : siblingSystem.Guarded (KeepsOut t) (siblingSystem.step s (.revoke grant)).2 calls)
    (offset length r : UInt64) :
    (siblingSystem.exec (siblingSystem.step s (.revoke grant)).2 calls).verdict t offset length r ≠
      .ok () := by
  have hs : SiblingRun s := by
    apply hrun.invariant (P := SiblingRun)
    · intro s hinit
      exact ⟨hinit.wf, hinit.kernel⟩
    · intro s call h _
      exact h.step call
  obtain ⟨i, hout⟩ := hs.keptOut hrev hgrant ht
  have hlater := hcalls.invariant (P := KeptOut t id i) (fun s call h hcall => h.step hcall) hout
  exact hlater.verdict offset length r

end runs

/-! ### A second token -/

/-- The object of the first grant. -/
def firstGrant : UInt64 := objectMakeId 5 1

/-- A grant, which gets the first token of slot 5, and a second token for its
    object. -/
def grantAndSibling : List SiblingCall :=
  [.create taskMachine.vmm sixteenBytes, .capCreate firstGrant Right.read]

def afterGrantAndSibling : GrantState :=
  siblingSystem.exec taskMachine.grantState grantAndSibling

theorem run_grantAndSibling : ∃ log, siblingSystem.Run log afterGrantAndSibling := by
  have hguard : siblingSystem.Guarded (fun _ _ => True) taskMachine.grantState grantAndSibling :=
    ⟨trivial, trivial, trivial⟩
  exact (System.RunWhen.init grantStart_taskMachine).exec hguard

/-- The tables after the grant was revoked through its first token. -/
def afterRevoke : GrantState := (siblingSystem.step afterGrantAndSibling (.revoke (firstToken 5))).2

theorem tokens_grantAndSibling :
    (siblingSystem.step afterGrantAndSibling (.revoke (firstToken 5))).1 = .ok 0 ∧
      afterGrantAndSibling.TokenOf (firstToken 5) firstGrant ∧
      afterGrantAndSibling.TokenOf (firstToken 6) firstGrant :=
  ⟨by decide +kernel, ⟨5, by decide +kernel⟩, ⟨6, by decide +kernel⟩⟩

/-- A further token of the revoked grant does not let the second one in. -/
theorem revocation_survives_sibling :
    afterRevoke.TokenOf (firstToken 6) firstGrant ∧
      (siblingSystem.exec afterRevoke [.capCreate firstGrant Right.read]).verdict (firstToken 6)
        0 1 Right.read ≠ .ok () := by
  obtain ⟨log, hrun⟩ := run_grantAndSibling
  obtain ⟨hrev, hgrant, ht⟩ := tokens_grantAndSibling
  refine ⟨⟨6, by decide +kernel⟩, ?_⟩
  apply revocation_survives hrun hrev hgrant ht
  refine ⟨?_, trivial⟩
  intro hreissue
  obtain ⟨j, hfirst, htoken⟩ := hreissue
  have hslot : Slots.firstSlot (fun j => !afterRevoke.caps.occupied j) = some 5 := by
    decide +kernel
  obtain rfl := Option.some.inj (hslot.symm.trans hfirst)
  revert htoken
  decide +kernel

/-- When the record of the revoked grant is taken again, the second token gives
    access to the new grant. -/
theorem revocation_survives_fails :
    ¬ ∀ (log : List (SiblingCall × Except Err UInt64)) (s : GrantState) (grant id t x : UInt64)
        (calls : List SiblingCall) (offset length r : UInt64),
      siblingSystem.Run log s → (siblingSystem.step s (.revoke grant)).1 = .ok x →
      s.TokenOf grant id → s.TokenOf t id →
      (siblingSystem.exec (siblingSystem.step s (.revoke grant)).2 calls).verdict t offset length
        r ≠ .ok () := by
  intro hall
  obtain ⟨log, hrun⟩ := run_grantAndSibling
  obtain ⟨hrev, hgrant, ht⟩ := tokens_grantAndSibling
  refine hall log _ _ _ _ _ [.create taskMachine.vmm sixteenBytes] 0 1 Right.read hrun hrev hgrant ht ?_
  decide +kernel

end Scdk
