import Scdk.Core.GrantIsolation

/-! # When a grant gives access

    The verdicts of `scdk_validate_grant_access` after any run of grant
    creations and of the two ways to revoke a token.

    * `grantSystem`: the tables, driven by these calls,
    * `Stands`: what the log of a run says of a grant: created with these terms,
      and neither it nor the tokens of its terms revoked since,
    * `LiveTerms`: what the tables say of it; a step changes both in the same way
      (`liveTerms_step`, `stands_concat`),
    * `grant_access_iff`: the verdict, read off the log. -/

namespace Scdk

/-! ## The calls and their log -/

/-- The tables that the calls read and write. -/
structure GrantState where
  objects : ObjectTable
  caps : CapTable
  grants : GrantTables

/-- The arguments of `scdk_user_grant_create`. -/
structure GrantTerms where
  sourceTask : UInt64
  userBase : UInt64
  length : UInt64
  rights : UInt64
  targetEndpoint : UInt64
  deriving DecidableEq, Repr

/-- The terms that a record holds. -/
def UserGrantSlot.terms (slot : UserGrantSlot) : GrantTerms :=
  ⟨slot.sourceTask, slot.userBase, slot.length, slot.rights, slot.targetEndpoint⟩

/-- The calls of a run; a creation is made in the address space `v`. -/
inductive GrantCall where
  | create (v : Vmm) (terms : GrantTerms)
  | revoke (grant : UInt64)
  | capRevoke (cap : UInt64)

/-- One call.  A revocation returns nothing, recorded as `0`. -/
def grantStep (s : GrantState) : GrantCall → Except Err UInt64 × GrantState
  | .create v terms =>
      let (r, objects, caps, grants) := userGrantCreate s.objects s.caps s.grants v terms.sourceTask
        terms.userBase terms.length terms.rights terms.targetEndpoint
      (r, ⟨objects, caps, grants⟩)
  | .revoke grant =>
      let (r, caps, grants) := userGrantRevoke s.objects s.caps s.grants grant
      (r.map fun _ => 0, { s with caps, grants })
  | .capRevoke cap =>
      let (r, caps) := capRevoke s.objects s.caps cap
      (r.map fun _ => 0, { s with caps })

/-- A kernel grant in use has a reference, so that it reads as a revoked user
    grant. -/
def KernelGrantsCounted (g : GrantTables) : Prop :=
  ∀ i, (g.kernel i).objectId ≠ 0 → (g.slot (.kernel i)).revoked = true

/-- The tables before the first user grant: any tasks, endpoints and other
    objects, with any tokens. -/
structure GrantStart (s : GrantState) : Prop where
  wf : TablesWf s.objects s.caps
  records : ∀ i, (s.grants.user i).objectId = 0
  objects : ∀ id i, ¬ GrantObject s.objects id i
  kernel : KernelGrantsCounted s.grants

/-- The tables, driven by any calls. -/
def grantSystem : System GrantState GrantCall (Except Err UInt64) where
  init := GrantStart
  step := grantStep

/-- The calls of a run with their answers, oldest first. -/
abbrev GrantLog : Type := List (GrantCall × Except Err UInt64)

/-- The call has revoked the token `t`. -/
def Revokes (t : UInt64) : GrantCall × Except Err UInt64 → Prop
  | (.revoke grant, .ok _) => grant = t
  | (.capRevoke cap, .ok _) => cap = t
  | _ => False

/-- The call has revoked neither the grant `t` nor a token of its terms. -/
def Spares (t : UInt64) (terms : GrantTerms) (ev : GrantCall × Except Err UInt64) : Prop :=
  ¬ Revokes t ev ∧ ¬ Revokes terms.sourceTask ev ∧ ¬ Revokes terms.targetEndpoint ev

/-- `t` was returned by a successful creation with `terms`, and since then neither
    `t` nor the source task or the target endpoint of the terms was revoked. -/
def Stands (log : GrantLog) (t : UInt64) (terms : GrantTerms) : Prop :=
  ∃ pre v post, log = pre ++ (.create v terms, .ok t) :: post ∧ ∀ ev ∈ post, Spares t terms ev

/-- How one more call changes the grants that stand. -/
theorem stands_concat {log : GrantLog} {ev : GrantCall × Except Err UInt64} {t : UInt64}
    {terms : GrantTerms} :
    Stands (log ++ [ev]) t terms ↔
      (∃ v, ev = (.create v terms, .ok t)) ∨ (Stands log t terms ∧ Spares t terms ev) := by
  constructor
  · intro h
    obtain ⟨pre, v, post, heq, hpost⟩ := h
    -- The creation is the last call, or lies in the older part of the log.
    rcases List.concat_eq_append_cons heq with ⟨_, hlast, _⟩ | ⟨post', rfl, hlog⟩
    · exact .inl ⟨v, hlast.symm⟩
    · refine .inr ⟨⟨pre, v, post', hlog, ?_⟩, hpost ev (by simp)⟩
      intro ev' hev'
      exact hpost ev' (List.mem_append_left _ hev')
  · intro h
    rcases h with ⟨v, rfl⟩ | ⟨⟨pre, v, post, rfl, hpost⟩, hev⟩
    · exact ⟨log, v, [], rfl, by simp⟩
    · refine ⟨pre, v, post ++ [ev], by simp, ?_⟩
      intro ev' hev'
      rcases List.mem_append.mp hev' with hold | hlast
      · exact hpost ev' hold
      · rw [List.mem_singleton.mp hlast]
        exact hev

/-! ## What the tables say -/

/-- `t` is the live token of a grant with these terms, whose source task and
    target endpoint are live. -/
def LiveTerms (s : GrantState) (t : UInt64) (terms : GrantTerms) : Prop :=
  ∃ j i, IsGrantCap s.objects s.caps j i ∧ t = s.caps.token j ∧
    (s.grants.user i).terms = terms ∧ liveBinding s.objects s.caps (s.grants.user i) = .ok ()

/-- The invariant of the runs. -/
structure GrantRun (s : GrantState) : Prop where
  records : GrantRecords s.objects s.caps s.grants
  kernel : KernelGrantsCounted s.grants

theorem GrantStart.grantRun {s : GrantState} (h : GrantStart s) : GrantRun s where
  kernel := h.kernel
  records :=
    { wf := h.wf
      live := fun _ i hj => absurd hj.2 (h.objects _ i)
      slots := fun i hi => absurd (h.records i) hi }

theorem KernelGrantsCounted.congr {g g' : GrantTables} (h : KernelGrantsCounted g)
    (heq : g'.kernel = g.kernel) : KernelGrantsCounted g' := by
  intro i
  unfold GrantTables.slot
  rw [heq]
  exact h i

/-- A lookup never returns the record of a kernel grant. -/
theorem KernelGrantsCounted.lookup {o : ObjectTable} {c : CapTable} {g : GrantTables}
    (h : KernelGrantsCounted g) (hwf : TablesWf o c) {grant r : UInt64} {live : Bool}
    {ref : UserGrantRef} (hlook : userGrantLookup o c g grant r live = .ok ref) :
    ∃ j i, ref = .user i ∧ IsGrantCap o c j i ∧ grant = c.token j ∧
      (live = true → liveBinding o c (g.user i) = .ok ()) := by
  obtain ⟨entry, object, hcheck, hob, hpay, hid, hrev, hbound⟩ := userGrantLookup_found hlook
  obtain ⟨_, j, hocc, rfl, rfl, hgr⟩ := (capCheck_eq_ok hwf).mp hcheck
  have hentry := (CapTable.occupied_iff.mp hocc).1
  cases ref with
  | kernel i =>
    have hne : (g.kernel i).objectId ≠ 0 := by
      intro h0
      rw [show (g.slot (.kernel i)).objectId = (g.kernel i).objectId from rfl, h0] at hid
      exact hentry hid.symm
    rw [h i hne] at hrev
    cases hrev
  | user i =>
    obtain ⟨object', hob', _, _, hobtype⟩ := hwf.object j hocc
    obtain rfl := Except.ok.inj (hob.symm.trans hob')
    have htype : (c.entry j).objectType = ObjType.grant := by
      rcases hgr.1 with hnone | htype
      · exact absurd hnone (by decide)
      · exact htype
    exact ⟨j, i, rfl, ⟨hocc, object, hob, hobtype.trans htype, Payload.grantRef_eq_user hpay⟩, rfl,
      hbound⟩

section steps

variable {s : GrantState} {t : UInt64} {terms : GrantTerms}

/-- A step that leaves the live grants alone adds the new tokens only. -/
theorem GrantStep.liveTerms_iff {N : Fin maxCaps → Prop} {s' : GrantState}
    (h : GrantStep N s.objects s.caps s.grants s'.objects s'.caps s'.grants) :
    LiveTerms s' t terms ↔
      LiveTerms s t terms ∨ ∃ j i, N j ∧ IsGrantCap s'.objects s'.caps j i ∧
        t = s'.caps.token j ∧ (s'.grants.user i).terms = terms ∧
        liveBinding s'.objects s'.caps (s'.grants.user i) = .ok () := by
  constructor
  · intro hlive
    obtain ⟨j, i, hj, htoken, hterms, hbound⟩ := hlive
    rcases h.old j i hj with hN | hold
    · exact .inr ⟨j, i, hN, hj, htoken, hterms, hbound⟩
    · obtain ⟨hsame, _, hslot⟩ := h.kept.caps j i trivial hold
      rw [h.kept.liveBinding, hslot] at hbound
      rw [hslot] at hterms
      rw [hsame.token] at htoken
      exact .inl ⟨j, i, hold, htoken, hterms, hbound⟩
  · intro hlive
    rcases hlive with ⟨j, i, hj, htoken, hterms, hbound⟩ | ⟨j, i, _, hrest⟩
    · obtain ⟨hsame, hj', hslot⟩ := h.kept.caps j i trivial hj
      refine ⟨j, i, hj', htoken.trans hsame.token.symm, ?_, ?_⟩
      · rw [hslot, hterms]
      · rw [h.kept.liveBinding, hslot, hbound]
    · exact ⟨j, i, hrest⟩

/-- The check of a token after another one was revoked. -/
theorem capCheck_revokeSlot_ok_iff {o : ObjectTable} {c : CapTable} (h : TablesWf o c)
    (j : Fin maxCaps) {t req : UInt64} {ty : UInt32} {e : CapEntry} :
    capCheck o (c.revokeSlot j) t req ty = .ok e ↔
      t ≠ c.token j ∧ capCheck o c t req ty = .ok e := by
  by_cases heq : t = c.token j
  · constructor
    · intro hok
      rw [heq] at hok
      exact absurd (capCheck_eq_ok_iff_lookup.mp hok).2.1 (capLookup_revokeSlot_self h j e)
    · intro hok
      exact absurd heq hok.1
  · rw [capCheck_congr (capLookup_revokeSlot_ne h heq)]
    exact ⟨fun hok => ⟨heq, hok⟩, fun hok => hok.2⟩

theorem liveBinding_revokeSlot {o : ObjectTable} {c : CapTable} (h : TablesWf o c)
    (j : Fin maxCaps) (slot : UserGrantSlot) :
    liveBinding o (c.revokeSlot j) slot = .ok () ↔
      liveBinding o c slot = .ok () ∧ slot.sourceTask ≠ c.token j ∧
        slot.targetEndpoint ≠ c.token j := by
  simp only [liveBinding_eq_ok, capCheck_revokeSlot_ok_iff h, exists_and_left]
  tauto

/-- Revoking a token ends the grant it is of and those that it is in the terms
    of. -/
theorem GrantRecords.liveTerms_revoke (h : GrantRecords s.objects s.caps s.grants)
    {j : Fin maxCaps} {g' : GrantTables}
    (hrec : ∀ j' i, j' ≠ j → IsGrantCap s.objects s.caps j' i → g'.user i = s.grants.user i) :
    LiveTerms ⟨s.objects, s.caps.revokeSlot j, g'⟩ t terms ↔
      LiveTerms s t terms ∧ t ≠ s.caps.token j ∧ terms.sourceTask ≠ s.caps.token j ∧
        terms.targetEndpoint ≠ s.caps.token j := by
  constructor
  · intro hlive
    obtain ⟨j', i, hj', htoken, hterms, hbound⟩ := hlive
    obtain ⟨hne, hj⟩ := isGrantCap_revokeSlot.mp hj'
    dsimp only at htoken hterms hbound
    rw [CapTable.revokeSlot_token_ne _ _ hne] at htoken
    rw [hrec j' i hne hj] at hterms hbound
    obtain ⟨hbound, hsource, htarget⟩ := (liveBinding_revokeSlot h.wf j _).mp hbound
    rw [← hterms]
    refine ⟨⟨j', i, hj, htoken, rfl, hbound⟩, ?_, hsource, htarget⟩
    intro heq
    exact hne (CapTable.token_injective (htoken.symm.trans heq))
  · intro hlive
    obtain ⟨⟨j', i, hj, htoken, hterms, hbound⟩, hne, hsource, htarget⟩ := hlive
    have hjne : j' ≠ j := by
      intro heq
      exact hne (htoken.trans (by rw [heq]))
    rw [← hterms] at hsource htarget
    refine ⟨j', i, isGrantCap_revokeSlot.mpr ⟨hjne, hj⟩, ?_, ?_, ?_⟩
    · exact htoken.trans (CapTable.revokeSlot_token_ne _ _ hjne).symm
    · exact (congrArg UserGrantSlot.terms (hrec j' i hjne hj)).trans hterms
    · dsimp only
      rw [hrec j' i hjne hj]
      exact (liveBinding_revokeSlot h.wf j _).mpr ⟨hbound, hsource, htarget⟩

/-- The terms after a creation. -/
theorem GrantCreated.liveTerms_iff {terms' : GrantTerms} {r : Except Err UInt64} {o' : ObjectTable}
    {c' : CapTable} {g' : GrantTables}
    (h : GrantCreated s.objects s.caps s.grants terms'.sourceTask terms'.userBase terms'.length
      terms'.rights terms'.targetEndpoint (r, o', c', g')) :
    LiveTerms ⟨o', c', g'⟩ t terms ↔ (terms' = terms ∧ r = .ok t) ∨ LiveTerms s t terms := by
  cases h with
  | refused hstep =>
    rw [@GrantStep.liveTerms_iff s t terms _ ⟨o', c', g'⟩ hstep]
    simp
  | @minted k i _ _ _ id hstep hcap hslot hbound =>
    rw [@GrantStep.liveTerms_iff s t terms _ ⟨o', c', g'⟩ hstep, or_comm]
    refine or_congr_left ⟨?_, ?_⟩
    · intro hnew
      obtain ⟨j, i', hjk, hj, htoken, hterms, _⟩ := hnew
      subst hjk
      obtain rfl := hj.unique hcap
      dsimp only at hterms htoken
      rw [hslot] at hterms
      exact ⟨hterms, by rw [htoken]⟩
    · intro hnew
      obtain ⟨rfl, htoken⟩ := hnew
      refine ⟨k, i, rfl, hcap, (Except.ok.inj htoken).symm, ?_, hbound⟩
      dsimp only
      rw [hslot]
      rfl

/-- One call, on the invariant and on the live terms. -/
theorem GrantRun.step (h : GrantRun s) (call : GrantCall) :
    GrantRun (grantStep s call).2 ∧ ∀ t terms, LiveTerms (grantStep s call).2 t terms ↔
      (∃ v, (call, (grantStep s call).1) = (.create v terms, .ok t)) ∨
      (LiveTerms s t terms ∧ Spares t terms (call, (grantStep s call).1)) := by
  cases call with
  | create v terms' =>
    have hcreated := h.records.create v terms'.sourceTask terms'.userBase terms'.length
      terms'.rights terms'.targetEndpoint
    rcases hrun : userGrantCreate s.objects s.caps s.grants v terms'.sourceTask terms'.userBase
      terms'.length terms'.rights terms'.targetEndpoint with ⟨r, o', c', g'⟩
    rw [hrun] at hcreated
    simp only [grantStep, hrun]
    refine ⟨?_, fun t terms => ?_⟩
    · have hnext : GrantRecords o' c' g' ∧ g'.kernel = s.grants.kernel := by
        cases hcreated with
        | refused hstep => exact ⟨hstep.records, hstep.kernel⟩
        | minted hstep _ _ _ => exact ⟨hstep.records, hstep.kernel⟩
      exact ⟨hnext.1, h.kernel.congr hnext.2⟩
    · rw [hcreated.liveTerms_iff]
      simp [Spares, Revokes]
  | revoke grant =>
    rcases userGrantRevoke_cases h.records.wf s.grants grant with
      ⟨e, _, hrev⟩ | ⟨j, ref, hlook, _, rfl, _, hcap, hrev⟩
    · simp only [grantStep, hrev]
      exact ⟨h, fun t terms => by simp [Spares, Revokes, Except.map]⟩
    · -- The record is that of a user grant, so the kernel grants stay.
      obtain ⟨_, i, rfl, _⟩ := h.kernel.lookup h.records.wf hlook
      have hrec := h.records.setRevoked_user hcap
      simp only [grantStep, hrev]
      refine ⟨⟨h.records.revoke hrec (s.grants.setRevoked_objectId (.user i)), h.kernel⟩, ?_⟩
      intro t terms
      rw [h.records.liveTerms_revoke hrec]
      simp [Spares, Revokes, Except.map, eq_comm]
  | capRevoke cap =>
    rcases capRevoke_cases h.records.wf cap with ⟨e, _, hrev⟩ | ⟨j, _, rfl, hrev⟩
    · simp only [grantStep, hrev]
      exact ⟨h, fun t terms => by simp [Spares, Revokes, Except.map]⟩
    · -- The token is revoked, and every record stays as it is.
      have hrec : ∀ j' i, j' ≠ j → IsGrantCap s.objects s.caps j' i →
          s.grants.user i = s.grants.user i := fun _ _ _ _ => rfl
      simp only [grantStep, hrev]
      refine ⟨⟨h.records.revoke hrec fun _ => rfl, h.kernel⟩, ?_⟩
      intro t terms
      rw [h.records.liveTerms_revoke hrec]
      simp [Spares, Revokes, Except.map, eq_comm]

end steps

/-- After every run, the tables and the log say the same of every grant. -/
theorem grantRun_of_run {log : GrantLog} {s : GrantState} (hrun : grantSystem.Run log s) :
    GrantRun s ∧ ∀ t terms, Stands log t terms ↔ LiveTerms s t terms := by
  induction hrun with
  | init hinit =>
    refine ⟨GrantStart.grantRun hinit, fun t terms => ⟨?_, ?_⟩⟩
    · intro hstands
      obtain ⟨pre, v, post, heq, _⟩ := hstands
      simp at heq
    · intro hlive
      obtain ⟨j, i, hj, _⟩ := hlive
      exact absurd hj.2 (hinit.objects _ i)
  | step call _ _ ih =>
    obtain ⟨hs, hlive⟩ := ih
    obtain ⟨hs', hlive'⟩ := hs.step call
    refine ⟨hs', fun t terms => ?_⟩
    rw [stands_concat, hlive t terms]
    exact (hlive' t terms).symm

/-! ## Verdicts -/

/-- `scdk_validate_grant_access` -/
def GrantState.verdict (s : GrantState) (grant offset length rights : UInt64) : Except Err Unit :=
  validateGrantAccess s.objects s.caps s.grants grant offset length rights

/-- The access that the terms of a grant allow. -/
structure GrantTerms.Allow (terms : GrantTerms) (offset length rights : UInt64) : Prop where
  nonzero : rights ≠ 0
  mask : rights &&& ~~~grantRightsMask = 0
  given : terms.rights &&& rights = rights
  nonempty : 1 ≤ length.toNat
  range : offset.toNat + length.toNat ≤ terms.length.toNat

/-- The bounds check is exact. -/
theorem checkGrantRange_eq_ok {slot : UserGrantSlot} {offset length r : UInt64} :
    checkGrantRange slot offset length r = .ok () ↔ slot.terms.Allow offset length r := by
  have hbounds : (length = 0 ∨ slot.length < offset ∨ slot.length - offset < length) ↔
      ¬ (1 ≤ length.toNat ∧ offset.toNat + length.toNat ≤ slot.length.toNat) := by
    rw [← UInt64.toNat_inj, UInt64.lt_iff_toNat_lt, UInt64.lt_iff_toNat_lt]
    by_cases hle : offset.toNat ≤ slot.length.toNat
    · rw [UInt64.toNat_sub_of_le _ _ (UInt64.le_iff_toNat_le.mpr hle)]
      have h0 : (0 : UInt64).toNat = 0 := rfl
      omega
    · have h0 : (0 : UInt64).toNat = 0 := rfl
      omega
  unfold checkGrantRange
  constructor
  · intro hok
    split at hok
    · cases hok
    next hargs =>
    split at hok
    · cases hok
    next hgiven =>
    split at hok
    · cases hok
    next hout =>
    simp only [not_or, ne_eq, not_not] at hargs hgiven
    have hin := not_not.mp (mt hbounds.mpr (not_or.mpr ⟨hargs.1, hout⟩))
    exact ⟨hargs.2.1, hargs.2.2, hgiven, hin.1, hin.2⟩
  · intro hallow
    have hin := not_or.mp (mt hbounds.mp (not_not.mpr ⟨hallow.nonempty, hallow.range⟩))
    have hgiven : slot.rights &&& r = r := hallow.given
    rw [if_neg (by simp [hin.1, hallow.nonzero, hallow.mask]), if_neg (not_not.mpr hgiven),
      if_neg hin.2]

/-- The verdict of the tables: access is given on the live grants, within their
    terms. -/
theorem GrantRun.verdict_eq_ok {s : GrantState} (h : GrantRun s) (grant offset length r : UInt64) :
    s.verdict grant offset length r = .ok () ↔
      ∃ terms, LiveTerms s grant terms ∧ terms.Allow offset length r := by
  unfold GrantState.verdict validateGrantAccess
  constructor
  · intro hok
    cases hlook : userGrantLookup s.objects s.caps s.grants grant r true with
    | error e =>
      rw [hlook] at hok
      cases hok
    | ok ref =>
      rw [hlook] at hok
      obtain ⟨j, i, rfl, hj, rfl, hbound⟩ := h.kernel.lookup h.records.wf hlook
      exact ⟨_, ⟨j, i, hj, rfl, rfl, hbound rfl⟩, checkGrantRange_eq_ok.mp hok⟩
  · intro hok
    obtain ⟨terms, ⟨j, i, hj, rfl, rfl, hbound⟩, hallow⟩ := hok
    -- The token carries the rights of the record.
    have hrights : userGrantRights (s.grants.user i).rights &&& r = r := by
      have hgiven : (s.grants.user i).rights &&& r = r := hallow.given
      unfold userGrantRights
      rw [← hgiven, ← UInt64.and_assoc, or_and_self_left]
    rw [h.records.lookup_eq hj, h.records.check_ok hj hallow.nonzero hrights, hbound]
    exact checkGrantRange_eq_ok.mpr hallow

/-- **When a grant gives access.**  After every run of creations and revocations,
    `scdk_validate_grant_access` accepts exactly the accesses that the terms of a
    standing grant allow. -/
theorem grant_access_iff {log : GrantLog} {s : GrantState} (hrun : grantSystem.Run log s)
    (grant offset length r : UInt64) :
    s.verdict grant offset length r = .ok () ↔
      ∃ terms, Stands log grant terms ∧ terms.Allow offset length r := by
  obtain ⟨hs, hlive⟩ := grantRun_of_run hrun
  rw [hs.verdict_eq_ok]
  simp only [hlive]

/-! ### A grant to the console -/

/-- The tables of a kernel. -/
def Kernel.grantState {δ : Type} (k : Kernel δ) : GrantState := ⟨k.objects, k.caps, k.grants⟩

theorem GrantBoot.newTask {δ : Type} {k : Kernel δ} (h : GrantBoot k) (i : Fin maxTasks) :
    GrantBoot (K.newTask i k).2 := by
  obtain ⟨objects, caps, hrun, hgrown⟩ := K.newTask_run k i
  rw [hrun]
  refine ⟨hgrown.wf h.wf, h.records, fun id i' hgrant => ?_, h.ready⟩
  exact h.objects id i' (grantObject_of_grown h.wf hgrown (by decide) hgrant)

/-- The machine with one task, which has the first token of slot 4. -/
def taskMachine : Kernel Unit := (K.newTask 0 (machine ⟨[], true⟩)).2

theorem grantStart_taskMachine : GrantStart taskMachine.grantState := by
  have hboot := (grantBoot_machine ⟨[], true⟩).newTask 0
  refine ⟨hboot.wf, hboot.records, hboot.objects, ?_⟩
  have hkernel : ∀ i, (taskMachine.grants.kernel i).objectId = 0 := by decide +kernel
  intro i hi
  exact absurd (hkernel i) hi

/-- Sixteen bytes of the task, readable by the console. -/
def sixteenBytes : GrantTerms := ⟨firstToken 4, 0x200000, 16, Right.read, firstToken 0⟩

/-- The first grant, revoked, and a second one in its slot. -/
def recycleGrant : List GrantCall :=
  [.create taskMachine.vmm sixteenBytes, .revoke (firstToken 5),
    .create taskMachine.vmm sixteenBytes]

/-- The last eight bytes of the second grant are accessible, as its terms say. -/
theorem grant_access_recycled :
    ∃ log, grantSystem.Run log (grantSystem.exec taskMachine.grantState recycleGrant) ∧
      ∃ terms, Stands log (firstToken 5 + 0x200000000) terms ∧ terms.Allow 8 8 Right.read := by
  have hguard : grantSystem.Guarded (fun _ _ => True) taskMachine.grantState recycleGrant :=
    ⟨trivial, trivial, trivial, trivial⟩
  obtain ⟨log, hrun⟩ := (System.RunWhen.init grantStart_taskMachine).exec hguard
  refine ⟨log, hrun, (grant_access_iff hrun _ _ _ _).mp ?_⟩
  decide +kernel

end Scdk
