import Scdk.Boot
import Scdk.Core.GrantRecords

/-! # Grants of different tasks

    The tables of the grants under any interleaving of the system calls that
    create and revoke grants, by any number of tasks.

    * `GrantInv`: the records of the live grants, whose source task and target
      endpoint stay live, since these system calls revoke none,
    * `grant_isolation`: a system call changes no verdict on a grant of another
      task exactly when it does not revoke one. -/

namespace Scdk

/-! ## The invariant -/

/-- The invariant of the object, capability and grant tables. -/
structure GrantInv (o : ObjectTable) (c : CapTable) (g : GrantTables) : Prop where
  wf : TablesWf o c
  live : ∀ j i, IsGrantCap o c j i → LiveGrant c g j i
  slots : ∀ i, (g.user i).objectId ≠ 0 → GrantObject o (g.user i).objectId i
  bound : ∀ j i, IsGrantCap o c j i → liveBinding o c (g.user i) = .ok ()

section inv

variable {o : ObjectTable} {c : CapTable} {g : GrantTables} {i : Fin maxUserGrants}
  {j : Fin maxCaps}

theorem GrantInv.records (h : GrantInv o c g) : GrantRecords o c g := ⟨h.wf, h.live, h.slots⟩

theorem GrantRecords.grantInv (h : GrantRecords o c g)
    (hbound : ∀ j i, IsGrantCap o c j i → liveBinding o c (g.user i) = .ok ()) :
    GrantInv o c g := ⟨h.wf, h.live, h.slots, hbound⟩

/-- The lookup of a live grant: what is left is the check of the token. -/
theorem GrantInv.lookup_eq (h : GrantInv o c g) (hj : IsGrantCap o c j i) (r : UInt64)
    (live : Bool) :
    userGrantLookup o c g (c.token j) r live =
      match capCheck o c (c.token j) r ObjType.grant with
      | .error e => .error e
      | .ok _ => .ok (.user i) := by
  rw [h.records.lookup_eq hj, h.bound j i hj]
  cases capCheck o c (c.token j) r ObjType.grant with
  | error e => rfl
  | ok _ => simp

/-- The verdict on a live grant. -/
theorem GrantInv.verdict_eq (h : GrantInv o c g) (hj : IsGrantCap o c j i)
    (offset length r : UInt64) :
    validateGrantAccess o c g (c.token j) offset length r =
      match capCheck o c (c.token j) r ObjType.grant with
      | .error e => .error e
      | .ok _ => checkGrantRange (g.user i) offset length r := by
  unfold validateGrantAccess
  rw [h.lookup_eq hj]
  cases capCheck o c (c.token j) r ObjType.grant with
  | error e => rfl
  | ok _ => rfl

/-- A live grant gives access to its first byte. -/
theorem GrantInv.access (h : GrantInv o c g) (hj : IsGrantCap o c j i) :
    validateGrantAccess o c g (c.token j) 0 1 (g.user i).rights = .ok () := by
  have hlive := h.live j i hj
  rw [h.verdict_eq hj, h.records.check_ok hj hlive.rights (or_and_self_left _ _)]
  have hone : ¬ (g.user i).length - 0 < 1 := by
    intro hlt
    apply hlive.length
    rw [UInt64.sub_zero] at hlt
    rw [← UInt64.toNat_inj]
    have := UInt64.lt_iff_toNat_lt.mp hlt
    simpa using this
  unfold checkGrantRange
  simp [hlive.rights, hlive.mask]
  simpa using hone

end inv

/-! ## Steps of the tables -/

section steps

variable {P : Fin maxCaps → Prop} {o o' : ObjectTable} {c c' : CapTable} {g g' : GrantTables}

/-- The verdicts on the grants that a step leaves alone are as before. -/
theorem GrantsKept.verdict (h : GrantsKept P o c g o' c' g') (hinv : GrantInv o c g)
    (hinv' : GrantInv o' c' g') {j : Fin maxCaps} {i : Fin maxUserGrants} (hP : P j)
    (hj : IsGrantCap o c j i) (offset length r : UInt64) :
    validateGrantAccess o' c' g' (c.token j) offset length r =
      validateGrantAccess o c g (c.token j) offset length r := by
  obtain ⟨hsame, hj', hslot⟩ := h.caps j i hP hj
  have hlook : capLookup o' c' (c.token j) = capLookup o c (c.token j) := by
    rw [hj.capLookup hinv.wf, ← hsame.token, hj'.capLookup hinv'.wf, hsame.1]
  have hverdict := hinv'.verdict_eq hj' offset length r
  rw [hsame.token, capCheck_congr hlook, hslot] at hverdict
  rw [hverdict, hinv.verdict_eq hj]

/-- A new object of another type, with its token. -/
theorem GrantInv.grow (h : GrantInv o c g) {type : UInt32} {payload : Payload}
    (hgrown : TablesGrown type payload o c o' c') (htype : type ≠ ObjType.grant) :
    GrantInv o' c' g := by
  have hrec := h.records.grow hgrown htype
  apply hrec.grantInv
  intro j i hj
  have hj' := (isGrantCap_of_grown h.wf hgrown htype hj).2
  obtain ⟨⟨e, he⟩, ⟨e', he'⟩⟩ := liveBinding_eq_ok.mp (h.bound j i hj')
  have hsame : ∀ j, c.occupied j = true → c.SameSlot c' j := fun _ hocc => hgrown.sameSlot hocc
  exact liveBinding_eq_ok.mpr ⟨⟨e, capCheck_of_sameSlot h.wf hrec.wf hsame he⟩,
    ⟨e', capCheck_of_sameSlot h.wf hrec.wf hsame he'⟩⟩

/-- A step that leaves every live grant alone, and whose new tokens are bound to
    a live task and a live endpoint. -/
theorem GrantInv.step (h : GrantInv o c g) {N : Fin maxCaps → Prop}
    (hstep : GrantStep N o c g o' c' g')
    (hnew : ∀ j i, N j → IsGrantCap o' c' j i → liveBinding o' c' (g'.user i) = .ok ()) :
    GrantInv o' c' g' := by
  apply hstep.records.grantInv
  intro j i hj
  rcases hstep.old j i hj with hN | hold
  · exact hnew j i hN hj
  · rw [hstep.kept.liveBinding, (hstep.kept.caps j i trivial hold).2.2]
    exact h.bound j i hold

/-- `scdk_user_grant_create` keeps the invariant and every live grant. -/
theorem GrantInv.create (h : GrantInv o c g) (v : Vmm)
    (sourceTask userBase length rights targetEndpoint : UInt64) :
    ∃ r o' c' g', userGrantCreate o c g v sourceTask userBase length rights targetEndpoint =
        (r, o', c', g') ∧ GrantInv o' c' g' ∧ GrantsKept (fun _ => True) o c g o' c' g' := by
  have hcreated := h.records.create v sourceTask userBase length rights targetEndpoint
  generalize userGrantCreate o c g v sourceTask userBase length rights targetEndpoint = out
    at hcreated
  cases hcreated with
  | refused hstep => exact ⟨_, _, _, _, rfl, h.step hstep fun _ _ hN _ => hN.elim, hstep.kept⟩
  | @minted k i o' c' g' id hstep hcap _ hbound =>
    refine ⟨_, _, _, _, rfl, h.step hstep ?_, hstep.kept⟩
    intro j i' hjk hj
    rw [hjk] at hj
    rw [hj.unique hcap]
    exact hbound

/-- `scdk_user_grant_revoke` keeps the invariant, and every live grant but the
    one revoked. -/
theorem GrantInv.revoke (h : GrantInv o c g) {j : Fin maxCaps} {ref : UserGrantRef}
    (htype : (c.entry j).objectType = ObjType.grant)
    (hcap : ∀ i, ref = .user i → IsGrantCap o c j i) :
    GrantInv o (c.revokeSlot j) (g.setRevoked ref) ∧
      GrantsKept (fun j' => j' ≠ j) o c g o (c.revokeSlot j) (g.setRevoked ref) := by
  have hrec := h.records.setRevoked_user hcap
  have hkept : GrantsKept (fun j' => j' ≠ j) o c g o (c.revokeSlot j) (g.setRevoked ref) := by
    constructor
    · intro j' i hne hj'
      exact ⟨CapTable.sameSlot_revokeSlot hne, isGrantCap_revokeSlot.mpr ⟨hne, hj'⟩,
        hrec j' i hne hj'⟩
    · intro t req ty e hty
      have hne : ty ≠ ObjType.none ∧ (c.entry j).objectType ≠ ty := by
        rw [htype]
        rcases hty with rfl | rfl
        · decide
        · decide
      exact capCheck_revokeSlot_iff h.wf hne.1 hne.2
  refine ⟨(h.records.revoke hrec fun i => g.setRevoked_objectId ref i).grantInv ?_, hkept⟩
  intro j' i hj'
  obtain ⟨hne, hj⟩ := isGrantCap_revokeSlot.mp hj'
  rw [hkept.liveBinding, hrec j' i hne hj]
  exact h.bound j' i hj

end steps

/-! ## Isolation between tasks -/

section isolation

variable {δ : Type}

/-- The answer of `scdk_validate_grant_access`. -/
def Kernel.grantVerdict (k : Kernel δ) (grant offset length rights : UInt64) : Except Err Unit :=
  validateGrantAccess k.objects k.caps k.grants grant offset length rights

/-- `grant` is the token of a grant that is not revoked, with `source` as its
    source task. -/
def Kernel.GrantOf (k : Kernel δ) (grant source : UInt64) : Prop :=
  ∃ j i, IsGrantCap k.objects k.caps j i ∧ grant = k.caps.token j ∧
    (k.grants.user i).sourceTask = source

/-- No verdict changes on a grant of a task that is not the current one. -/
def LeavesOthers (k k' : Kernel δ) : Prop :=
  ∀ grant source, k.GrantOf grant source → source ≠ k.tasks.currentUserTask →
    ∀ offset length rights,
      k'.grantVerdict grant offset length rights = k.grantVerdict grant offset length rights

/-- If the call is `SCDK_SYS_GRANT_REVOKE`, its argument is not a grant of a task
    that is not the current one. -/
def RevokesOwn (k : Kernel δ) (c : Syscall) : Prop :=
  c.number = Sys.grantRevoke →
    ∀ source, k.GrantOf c.arg0 source → source = k.tasks.currentUserTask

/-- The kernel before its first user grant. -/
structure GrantBoot (k : Kernel δ) : Prop where
  wf : TablesWf k.objects k.caps
  records : ∀ i, (k.grants.user i).objectId = 0
  objects : ∀ id i, ¬ GrantObject k.objects id i
  ready : k.syscall.ready = true

/-- `SCDK_SYS_GRANT_CREATE` or `SCDK_SYS_GRANT_REVOKE`. -/
def Syscall.IsGrantCall (c : Syscall) : Prop :=
  c.number = Sys.grantCreate ∨ c.number = Sys.grantRevoke

/-- Steps whose system calls are those of the grants. -/
def GrantCalls (_ : World δ) : UserStep → Prop
  | .syscall c => c.IsGrantCall
  | _ => True

/-- The invariant of the kernel under grant calls. -/
structure GrantKernel (k : Kernel δ) : Prop where
  tables : GrantInv k.objects k.caps k.grants
  ready : k.syscall.ready = true

variable {k : Kernel δ} {p : Platform δ} {c : Syscall}

/-- A kernel that differs in the tables and in the return value. -/
def Kernel.afterGrantCall (k : Kernel δ) (o : ObjectTable) (caps : CapTable) (g : GrantTables)
    (value : UInt64) : Kernel δ :=
  { k with
    objects := o, caps := caps, grants := g
    syscall := { k.syscall with returnValue := value } }

/-- `SCDK_SYS_GRANT_CREATE` leaves every live grant alone. -/
theorem GrantKernel.create (h : GrantKernel k) (hn : c.number = Sys.grantCreate) :
    ∃ o' c' g' value, (syscallDispatch p c k).2 = k.afterGrantCall o' c' g' value ∧
      GrantInv o' c' g' ∧ GrantsKept (fun _ => True) k.objects k.caps k.grants o' c' g' := by
  rw [syscallDispatch_grantCreate h.ready hn]
  obtain ⟨value, hrun⟩ := answerValue_run k (do
    let task ← K.userTaskCurrent
    K.userGrantCreate task c.arg0 c.arg1 c.arg2 c.arg3)
  rw [hrun, Effect.bind_run]
  cases htask : userTaskCurrent k.tasks with
  | error e =>
    have hask : (K.userTaskCurrent : K δ UInt64) k = (.error e, k) := by
      rw [← htask]
      rfl
    rw [hask]
    exact ⟨k.objects, k.caps, k.grants, value, rfl, h.tables, GrantsKept.refl _ _ _ _⟩
  | ok task =>
    have hask : (K.userTaskCurrent : K δ UInt64) k = (.ok task, k) := by
      rw [← htask]
      rfl
    obtain ⟨r, o', c', g', hcreate, hinv, hkept⟩ := h.tables.create k.vmm
      task c.arg0 c.arg1 c.arg2 c.arg3
    rw [hask]
    simp only [K.userGrantCreate, hcreate]
    exact ⟨o', c', g', value, rfl, hinv, hkept⟩

/-- `SCDK_SYS_GRANT_REVOKE` refuses what is no live grant, and leaves alone
    every live grant but its argument. -/
theorem GrantKernel.revoke (h : GrantKernel k) (hn : c.number = Sys.grantRevoke) :
    (∃ value, (syscallDispatch p c k).2 = k.afterGrantCall k.objects k.caps k.grants value ∧
      ∀ source, ¬ k.GrantOf c.arg0 source) ∨
    ∃ j ref value, c.arg0 = k.caps.token j ∧
      (syscallDispatch p c k).2 =
        k.afterGrantCall k.objects (k.caps.revokeSlot j) (k.grants.setRevoked ref) value ∧
      GrantInv k.objects (k.caps.revokeSlot j) (k.grants.setRevoked ref) ∧
      GrantsKept (fun j' => j' ≠ j) k.objects k.caps k.grants k.objects (k.caps.revokeSlot j)
        (k.grants.setRevoked ref) := by
  rw [syscallDispatch_grantRevoke h.ready hn, answerStatus_run]
  rcases userGrantRevoke_cases h.tables.wf k.grants c.arg0 with
    ⟨e, hlook, hrev⟩ | ⟨j, ref, _, _, htoken, htype, hcap, hrev⟩
  · left
    simp only [K.userGrantRevoke, hrev]
    refine ⟨_, rfl, ?_⟩
    intro source hgrant
    obtain ⟨j, i, hj, htoken, _⟩ := hgrant
    -- The token of a live grant carries the right to revoke it.
    have hrights : userGrantRights (k.grants.user i).rights &&& Right.revoke = Right.revoke := by
      unfold userGrantRights
      rw [UInt64.or_comm]
      exact or_and_self_left _ _
    rw [htoken, h.tables.lookup_eq hj, h.tables.records.check_ok hj (by decide) hrights] at hlook
    cases hlook
  · right
    simp only [K.userGrantRevoke, hrev]
    obtain ⟨hinv, hkept⟩ := h.tables.revoke htype hcap
    exact ⟨j, ref, _, htoken, rfl, hinv, hkept⟩

theorem GrantKernel.dispatch (h : GrantKernel k) (hc : c.IsGrantCall) :
    GrantKernel (syscallDispatch p c k).2 := by
  rcases hc with hn | hn
  · obtain ⟨o', c', g', value, hrun, hinv, _⟩ := h.create (p := p) hn
    rw [hrun]
    exact ⟨hinv, h.ready⟩
  · rcases h.revoke (p := p) hn with ⟨value, hrun, _⟩ | ⟨j, ref, value, _, hrun, hinv, _⟩
    · rw [hrun]
      exact ⟨h.tables, h.ready⟩
    · rw [hrun]
      exact ⟨hinv, h.ready⟩

/-- A revoked token gives no access. -/
theorem verdict_revokeSlot {o : ObjectTable} {caps : CapTable} (h : TablesWf o caps)
    (j : Fin maxCaps) (g : GrantTables) (offset length r : UInt64) :
    validateGrantAccess o (caps.revokeSlot j) g (caps.token j) offset length r ≠ .ok () := by
  intro hok
  unfold validateGrantAccess at hok
  cases hlook : userGrantLookup o (caps.revokeSlot j) g (caps.token j) r true with
  | error e =>
    rw [hlook] at hok
    cases hok
  | ok ref =>
    obtain ⟨entry, _, hcheck, _⟩ := userGrantLookup_found hlook
    exact capLookup_revokeSlot_self h j entry (capCheck_eq_ok_iff_lookup.mp hcheck).2.1

/-- One call: it leaves the grants of others alone exactly when it does not
    revoke one. -/
theorem GrantKernel.leavesOthers_iff (h : GrantKernel k) (hc : c.IsGrantCall) :
    LeavesOthers k (syscallDispatch p c k).2 ↔ RevokesOwn k c := by
  constructor
  · -- A revoked grant of another task is checked before and fails after.
    intro hleaves hn source hgrant
    by_contra hother
    rcases h.revoke (p := p) hn with ⟨_, _, hnone⟩ | ⟨j, ref, value, htoken, hrun, _, _⟩
    · exact hnone source hgrant
    · have hgrant' := hgrant
      obtain ⟨j', i, hj', htoken', _⟩ := hgrant
      obtain rfl := CapTable.token_injective (htoken.symm.trans htoken')
      have hsame := hleaves c.arg0 source hgrant' hother 0 1 (k.grants.user i).rights
      unfold Kernel.grantVerdict at hsame
      rw [hrun, htoken, h.tables.access hj'] at hsame
      exact verdict_revokeSlot h.tables.wf j _ 0 1 _ hsame
  · intro hown grant source hgrant hother offset length r
    obtain ⟨j', i, hj', htoken', hsource⟩ := hgrant
    unfold Kernel.grantVerdict
    rw [htoken']
    rcases hc with hn | hn
    · -- A creation keeps every grant that was there.
      obtain ⟨o', c', g', value, hrun, hinv, hkept⟩ := h.create (p := p) hn
      rw [hrun]
      exact hkept.verdict h.tables hinv trivial hj' offset length r
    · rcases h.revoke (p := p) hn with ⟨value, hrun, _⟩ | ⟨j, ref, value, htoken, hrun, hinv, hkept⟩
      · rw [hrun]
        rfl
      · -- The argument is a grant of the current task, so it is another one.
        have hne : j' ≠ j := by
          intro heq
          rw [heq] at hj'
          exact hother (hown hn source ⟨j, i, hj', htoken, hsource⟩)
        rw [hrun]
        exact hkept.verdict h.tables hinv hne hj' offset length r

theorem GrantKernel.newTask (h : GrantKernel k) (i : Fin maxTasks) :
    GrantKernel (K.newTask i k).2 := by
  obtain ⟨objects, caps, hrun, hgrown⟩ := K.newTask_run k i
  rw [hrun]
  exact ⟨h.tables.grow hgrown (by decide), h.ready⟩

/-- What holds of the kernel, and of what the nested runs restore. -/
structure GrantWorld (w : World δ) : Prop where
  kernel : GrantKernel w.kernel
  saved : ∀ s ∈ w.nest, s.2.2.ready = true

theorem GrantBoot.grantKernel (h : GrantBoot k) : GrantKernel k where
  ready := h.ready
  tables :=
    { wf := h.wf
      live := fun _ i hj => absurd hj.2 (h.objects _ i)
      slots := fun i hi => absurd (h.records i) hi
      bound := fun _ i hj => absurd hj.2 (h.objects _ i) }

/-- Every step keeps the invariant. -/
theorem GrantWorld.step {w : World δ} (h : GrantWorld w) {s : UserStep} (hs : GrantCalls w s) :
    GrantWorld (userStep p w s).2 := by
  cases s with
  | syscall c => exact ⟨h.kernel.dispatch hs, h.saved⟩
  | enter task root =>
    refine ⟨⟨h.kernel.tables, h.kernel.ready⟩, ?_⟩
    intro s hs
    rcases List.mem_cons.mp hs with rfl | hs
    · exact h.kernel.ready
    · exact h.saved s hs
  | leave =>
    unfold userStep
    cases hnest : w.nest with
    | nil => exact h
    | cons s nest =>
      have hsaved := h.saved
      rw [hnest] at hsaved
      refine ⟨⟨h.kernel.tables, ?_⟩, ?_⟩
      · exact hsaved s List.mem_cons_self
      · intro s' hs'
        exact hsaved s' (List.mem_cons_of_mem s hs')
  | memory frames tables => exact ⟨⟨h.kernel.tables, h.kernel.ready⟩, h.saved⟩
  | newTask i => exact ⟨h.kernel.newTask i, h.saved⟩

/-- **Grants of other tasks.**  In every run of tasks that create and revoke
    grants, nested in any way, a call leaves the verdicts on the grants of other
    tasks alone exactly when it does not revoke one of them. -/
theorem grant_isolation (p : Platform δ) {log : List (UserStep × UInt64)} {w : World δ}
    (hrun : (userSystem p GrantBoot).RunWhen GrantCalls log w) {c : Syscall}
    (hc : c.IsGrantCall) :
    LeavesOthers w.kernel (syscallDispatch p c w.kernel).2 ↔ RevokesOwn w.kernel c := by
  have hinv : GrantWorld w := by
    apply hrun.invariant (P := GrantWorld)
    · intro w hinit
      refine ⟨hinit.1.grantKernel, ?_⟩
      intro s hs
      rw [hinit.2] at hs
      cases hs
    · intro w s hw hs
      exact hw.step hs
  exact hinv.kernel.leavesOthers_iff hc

/-! ### A grant that another task revokes -/

instance (o : ObjectTable) (id : UInt64) (i : Fin maxUserGrants) :
    Decidable (GrantObject o id i) :=
  match h : objectLookup o id with
  | .error _ => isFalse (by simp [GrantObject, h])
  | .ok object =>
    decidable_of_iff (object.type = ObjType.grant ∧ object.payload = .userGrant i)
      (by simp [GrantObject, h])

instance (o : ObjectTable) (c : CapTable) (j : Fin maxCaps) (i : Fin maxUserGrants) :
    Decidable (IsGrantCap o c j i) := inferInstanceAs (Decidable (_ ∧ _))

theorem GrantBoot.endpointCreate (h : GrantBoot k) (ownerCore : UInt32) (handler : Handler) :
    GrantBoot (K.endpointCreate ownerCore handler k).2 := by
  obtain ⟨r, o', c', endpoints, i, hrun, hgrown⟩ :=
    endpointCreate_run k.objects k.caps k.endpoints ownerCore handler
  unfold K.endpointCreate
  rw [hrun]
  refine ⟨hgrown.wf h.wf, h.records, fun id i' hgrant => ?_, h.ready⟩
  exact h.objects id i' (grantObject_of_grown h.wf hgrown (by decide) hgrant)

/-- The machine has no user grant. -/
theorem grantBoot_machine (initrd : Initrd) : GrantBoot (machine initrd) := by
  have hzero : GrantBoot (Kernel.zero initrd) := by
    refine ⟨tablesWf_zero, fun _ => rfl, ?_, rfl⟩
    intro id i hgrant
    obtain ⟨object, hob, _⟩ := hgrant
    obtain ⟨j, rfl, htype, _⟩ := (objectLookup_eq_ok tablesWf_zero.objects).mp hob
    exact htype rfl
  apply within_startServices (P := GrantBoot) _ _ _ _ hzero
  · intro ownerCore handler k h
    exact h.endpointCreate ownerCore handler
  · intro serviceId endpoint k h
    exact ⟨h.wf, h.records, h.objects, h.ready⟩
  · intro k endpoint h
    exact ⟨h.wf, h.records, h.objects, h.ready⟩

/-- The first task grants sixteen bytes to the console, and while it waits the
    second task runs. -/
def grantThenSwitch : List UserStep :=
  [.newTask 0, .newTask 1, .enter (firstToken 4) 0x1000,
    .syscall ⟨Sys.grantCreate, 0x200000, 16, Right.read, firstToken 0, 0⟩,
    .enter (firstToken 5) 0x1000]

def afterGrantThenSwitch : World Unit :=
  (userSystem quietPlatform GrantBoot).exec ⟨machine ⟨[], true⟩, []⟩ grantThenSwitch

/-- The second task revokes the grant of the first. -/
def revokeOther : Syscall := ⟨Sys.grantRevoke, firstToken 6, 0, 0, 0, 0⟩

theorem run_grantThenSwitch :
    ∃ log, (userSystem quietPlatform GrantBoot).RunWhen GrantCalls log afterGrantThenSwitch := by
  have hinit : (userSystem quietPlatform GrantBoot).init ⟨machine ⟨[], true⟩, []⟩ :=
    ⟨grantBoot_machine _, rfl⟩
  apply (System.RunWhen.init hinit).exec
  exact ⟨trivial, trivial, trivial, .inl rfl, trivial, trivial⟩

/-- One call of that run, to which the theorem applies. -/
theorem grant_isolation_revokeOther :
    ∃ log, (userSystem quietPlatform GrantBoot).RunWhen GrantCalls log afterGrantThenSwitch ∧
      (LeavesOthers afterGrantThenSwitch.kernel
          (syscallDispatch quietPlatform revokeOther afterGrantThenSwitch.kernel).2 ↔
        RevokesOwn afterGrantThenSwitch.kernel revokeOther) := by
  obtain ⟨log, hrun⟩ := run_grantThenSwitch
  exact ⟨log, hrun, grant_isolation quietPlatform hrun (.inr rfl)⟩

/-- A task can revoke the grant of another one. -/
theorem grant_isolation_fails :
    ¬ ∀ (log : List (UserStep × UInt64)) (w : World Unit) (c : Syscall),
      (userSystem quietPlatform GrantBoot).RunWhen GrantCalls log w → c.IsGrantCall →
      LeavesOthers w.kernel (syscallDispatch quietPlatform c w.kernel).2 := by
  intro hall
  obtain ⟨log, hrun⟩ := run_grantThenSwitch
  have hgrant : afterGrantThenSwitch.kernel.GrantOf (firstToken 6) (firstToken 4) :=
    ⟨6, 0, by decide +kernel, by decide +kernel, by decide +kernel⟩
  have hother : firstToken 4 ≠ afterGrantThenSwitch.kernel.tasks.currentUserTask := by
    decide +kernel
  have hsame := hall log _ revokeOther hrun (.inr rfl) _ _ hgrant hother 0 1 Right.read
  have hbefore : afterGrantThenSwitch.kernel.grantVerdict (firstToken 6) 0 1 Right.read = .ok () := by
    decide +kernel
  have hafter : (syscallDispatch quietPlatform revokeOther
      afterGrantThenSwitch.kernel).2.grantVerdict (firstToken 6) 0 1 Right.read ≠ .ok () := by
    decide +kernel
  exact hafter (hsame.trans hbefore)

end isolation

end Scdk
