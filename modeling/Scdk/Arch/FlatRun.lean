import Scdk.Arch.Usermode
import Scdk.Core.Lasting

/-! # What a run does to its caller

    The run of a flat image, for every way in which it can end.

    * `Mapped`: steps of the run that only map pages,
    * `Began`, `Ended`: the state in which the program is entered, and what the
      cleanup does to the state in which it has returned,
    * `SavedRun`: the run has no stack, or fails before the program is entered,
      or runs the program; `runSaved_run`: there is no other case,
    * `usermodeRunFlatImage_of_checked`: the same after the tests on the arguments. -/

namespace Scdk

variable {δ : Type}

/-! ## Mapping -/

/-- Only user memory and the page tables change, and nothing that lasts. -/
structure Mapped (k k' : Kernel (Host δ)) : Prop where
  paging : k'.vmm.initialized = k.vmm.initialized
  tasks : k'.tasks = k.tasks
  syscall : k'.syscall = k.syscall
  devices : k'.devices = k.devices
  lasting : Lasting k k'

instance : IsPreorder (Kernel (Host δ)) Mapped where
  refl := fun k => ⟨rfl, rfl, rfl, rfl, refl k⟩
  trans := fun _ _ _ h h' =>
    ⟨h'.paging.trans h.paging, h'.tasks.trans h.tasks, h'.syscall.trans h.syscall, h'.devices.trans h.devices,
      IsTrans.trans _ _ _ h.lasting h'.lasting⟩

/-- The same for the body of the run, which keeps its stack. -/
structure MappedBody (s s' : Kernel (Host δ) × RunLocals) : Prop where
  kernel : Mapped s.1 s'.1
  stack : s'.2.stack = s.2.stack

instance : IsPreorder (Kernel (Host δ) × RunLocals) MappedBody where
  refl := fun _ => ⟨refl _, rfl⟩
  trans := fun _ _ _ h h' =>
    ⟨IsTrans.trans _ _ _ h.kernel h'.kernel, h'.stack.trans h.stack⟩

theorem mappedBody_call {α : Type} {m : K (Host δ) α} (h : Effect.Within Mapped m) :
    Effect.Within MappedBody (RunBody.call m) := fun s => ⟨h s.1, rfl⟩

theorem mappedBody_assign {f : RunLocals → RunLocals} (h : ∀ l, (f l).stack = l.stack) :
    Effect.Within MappedBody (RunBody.assign f : RunBody δ Unit) := fun s => ⟨refl s.1, h s.2⟩

theorem mapped_fillPage (phys : UInt64) (bytes : List UInt8) :
    Effect.Within Mapped (K.fillPage phys bytes : K (Host δ) Unit) :=
  fun _ => ⟨rfl, rfl, rfl, rfl, .of_eq rfl⟩

theorem mapped_vmmActivateRoot (root : UInt64) :
    Effect.Within Mapped (K.vmmActivateRoot root : K (Host δ) Unit) :=
  fun k => ⟨vmmActivateRoot_initialized k.vmm root, rfl, rfl, rfl, .of_eq rfl⟩

theorem mapped_addressSpaceMap (aspace vaddr paddr flags : UInt64) (pages : PageSupply) :
    Effect.Within Mapped (K.addressSpaceMap aspace vaddr paddr flags pages : K (Host δ) Unit) :=
  fun _ => ⟨addressSpaceMap_initialized _ _ _ _ _ _ _ _ _, rfl, rfl, rfl, .of_eq rfl⟩

theorem mapped_addressSpaceUnmap (aspace vaddr : UInt64) :
    Effect.Within Mapped (K.addressSpaceUnmap aspace vaddr : K (Host δ) Unit) :=
  fun _ => ⟨addressSpaceUnmap_initialized _ _ _ _ _ _, rfl, rfl, rfl, .of_eq rfl⟩

theorem mapped_addressSpaceActivate (aspace : UInt64) :
    Effect.Within Mapped (K.addressSpaceActivate aspace : K (Host δ) Unit) :=
  fun _ => ⟨addressSpaceActivate_initialized _ _ _ _ _, rfl, rfl, rfl, .of_eq rfl⟩

theorem mappedBody_mapCodePages (f : FlatImage) (a : RunAnswers) (n : Nat) :
    ∀ i, Effect.Within MappedBody (mapCodePages f a i n : RunBody δ Unit) := by
  induction n with
  | zero =>
    intro i
    exact Effect.within_pure ()
  | succ n ih =>
    intro i
    apply (mappedBody_call (Effect.within_ask _)).bind
    intro phys
    apply (mappedBody_call fun k => mapped_fillPage phys (f.pageBytes i k) k).bind
    intro _
    apply (mappedBody_call (mapped_addressSpaceMap _ _ _ _ _)).bind
    intro _
    refine .bind (mappedBody_assign fun _ => rfl) fun _ => ?_
    exact ih (i + 1)

theorem mappedBody_mapUserStack (f : FlatImage) (a : RunAnswers) :
    Effect.Within MappedBody (mapUserStack f a : RunBody δ Unit) := by
  apply (mappedBody_call (Effect.within_ask _)).bind
  intro phys
  apply (mappedBody_call (mapped_fillPage phys [])).bind
  intro _
  apply (mappedBody_call (mapped_addressSpaceMap _ _ _ _ _)).bind
  intro _
  exact mappedBody_assign fun _ => rfl

theorem mapped_unmapCodePages (f : FlatImage) (n : Nat) :
    ∀ i, Effect.Within Mapped (unmapCodePages f i n : K (Host δ) Unit) := by
  induction n with
  | zero =>
    intro i
    exact Effect.within_pure ()
  | succ n ih =>
    intro i
    apply (mapped_addressSpaceUnmap _ _).attempt.bind
    intro _
    exact ih (i + 1)

theorem mapped_unmapAll (f : FlatImage) (l : RunLocals) :
    Effect.Within Mapped (unmapAll f l : K (Host δ) Unit) := by
  have hend : Effect.Within Mapped (do
      if l.stackMapped = true then
        let _ ← (K.addressSpaceUnmap f.aspace (userTestStackTop - 4096)).attempt
      unmapCodePages f 0 l.mappedCodePages : K (Host δ) Unit) := by
    split
    · apply (mapped_addressSpaceUnmap _ _).attempt.bind
      intro _
      exact mapped_unmapCodePages f _ 0
    · exact mapped_unmapCodePages f _ 0
  unfold unmapAll
  cases l.bootRoot with
  | none => exact hend
  | some root =>
    apply (mapped_vmmActivateRoot root).attempt.bind
    intro _
    exact hend

/-! ## The body -/

/-- The state after `scdk_usermode_init` with this stack. -/
def Kernel.withStack (k : Kernel (Host δ)) (s : StackPage) : Kernel (Host δ) :=
  { k with
    syscall := { k.syscall.reset with ready := true }
    devices :=
      { k.devices with
        run :=
          { k.devices.run with
            entry := { k.devices.run.entry with kernelStackTop := s.top }
            rsp0 := s.top
            usermodeInitialized := true } } }

/-- The state once `scdk_usermode_init` has run on a stack from the heap. -/
def Kernel.onStack (k : Kernel (Host δ)) (s : StackPage) : Kernel (Host δ) :=
  { k with
    syscall := { k.syscall.reset with ready := true }
    devices :=
      { k.devices with
        run :=
          { k.devices.run with
            entry := { k.devices.run.entry with kernelStackTop := s.top }
            rsp0 := s.top
            usermodeInitialized := true
            released := handOut k.devices.run.released s.top } } }

/-- The state with the frame that `scdk_enter_usermode_asm` saves. -/
def Kernel.enter (k : Kernel (Host δ)) (a : RunAnswers) : Kernel (Host δ) :=
  { k with
    devices :=
      { k.devices with
        run :=
          { k.devices.run with
            entry :=
              { k.devices.run.entry with
                userReturnRsp := a.returnRsp, userReturnRip := a.returnRip } } } }

theorem usermodeInit_withStack (stack : StackPage) (k : Kernel (Host δ)) :
    usermodeInit stack.top k = (.ok (), k.withStack stack) := by
  have hok : stackTopOk stack.top := stack.ok
  unfold usermodeInit
  rw [Effect.bind_of_ok (Effect.require_pos hok _)]
  unfold syscallInit
  rw [Effect.bind_of_ok (show K.setRun _ _ = (.ok (), _) from rfl)]
  rw [Effect.bind_run, Effect.bind_of_ok (Effect.require_pos hok _)]
  rfl

theorem usermodeInit_top (s : StackPage) (k : Kernel (Host δ)) :
    usermodeInit s.top (K.takeStack s k).2 = (.ok (), k.onStack s) :=
  usermodeInit_withStack s (K.takeStack s k).2

variable (f : FlatImage) (a : RunAnswers) (user : K (Host δ) Unit)

/-- After the program only the page tables change. -/
theorem runInUsermode_run (root : UInt64) (s : Kernel (Host δ) × RunLocals) :
    MappedBody ((user (s.1.enter a)).2, s.2) (runInUsermode a user root s).2 := by
  unfold runInUsermode
  have henter : RunBody.call (enterUsermode a user) s = (.ok (), ((user (s.1.enter a)).2, s.2)) := rfl
  rw [Effect.bind_of_ok henter, Effect.bind_of_ok Effect.get_run]
  apply (mappedBody_call (mapped_vmmActivateRoot root)).attempt.bind
  intro _
  refine .bind (mappedBody_assign fun _ => rfl) fun _ => ?_
  refine .bind (Effect.within_ask _) fun _ => ?_
  exact Effect.within_require _ _

/-- The body with a stack starts in the state once `scdk_usermode_init` has run. -/
theorem runOnStack_start (root : UInt64) (stack : StackPage) (s : Kernel (Host δ) × RunLocals) :
    runOnStack f a user root stack s = (do
      mapCodePages f a 0 f.codePages.toNat
      mapUserStack f a
      .call (K.addressSpaceActivate f.aspace)
      runInUsermode a user root : RunBody δ Unit)
        (s.1.onStack stack, { s.2 with stack := some stack }) := by
  unfold runOnStack
  have htake : RunBody.call (K.takeStack stack) s = (.ok (), ((K.takeStack stack s.1).2, s.2)) := rfl
  have hassign : RunBody.assign (fun l => { l with stack := some stack })
      ((K.takeStack stack s.1).2, s.2) =
        (.ok (), ((K.takeStack stack s.1).2, { s.2 with stack := some stack })) := rfl
  have hinit : RunBody.call (usermodeInit stack.top)
      ((K.takeStack stack s.1).2, { s.2 with stack := some stack }) =
        (.ok (), (s.1.onStack stack, { s.2 with stack := some stack })) := by
    unfold RunBody.call
    rw [usermodeInit_top]
  rw [Effect.bind_of_ok htake, Effect.bind_of_ok hassign, Effect.bind_of_ok hinit]

/-- The body with a stack: it fails while it maps, or runs the program. -/
theorem runOnStack_run (root : UInt64) (stack : StackPage) (s : Kernel (Host δ) × RunLocals) :
    ∃ k₁, Mapped (s.1.onStack stack) k₁ ∧
      (runOnStack f a user root stack s).2.2.stack = some stack ∧
      (Mapped k₁ (runOnStack f a user root stack s).2.1 ∨
        Mapped (user (k₁.enter a)).2 (runOnStack f a user root stack s).2.1) := by
  set s₀ : Kernel (Host δ) × RunLocals :=
    (s.1.onStack stack, { s.2 with stack := some stack }) with hs₀
  have hstart : runOnStack f a user root stack s = (do
      mapCodePages f a 0 f.codePages.toNat
      mapUserStack f a
      .call (K.addressSpaceActivate f.aspace)
      runInUsermode a user root : RunBody δ Unit) s₀ := runOnStack_start f a user root stack s
  -- A state of the body in which the program has not been entered.
  have hfailed : ∀ s', MappedBody s₀ s' → ∃ k₁, Mapped (s.1.onStack stack) k₁ ∧
      s'.2.stack = some stack ∧ (Mapped k₁ s'.1 ∨ Mapped (user (k₁.enter a)).2 s'.1) :=
    fun s' h => ⟨s'.1, h.kernel, h.stack, .inl (refl _)⟩
  rw [hstart]
  have hcode := mappedBody_mapCodePages f a f.codePages.toNat 0 s₀
  rcases Effect.bind_cases (mapCodePages f a 0 f.codePages.toNat) _ s₀ with heq | ⟨_, heq⟩
  · rw [heq]
    exact hfailed _ hcode
  rw [heq]
  generalize (mapCodePages f a 0 f.codePages.toNat s₀).2 = s₁ at hcode
  have hstack := IsTrans.trans _ _ _ hcode (mappedBody_mapUserStack f a s₁)
  rcases Effect.bind_cases (mapUserStack f a) _ s₁ with heq | ⟨_, heq⟩
  · rw [heq]
    exact hfailed _ hstack
  rw [heq]
  generalize (mapUserStack f a s₁).2 = s₂ at hstack
  have hactivate : MappedBody s₂ (RunBody.call (K.addressSpaceActivate f.aspace) s₂).2 :=
    mappedBody_call (mapped_addressSpaceActivate f.aspace) s₂
  have hactive := IsTrans.trans _ _ _ hstack hactivate
  rcases Effect.bind_cases (RunBody.call (K.addressSpaceActivate f.aspace)) _ s₂ with
    heq | ⟨_, heq⟩
  · rw [heq]
    exact hfailed _ hactive
  rw [heq]
  generalize (RunBody.call (K.addressSpaceActivate f.aspace) s₂).2 = s₃ at hactive
  have hrun := runInUsermode_run a user root s₃
  exact ⟨s₃.1, hactive.kernel, hrun.stack.trans hactive.stack, .inr hrun.kernel⟩

/-! ## The cleanup -/

theorem unmapCodePages_ok (n : Nat) :
    ∀ i k, (unmapCodePages f i n k : Except Err Unit × Kernel (Host δ)).1 = .ok () := by
  induction n with
  | zero =>
    intro i k
    rfl
  | succ n ih =>
    intro i k
    exact ih (i + 1) _

theorem unmapAll_ok (l : RunLocals) (k : Kernel (Host δ)) : (unmapAll f l k).1 = .ok () := by
  unfold unmapAll
  cases l.bootRoot with
  | none =>
    cases l.stackMapped with
    | false => exact unmapCodePages_ok f _ 0 k
    | true => exact unmapCodePages_ok f _ 0 _
  | some root =>
    cases l.stackMapped with
    | false => exact unmapCodePages_ok f _ 0 _
    | true => exact unmapCodePages_ok f _ 0 _

/-- The cleanup maps, restores, and frees the stack of the run if it has one. -/
theorem runCleanup_run (saved : SyscallTaskState) (l : RunLocals) (k : Kernel (Host δ)) :
    ∃ k₁, Mapped k k₁ ∧ (runCleanup f saved l k).2 =
      match l.stack with
      | some stack => (K.freeStack stack (restoreTaskState saved k₁).2).2
      | none => (restoreTaskState saved k₁).2 := by
  refine ⟨(unmapAll f l k).2, mapped_unmapAll f l k, ?_⟩
  unfold runCleanup
  rw [Effect.bind_of_ok (Prod.ext (unmapAll_ok f l k) rfl),
    Effect.bind_of_ok (show restoreTaskState saved _ = (.ok (), _) from rfl)]
  cases l.stack with
  | none => rfl
  | some stack => rfl

/-- Every way out restores the state of the system call. -/
theorem runSaved_state (k : Kernel (Host δ)) :
    saveTaskState (runSaved f a user k).2 = saveTaskState k := by
  unfold runSaved
  rcases runBody f a user (k, ⟨none, none, 0, false⟩) with ⟨status, k', l⟩
  obtain ⟨k₁, _, hclean⟩ := runCleanup_run f (saveTaskState k) l k'
  dsimp only
  rw [hclean]
  cases l.stack with
  | none => exact saveTaskState_restore _ _
  | some stack => exact saveTaskState_restore _ _

/-! ## The run -/

/-- What is observed of runs and the records of tasks are as before, and so is the
    stack for faults; what has been initialized stays so. -/
structure RunKept (k k' : Kernel (Host δ)) : Prop where
  paging : k'.vmm.initialized = k.vmm.initialized
  usermode : k'.devices.run.usermodeInitialized = k.devices.run.usermodeInitialized
  tasks : k'.tasks = k.tasks
  rsp0 : k'.devices.run.rsp0 = k.devices.run.rsp0
  released : k'.devices.run.released = k.devices.run.released
  pending : k'.devices.run.pending = k.devices.run.pending
  log : k'.devices.run.log = k.devices.run.log
  lasting : Lasting k k'

/-- The program is entered on `stack` in state `k₁`. -/
structure Began (stack : StackPage) (k k₁ : Kernel (Host δ)) : Prop where
  paging : k₁.vmm.initialized = k.vmm.initialized
  usermode : k₁.devices.run.usermodeInitialized = true
  tasks : k₁.tasks = k.tasks
  faulted : k₁.syscall.userFaulted = false
  rsp0 : k₁.devices.run.rsp0 = stack.top
  released : k₁.devices.run.released = handOut k.devices.run.released stack.top
  pending : k₁.devices.run.pending = k.devices.run.pending
  log : k₁.devices.run.log = k.devices.run.log
  lasting : Lasting k k₁

/-- The run on `stack` ends in state `k'`, where its program has come back in
    state `k₂`. -/
structure Ended (stack : StackPage) (k₂ k' : Kernel (Host δ)) : Prop where
  paging : k'.vmm.initialized = k₂.vmm.initialized
  usermode : k'.devices.run.usermodeInitialized = k₂.devices.run.usermodeInitialized
  tasks : k'.tasks = k₂.tasks
  rsp0 : k'.devices.run.rsp0 = k₂.devices.run.rsp0
  released : k'.devices.run.released = stack.top :: k₂.devices.run.released
  pending : k'.devices.run.pending = k₂.devices.run.pending
  log : k'.devices.run.log = k₂.devices.run.log
  lasting : Lasting k₂ k'

/-- The ways in which a run can end. -/
inductive SavedRun (k k' : Kernel (Host δ)) : Prop where
  /-- No page tables are active, or there is no memory for the stack. -/
  | idle (h : k.vmm.initialized = false ∨ a.stack = none) (hkept : RunKept k k')
  /-- The image cannot be mapped. -/
  | failed {stack k₁} (hinit : k.vmm.initialized = true) (h : a.stack = some stack)
      (hbegan : Began stack k k₁) (hended : Ended stack k₁ k')
  /-- The program runs. -/
  | entered {stack k₁} (hinit : k.vmm.initialized = true) (h : a.stack = some stack)
      (hbegan : Began stack k k₁) (hended : Ended stack (user k₁).2 k')

theorem Mapped.began {k k₁ : Kernel (Host δ)} {stack : StackPage} (h : Mapped (k.onStack stack) k₁) :
    Began stack k k₁ where
  paging := h.paging
  usermode := by simp only [h.devices, Kernel.onStack]
  tasks := h.tasks
  faulted := by simp only [h.syscall, Kernel.onStack, SyscallState.reset]
  rsp0 := by simp only [h.devices, Kernel.onStack]
  released := by simp only [h.devices, Kernel.onStack]
  pending := by simp only [h.devices, Kernel.onStack]
  log := by simp only [h.devices, Kernel.onStack]
  lasting := by
    have hinit : Lasting k (k.onStack stack) := .of_eq rfl
    exact IsTrans.trans _ _ _ hinit h.lasting

/-- The frame that is saved is none of what is observed. -/
theorem Began.enter {k k₁ : Kernel (Host δ)} {stack : StackPage} (h : Began stack k k₁) :
    Began stack k (k₁.enter a) := by
  have hframe : Lasting k₁ (k₁.enter a) := .of_eq rfl
  exact ⟨h.paging, h.usermode, h.tasks, h.faulted, h.rsp0, h.released, h.pending, h.log,
    IsTrans.trans _ _ _ h.lasting hframe⟩

theorem runCleanup_ended {stack : StackPage} {l : RunLocals} (hl : l.stack = some stack)
    (saved : SyscallTaskState) {k₂ k : Kernel (Host δ)} (h : Mapped k₂ k) :
    Ended stack k₂ (runCleanup f saved l k).2 := by
  obtain ⟨k₁, hmapped, hclean⟩ := runCleanup_run f saved l k
  have hall := IsTrans.trans _ _ _ h hmapped
  rw [hclean, hl]
  constructor
  case paging => exact hall.paging
  case tasks => exact hall.tasks
  case lasting =>
    have hrestored : Lasting k₁ (K.freeStack stack (restoreTaskState saved k₁).2).2 := .of_eq rfl
    exact IsTrans.trans _ _ _ hall.lasting hrestored
  all_goals
    rw [← hall.devices]
    rfl

theorem runCleanup_kept {l : RunLocals} (hl : l.stack = none) (saved : SyscallTaskState)
    (k : Kernel (Host δ)) : RunKept k (runCleanup f saved l k).2 := by
  obtain ⟨k₁, hmapped, hclean⟩ := runCleanup_run f saved l k
  rw [hclean, hl]
  constructor
  case paging => exact hmapped.paging
  case tasks => exact hmapped.tasks
  case lasting =>
    have hrestored : Lasting k₁ (restoreTaskState saved k₁).2 := .of_eq rfl
    exact IsTrans.trans _ _ _ hmapped.lasting hrestored
  all_goals
    rw [← hmapped.devices]
    rfl

/-- **Runs.**  A run ends in one of these ways. -/
theorem runSaved_run (k : Kernel (Host δ)) : SavedRun a user k (runSaved f a user k).2 := by
  set l₀ : RunLocals := ⟨none, none, 0, false⟩ with hl₀
  have hbody : ∀ out, runBody f a user (k, l₀) = out →
      (runSaved f a user k).2 = (runCleanup f (saveTaskState k) out.2.2 out.2.1).2 := by
    intro out hout
    unfold runSaved
    rw [hout]
  by_cases hinit : k.vmm.initialized = false
  · have hroot : RunBody.call K.vmmCurrentRoot (k, l₀) = (.error .notsup, (k, l₀)) := by
      show (if k.vmm.initialized = false then _ else _, (k, l₀)) = _
      rw [if_pos hinit]
    rw [hbody _ (Effect.bind_of_error hroot _)]
    exact .idle (.inl hinit) (runCleanup_kept f rfl _ k)
  · have hroot : RunBody.call K.vmmCurrentRoot (k, l₀) = (.ok k.vmm.activeCr3Phys, (k, l₀)) := by
      show (if k.vmm.initialized = false then _ else _, (k, l₀)) = _
      rw [if_neg hinit]
    rw [Bool.not_eq_false] at hinit
    cases hstack : a.stack with
    | none =>
      have hstart : runBody f a user (k, l₀) =
          (.error .nomem, (k, { l₀ with bootRoot := some k.vmm.activeCr3Phys })) := by
        unfold runBody
        rw [Effect.bind_of_ok hroot, hstack]
        rfl
      rw [hbody _ hstart]
      exact .idle (.inr hstack) (runCleanup_kept f rfl _ k)
    | some stack =>
      have hstart : runBody f a user (k, l₀) =
          runOnStack f a user k.vmm.activeCr3Phys stack
            (k, { l₀ with bootRoot := some k.vmm.activeCr3Phys }) := by
        unfold runBody
        rw [Effect.bind_of_ok hroot, hstack]
        rfl
      rw [hbody _ hstart]
      obtain ⟨k₁, hmapped, hlocal, hend⟩ := runOnStack_run f a user k.vmm.activeCr3Phys stack
        (k, { l₀ with bootRoot := some k.vmm.activeCr3Phys })
      have hbegan : Began stack k k₁ := Mapped.began hmapped
      generalize runOnStack f a user k.vmm.activeCr3Phys stack
        (k, { l₀ with bootRoot := some k.vmm.activeCr3Phys }) = out at hlocal hend
      rcases hend with hend | hend
      · exact .failed hinit hstack hbegan (runCleanup_ended f hlocal _ hend)
      · exact .entered hinit hstack (hbegan.enter a) (runCleanup_ended f hlocal _ hend)

/-! ## The tests -/

/-- The tests of a run read the state. -/
theorem checkFlatImage_state (k : Kernel δ) : (checkFlatImage f k).2 = k := by
  have hsame : Effect.Within (fun k k' : Kernel δ => k' = k) (checkFlatImage f) := by
    have : IsPreorder (Kernel δ) fun k k' => k' = k :=
      { refl := fun _ => rfl, trans := fun _ _ _ h h' => h'.trans h }
    refine .bind (Effect.within_require _ _) fun _ => ?_
    refine .bind (Effect.within_require _ _) fun _ => ?_
    refine .bind (Effect.within_require _ _) fun _ => ?_
    refine .bind (Effect.within_require _ _) fun _ => ?_
    refine .bind (Effect.within_ask _) fun _ => ?_
    refine .bind (Effect.within_ask _) fun _ => ?_
    exact Effect.within_pure ()
  exact hsame k

/-- A run that passes its tests is the run with the state saved. -/
theorem usermodeRunFlatImage_of_checked {k : Kernel (Host δ)}
    (h : (checkFlatImage f k).1 = .ok ()) :
    usermodeRunFlatImage f a user k = runSaved f a user k := by
  exact Effect.bind_of_ok (Prod.ext h (checkFlatImage_state f k)) _

theorem usermodeRunFlatImage_of_refused {k : Kernel (Host δ)} {e : Err}
    (h : (checkFlatImage f k).1 = .error e) :
    usermodeRunFlatImage f a user k = (.error e, k) := by
  exact Effect.bind_of_error (Prod.ext h (checkFlatImage_state f k)) _

end Scdk
