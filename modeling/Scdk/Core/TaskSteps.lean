import Scdk.Arch.EntryState
import Scdk.Core.TaskRecords

/-! # What happens to tasks while others run

    A task runs until its program comes back.  In the meantime it may have other
    tasks made, run and cleaned up, to any depth.

    * `Orderly`: the records in use stay, running tasks stay so, and the current
      task is as before,
    * `CameBack`: the end of the program of a task, which is still running or has
      been killed by a fault of its own,
    * `returns_runProgram`: by induction over the program, where the tasks that it
      spawns are `Orderly` by `orderly_userTaskRunFlat`,
    * `Back`, `Done`: a run that has returned to the function that started it, and
      the end of that function. -/

namespace Scdk

variable {δ : Type}

/-! ## Steps -/

/-- A step in which the task that runs does not fault. -/
structure OrderlyStep (k k' : Kernel (Host δ)) : Prop where
  live : RecordsLive k'
  kept : RecordsKept k.tasks k'.tasks
  running : ∀ i, (k.tasks.tasks i).inUse = true → (k.tasks.tasks i).state = .running →
    (k'.tasks.tasks i).state = .running
  current : k'.tasks.currentUserTask = k.tasks.currentUserTask
  faulted : k'.syscall.userFaulted = k.syscall.userFaulted
  threads : MainThreads k.tasks → MainThreads k'.tasks

/-- The same from states whose records have tokens. -/
def Orderly (k k' : Kernel (Host δ)) : Prop := RecordsLive k → OrderlyStep k k'

instance : IsPreorder (Kernel (Host δ)) Orderly where
  refl := fun _ h => ⟨h, refl _, fun _ _ h => h, rfl, rfl, id⟩
  trans := by
    intro k k' k'' h h' hlive
    have hfirst := h hlive
    have hnext := h' hfirst.live
    refine ⟨hnext.live, IsTrans.trans _ _ _ hfirst.kept hnext.kept, ?_,
      hnext.current.trans hfirst.current, hnext.faulted.trans hfirst.faulted,
      fun hmain => hnext.threads (hfirst.threads hmain)⟩
    intro i huse hrun
    exact hnext.running i (hfirst.kept.taskUse huse) (hfirst.running i huse hrun)

/-- The records are as before. -/
theorem orderly_of_tasks {k k' : Kernel (Host δ)} (htasks : k'.tasks = k.tasks)
    (hfaulted : k'.syscall.userFaulted = k.syscall.userFaulted) (hlast : Lasting k k') :
    Orderly k k' := by
  intro hlive
  have hkept : RecordsKept k.tasks k'.tasks := by
    rw [htasks]
    exact refl _
  have hnames : SameNames k.tasks k'.tasks := by
    rw [htasks]
    exact refl _
  refine ⟨hlive.of_names hlast hkept hnames, hkept, ?_, by rw [htasks], hfaulted, ?_⟩
  · intro i _ hrun
    rw [htasks]
    exact hrun
  · rw [htasks]
    exact id

theorem Noted.orderly {k k' : Kernel (Host δ)} (h : Noted k k') : Orderly k k' :=
  orderly_of_tasks h.tasks h.faulted h.lasting

/-- Notes about runs. -/
theorem orderly_setRun (f : RunState → RunState) :
    Effect.Within Orderly (K.setRun f : K (Host δ) Unit) :=
  fun _ => orderly_of_tasks rfl rfl (.of_eq rfl)

theorem orderly_userTaskCreate (storage : Option Nat) (pages : PageSupply) :
    Effect.Within Orderly (userTaskCreate storage pages : K (Host δ) NewTask) := by
  intro k hlive
  have hcreated := userTaskCreate_run storage pages k
  obtain ⟨hlive', hsame, hthreads, _⟩ := hcreated.records hlive
  refine ⟨hlive', hsame.kept, ?_, hcreated.beside.current, by rw [hcreated.beside.syscall], hthreads⟩
  intro i huse hrun
  rw [hsame.task i huse]
  exact hrun

theorem orderly_taskCleanup (task : UInt64) :
    Effect.Within Orderly (K.taskCleanup task : K (Host δ) Unit) := by
  intro k hlive
  have hnames := sameNames_taskCleanup k.tasks task
  -- Only a dead task is cleaned up; otherwise nothing changes.
  cases hslot : taskSlotForCap k.tasks task with
  | error e =>
    have hrun : taskCleanup k.tasks task = (.error e, k.tasks) := by
      unfold taskCleanup
      rw [hslot]
    refine orderly_of_tasks (congrArg Prod.snd hrun) rfl (.of_eq rfl) hlive
  | ok i =>
    by_cases hdead : (k.tasks.tasks i).state = .dead
    · have hrun : (taskCleanup k.tasks task).2 =
          (k.tasks.killThread (k.tasks.tasks i).mainThreadCap).setTask i
            fun s => { s with state := .cleaned } := by
        unfold taskCleanup
        rw [hslot]
        dsimp only
        rw [if_neg (by simp [hdead])]
        rfl
      have hkept : RecordsKept k.tasks (taskCleanup k.tasks task).2 := by
        rw [hrun]
        exact IsTrans.trans _ _ _ (recordsKept_killThread k.tasks _)
          (recordsKept_setTask _ i fun s => ⟨.cleaned, s.exitStatus, rfl⟩)
      refine ⟨hlive.of_names (.of_eq rfl) hkept hnames, hkept, ?_,
        taskCleanup_current k.tasks task, rfl, ?_⟩
      · -- A task that runs is not the dead one.
        intro i' _ hrunning
        have hi : i' ≠ i := by
          rintro rfl
          rw [hdead] at hrunning
          cases hrunning
        show ((taskCleanup k.tasks task).2.tasks i').state = .running
        have hslot' : (taskCleanup k.tasks task).2.tasks i' =
            (k.tasks.killThread (k.tasks.tasks i).mainThreadCap).tasks i' := by
          rw [hrun]
          exact Function.update_of_ne hi _ _
        rw [hslot', UserTasks.killThread_tasks]
        exact hrunning
      · intro hmain
        obtain ⟨j, hrec⟩ := hmain.hasRecords hlive hslot
        show MainThreads (taskCleanup k.tasks task).2
        rw [taskCleanup_kill hrec hdead]
        exact hmain.kill hlive hrec fun s => ⟨.cleaned, s.exitStatus, rfl⟩
    · have hrun : taskCleanup k.tasks task = (.error .busy, k.tasks) := by
        unfold taskCleanup
        rw [hslot]
        dsimp only
        rw [if_pos hdead]
      exact orderly_of_tasks (congrArg Prod.snd hrun) rfl (.of_eq rfl) hlive

/-! ## Programs -/

/-- The program of the task with records `i` and `j` has come back: the task still
    runs, or has been killed by a fault. -/
structure CameBack (i : Fin maxTasks) (j : Fin maxThreads) (k k' : Kernel (Host δ)) : Prop where
  live : RecordsLive k'
  kept : RecordsKept k.tasks k'.tasks
  others : ∀ i', i' ≠ i → (k.tasks.tasks i').inUse = true →
    (k.tasks.tasks i').state = .running → (k'.tasks.tasks i').state = .running
  current : k'.tasks.currentUserTask = k.tasks.currentUserTask
  self : ((k'.tasks.tasks i).state = .running ∧
      k'.syscall.userFaulted = k.syscall.userFaulted) ∨
    (((k'.tasks.tasks i).state = .dead ∧ (k'.tasks.threads j).state = .dead) ∧
      k'.syscall.userFaulted = true)
  threads : MainThreads k.tasks → MainThreads k'.tasks

/-- The state in which the program of `task` goes on. -/
structure GoesOn (task : UInt64) (i : Fin maxTasks) (j : Fin maxThreads) (k : Kernel (Host δ)) :
    Prop where
  live : RecordsLive k
  records : HasRecords k.tasks task i j
  current : k.tasks.currentUserTask = task
  running : (k.tasks.tasks i).state = .running

/-- What `user` has to do, as the program of whatever task. -/
def Returns (user : K (Host δ) Unit) : Prop :=
  ∀ {task i j k}, GoesOn task i j k → CameBack i j k (user k).2

section steps

variable {task : UInt64} {i : Fin maxTasks} {j : Fin maxThreads} {k k₁ k' : Kernel (Host δ)}

theorem OrderlyStep.goesOn (h : OrderlyStep k k') (hgo : GoesOn task i j k) : GoesOn task i j k' where
  live := h.live
  records := h.kept.hasRecords h.live hgo.records
  current := h.current.trans hgo.current
  running := h.running i hgo.records.taskUse hgo.running

theorem OrderlyStep.cameBack (h : OrderlyStep k k') (hgo : GoesOn task i j k) : CameBack i j k k' where
  live := h.live
  kept := h.kept
  others := fun i' _ huse hrun => h.running i' huse hrun
  current := h.current
  self := .inl ⟨h.running i hgo.records.taskUse hgo.running, h.faulted⟩
  threads := h.threads

theorem CameBack.after (h : CameBack i j k₁ k') (hfirst : OrderlyStep k k₁) : CameBack i j k k' where
  live := h.live
  kept := IsTrans.trans _ _ _ hfirst.kept h.kept
  others := by
    intro i' hi huse hrun
    exact h.others i' hi (hfirst.kept.taskUse huse) (hfirst.running i' huse hrun)
  current := h.current.trans hfirst.current
  self := by
    rw [← hfirst.faulted]
    exact h.self
  threads := fun hmain => h.threads (hfirst.threads hmain)

/-- A step that the program does not see. -/
theorem CameBack.before (h : CameBack i j k k₁) (hlast : OrderlyStep k₁ k')
    (htasks : k'.tasks = k₁.tasks) : CameBack i j k k' where
  live := hlast.live
  kept := IsTrans.trans _ _ _ h.kept hlast.kept
  others := by
    rw [htasks]
    exact h.others
  current := hlast.current.trans h.current
  self := by
    rw [htasks, hlast.faulted]
    exact h.self
  threads := fun hmain => hlast.threads (h.threads hmain)

/-- A fault of the task that runs. -/
theorem Faulted.cameBack {e : Err} (h : Faulted e k k') (hgo : GoesOn task i j k) :
    CameBack i j k k' := by
  have hzero : task ≠ 0 := by
    obtain ⟨huse, hcap⟩ := taskSlotForCap_eq_ok hgo.records.task
    rw [← hcap]
    exact (hgo.live.task i huse).ne_zero
  have hf : StateOnly fun s => { s with exitStatus := e.word, state := .dead } :=
    fun s => ⟨.dead, e.word, rfl⟩
  have htasks : k'.tasks = k.tasks.kill i j fun s => { s with exitStatus := e.word, state := .dead } :=
    h.tasks.trans (taskFaultCurrent_kill hgo.records hgo.current hzero e.word)
  have hkept : RecordsKept k.tasks k'.tasks := by
    rw [htasks]
    exact recordsKept_kill k.tasks i j hf
  have hnames : SameNames k.tasks k'.tasks := by
    rw [htasks]
    exact sameNames_killBoth k.tasks i j hf
  refine ⟨hgo.live.of_names h.lasting hkept hnames, hkept, ?_, ?_, .inr ⟨⟨?_, ?_⟩, h.faulted⟩, ?_⟩
  · intro i' hi _ hrun
    rw [htasks, UserTasks.kill_task_ne _ _ _ hi]
    exact hrun
  · rw [htasks]
    rfl
  · rw [htasks, UserTasks.kill_task]
  · rw [htasks]
    exact UserTasks.kill_thread _ _ _ _
  · intro hmain
    rw [htasks]
    exact hmain.kill hgo.live hgo.records hf

/-- Noting a fault is no step of the records. -/
theorem orderly_noteFault (before : UserTasks) :
    Effect.Within Orderly (noteFault before : K (Host δ) Unit) := by
  intro k
  unfold noteFault
  split
  · exact orderly_setRun _ k
  · exact refl k

theorem noteFault_tasks (before : UserTasks) (k : Kernel (Host δ)) :
    (noteFault before k).2.tasks = k.tasks := by
  unfold noteFault
  split
  · rfl
  · rfl

/-- A system call ends the program in a fault of its own, or is orderly. -/
theorem syscallEntry_orderly {d : Peripherals δ} {spawn : K (Host δ) Unit}
    (hspawn : Effect.Within Orderly spawn) (c : Syscall) (regs : UserRegs)
    (hgo : GoesOn task i j k) :
    ((syscallEntry (d.platform spawn) c regs k).1 = .ok true ∧
      CameBack i j k (syscallEntry (d.platform spawn) c regs k).2) ∨
    OrderlyStep k (syscallEntry (d.platform spawn) c regs k).2 := by
  have hsaved : OrderlyStep k (saveRegs c regs k).2 := orderly_setRun _ k hgo.live
  set k₁ := (saveRegs c regs k).2 with hk₁
  have hgo₁ := hsaved.goesOn hgo
  -- The three parts of the entry: the call, the note of its fault, and whether it leaves.
  obtain ⟨k₂, hk₂⟩ : ∃ k₂, syscallDispatch (d.platform spawn) c k₁ = (.ok (), k₂) :=
    ⟨_, Prod.ext (syscallDispatch_ok _ c k₁) rfl⟩
  have houtcome := syscallDispatch_outcome (R := Orderly) Noted.orderly hspawn (d := d) c k₁
  rw [hk₂] at houtcome
  obtain ⟨k₃, hk₃⟩ : ∃ k₃, noteFault k₁.tasks k₂ = (.ok (), k₃) := by
    unfold noteFault
    split
    · exact ⟨_, rfl⟩
    · exact ⟨_, rfl⟩
  have hnote : Orderly k₂ k₃ := by
    have hstep := orderly_noteFault k₁.tasks k₂
    rw [hk₃] at hstep
    exact hstep
  have hsame : k₃.tasks = k₂.tasks := by
    have htasks := noteFault_tasks k₁.tasks k₂
    rw [hk₃] at htasks
    exact htasks
  have hentry : syscallEntry (d.platform spawn) c regs k =
      (.ok (decide (syscallLeaves c k₁ k₃)), k₃) := by
    have hstart : syscallEntry (d.platform spawn) c regs k = (do
        syscallDispatch (d.platform spawn) c
        noteFault k₁.tasks
        let k' ← Effect.get
        pure (decide (syscallLeaves c k₁ k')) : K (Host δ) Bool) k₁ := rfl
    rw [hstart, Effect.bind_of_ok hk₂, Effect.bind_of_ok hk₃]
    rfl
  rw [hentry]
  rcases houtcome with ⟨e, hfault, hleaves⟩ | hstep
  · left
    have hback := hfault.cameBack hgo₁
    have hlast := hnote hback.live
    refine ⟨?_, (hback.before hlast hsame).after hsaved⟩
    -- What the call left behind the note does not change.
    have hleaves' : syscallLeaves c k₁ k₃ := by
      rcases hleaves with h | h | h | ⟨hnumber, hfaulted⟩
      · exact .inl h
      · exact .inr (.inl h)
      · exact .inr (.inr (.inl h))
      · exact .inr (.inr (.inr ⟨hnumber, hlast.faulted.trans hfaulted⟩))
    exact congrArg Except.ok (decide_eq_true hleaves')
  · right
    have hwhole : Orderly k k₃ :=
      IsTrans.trans _ _ _ (fun _ => hsaved) (IsTrans.trans _ _ _ hstep hnote)
    exact hwhole hgo.live

end steps

/-! ## Runs -/

/-- The user mode of the task with records `i` and `j` is over. -/
structure RunOver (i : Fin maxTasks) (j : Fin maxThreads) (k k' : Kernel (Host δ)) : Prop where
  live : RecordsLive k'
  kept : RecordsKept k.tasks k'.tasks
  others : ∀ i', i' ≠ i → (k.tasks.tasks i').inUse = true →
    (k.tasks.tasks i').state = .running → (k'.tasks.tasks i').state = .running
  self : (k'.tasks.tasks i).state = .running ∨
    ((k'.tasks.tasks i).state = .dead ∧ (k'.tasks.threads j).state = .dead)
  threads : MainThreads k.tasks → MainThreads k'.tasks

theorem CameBack.over {i : Fin maxTasks} {j : Fin maxThreads} {k k' : Kernel (Host δ)}
    (h : CameBack i j k k') : RunOver i j k k' :=
  ⟨h.live, h.kept, h.others, h.self.imp And.left And.left, h.threads⟩

section run

variable {task : UInt64} {i : Fin maxTasks} {j : Fin maxThreads} {k k₁ k₂ k' : Kernel (Host δ)}

/-- The records are as before at both ends of the user mode. -/
theorem RunOver.of_tasks (h : RunOver i j k₁ k₂) (hbegin : k₁.tasks = k.tasks)
    (hend : k'.tasks = k₂.tasks) (hlast : Lasting k₂ k') : RunOver i j k k' := by
  have hkept : RecordsKept k₂.tasks k'.tasks := by
    rw [hend]
    exact refl _
  have hnames : SameNames k₂.tasks k'.tasks := by
    rw [hend]
    exact refl _
  constructor
  · exact h.live.of_names hlast hkept hnames
  · rw [hend, ← hbegin]
    exact h.kept
  · rw [hend, ← hbegin]
    exact h.others
  · rw [hend]
    exact h.self
  · rw [hend, ← hbegin]
    exact h.threads

theorem GoesOn.over (h : GoesOn task i j k) : RunOver i j k k :=
  ⟨h.live, refl _, fun _ _ _ h => h, .inl h.running, id⟩

theorem GoesOn.of_tasks (h : GoesOn task i j k) (htasks : k'.tasks = k.tasks)
    (hlast : Lasting k k') : GoesOn task i j k' := by
  constructor
  · apply h.live.of_names hlast
    · rw [htasks]
      exact refl _
    · rw [htasks]
      exact refl _
  · rw [htasks]
    exact h.records
  · rw [htasks]
    exact h.current
  · rw [htasks]
    exact h.running

variable (f : FlatImage) (a : RunAnswers) {user : K (Host δ) Unit}

/-- The system call state of the caller is there again after a run. -/
theorem usermodeRunFlatImage_state (user : K (Host δ) Unit) (k : Kernel (Host δ)) :
    saveTaskState (usermodeRunFlatImage f a user k).2 = saveTaskState k := by
  cases hcheck : (checkFlatImage f k).1 with
  | error e => rw [usermodeRunFlatImage_of_refused f a user hcheck]
  | ok _ =>
    rw [usermodeRunFlatImage_of_checked f a user hcheck]
    exact runSaved_state f a user k

/-- The run of an image by the task that is current. -/
theorem over_usermodeRunFlatImage (huser : Returns user) (hgo : GoesOn task i j k) :
    RunOver i j k (usermodeRunFlatImage f a user k).2 := by
  cases hcheck : (checkFlatImage f k).1 with
  | error e =>
    rw [usermodeRunFlatImage_of_refused f a user hcheck]
    exact hgo.over
  | ok _ =>
    rw [usermodeRunFlatImage_of_checked f a user hcheck]
    cases runSaved_run f a user k with
    | idle _ hkept => exact hgo.over.of_tasks rfl hkept.tasks hkept.lasting
    | failed _ _ hbegan hended =>
      have hgo₁ := hgo.of_tasks hbegan.tasks hbegan.lasting
      exact hgo₁.over.of_tasks hbegan.tasks hended.tasks hended.lasting
    | @entered _ k₁ _ _ hbegan hended =>
      have hback := huser (hgo.of_tasks hbegan.tasks hbegan.lasting)
      exact hback.over.of_tasks hbegan.tasks hended.tasks hended.lasting

/-! ## The function that starts a task -/

/-- The user mode of a new task is over, and its caller is current again. -/
structure Back (task : UInt64) (i : Fin maxTasks) (j : Fin maxThreads) (k k' : Kernel (Host δ)) :
    Prop extends RunOver i j k k' where
  records : HasRecords k'.tasks task i j
  current : k'.tasks.currentUserTask = k.tasks.currentUserTask

theorem recordsKept_start (t : UserTasks) (task : UInt64) (i : Fin maxTasks) (j : Fin maxThreads) :
    RecordsKept t ((t.setStates i j .running .running).setCurrent task) := by
  have htask := recordsKept_setTask t i (f := fun s => { s with state := .running })
    fun s => ⟨.running, s.exitStatus, rfl⟩
  have hboth := IsTrans.trans _ _ _ htask (recordsKept_setThread _ j .running)
  exact IsTrans.trans _ _ _ hboth (recordsKept_setCurrent _ task)

theorem sameNames_start (t : UserTasks) (task : UInt64) (i : Fin maxTasks) (j : Fin maxThreads) :
    SameNames t ((t.setStates i j .running .running).setCurrent task) :=
  IsTrans.trans _ _ _ (sameNames_setStates t i j _ _) (sameNames_setCurrent _ task)

theorem IsNew.goesOn (h : IsNew k.tasks task i j) (hlive : RecordsLive k) :
    GoesOn task i j (k.startTask task i j) where
  live := hlive.of_names (.of_eq rfl) (recordsKept_start k.tasks task i j)
    (sameNames_start k.tasks task i j)
  records := (sameNames_start k.tasks task i j).hasRecords h.toHasRecords
  current := rfl
  running := by
    have hslot : (k.startTask task i j).tasks.tasks i = { k.tasks.tasks i with state := .running } :=
      Function.update_self _ _ _
    rw [hslot]

/-- Back from the user mode of a new task. -/
theorem RunOver.back (h : RunOver i j (k.startTask task i j) k₂) (hnew : IsNew k.tasks task i j) :
    Back task i j k (k₂.backTo k.tasks.currentUserTask) := by
  have hstart := recordsKept_start k.tasks task i j
  have hcurrent := recordsKept_setCurrent k₂.tasks k.tasks.currentUserTask
  have hkept : RecordsKept k.tasks (k₂.backTo k.tasks.currentUserTask).tasks :=
    IsTrans.trans _ _ _ (IsTrans.trans _ _ _ hstart h.kept) hcurrent
  have hlive : RecordsLive (k₂.backTo k.tasks.currentUserTask) :=
    h.live.of_names (.of_eq rfl) hcurrent (sameNames_setCurrent k₂.tasks _)
  refine ⟨⟨hlive, hkept, ?_, h.self, ?_⟩, hkept.hasRecords hlive hnew.toHasRecords, rfl⟩
  · intro i' hi huse hrun
    have hslot : (k.startTask task i j).tasks.tasks i' = k.tasks.tasks i' :=
      Function.update_of_ne hi _ _
    have hother := h.others i' hi
    rw [hslot] at hother
    exact hother huse hrun
  · intro hmain
    have hbegun : MainThreads (k.startTask task i j).tasks :=
      (hmain.start hnew.threadState (i := i)).of_eq rfl rfl
    exact (h.threads hbegun).of_eq rfl rfl

/-- The function that has run a new task returns, and both records are dead. -/
structure Done (task : UInt64) (i : Fin maxTasks) (j : Fin maxThreads) (k k' : Kernel (Host δ)) :
    Prop where
  live : RecordsLive k'
  kept : RecordsKept k.tasks k'.tasks
  others : ∀ i', i' ≠ i → (k.tasks.tasks i').inUse = true →
    (k.tasks.tasks i').state = .running → (k'.tasks.tasks i').state = .running
  records : HasRecords k'.tasks task i j
  current : k'.tasks.currentUserTask = k.tasks.currentUserTask
  task : (k'.tasks.tasks i).state = .dead
  thread : (k'.tasks.threads j).state = .dead
  threads : MainThreads k.tasks → MainThreads k'.tasks

/-- The function kills the task. -/
theorem Back.kill (h : Back task i j k k₁) {f : UserTaskSlot → UserTaskSlot} (hf : StateOnly f)
    (hdead : ∀ s, (f s).state = .dead) :
    Done task i j k { k₁ with tasks := k₁.tasks.kill i j f } := by
  have hkept := recordsKept_kill k₁.tasks i j hf
  have hnames := sameNames_killBoth k₁.tasks i j hf
  refine ⟨h.live.of_names (.of_eq rfl) hkept hnames, IsTrans.trans _ _ _ h.kept hkept, ?_,
    hnames.hasRecords h.records, h.current, ?_, UserTasks.kill_thread _ _ _ _, ?_⟩
  · intro i' hi huse hrun
    have hslot : (k₁.tasks.kill i j f).tasks i' = k₁.tasks.tasks i' :=
      UserTasks.kill_task_ne _ _ _ hi
    show ((k₁.tasks.kill i j f).tasks i').state = .running
    rw [hslot]
    exact h.others i' hi huse hrun
  · show ((k₁.tasks.kill i j f).tasks i).state = .dead
    rw [UserTasks.kill_task]
    exact hdead _
  · intro hmain
    exact (h.threads hmain).kill h.live h.records hf

/-- The function has the task exit, which a fault may have killed before. -/
theorem Back.exit (h : Back task i j k k₁) (status : UInt64) :
    Done task i j k { k₁ with tasks := (taskExit k₁.tasks task status).2 } := by
  rcases h.self with hrun | ⟨hdead, hthread⟩
  · rw [taskExit_kill h.records hrun status]
    exact h.kill (fun s => ⟨.dead, status, rfl⟩) (fun _ => rfl)
  · have hbusy := taskExit_busy h.records (by rw [hdead]; decide) status
    rw [hbusy]
    exact ⟨h.live, h.kept, h.others, h.records, h.current, hdead, hthread, h.threads⟩

theorem Done.orderly (h : Done task i j k k') (hnew : (k.tasks.tasks i).state = .new)
    (hfaulted : k'.syscall.userFaulted = k.syscall.userFaulted) : OrderlyStep k k' := by
  refine ⟨h.live, h.kept, ?_, h.current, hfaulted, h.threads⟩
  intro i' huse hrun
  have hi : i' ≠ i := by
    rintro rfl
    rw [hnew] at hrun
    cases hrun
  exact h.others i' hi huse hrun

end run

/-! ## `scdk_user_task_run_flat` -/

section runFlat

variable (a : RunAnswers) (task image imageSize endpoint hhdmOffset : UInt64)
  {user : K (Host δ) Unit} {i : Fin maxTasks} {j : Fin maxThreads} {k : Kernel (Host δ)}

/-- The run of a new task ends with both records dead, whatever its status. -/
theorem done_runNewTask (huser : Returns user) (hlive : RecordsLive k)
    (hnew : IsNew k.tasks task i j) :
    Done task i j k (runNewTask task i j (fun f => usermodeRunFlatImage f a user) image imageSize
      endpoint hhdmOffset k).2 := by
  rw [runNewTask_eq]
  set k₁ := k.startTask task i j with hk₁
  set f := k₁.tasks.flatImage i j image imageSize endpoint hhdmOffset with hf
  have hback := (over_usermodeRunFlatImage f a huser (hnew.goesOn hlive)).back hnew
  dsimp only
  generalize usermodeRunFlatImage f a user k₁ = out at hback
  rcases out with ⟨status, k₂⟩
  cases status with
  | error e => exact hback.kill (fun s => ⟨.dead, s.exitStatus, rfl⟩) (fun _ => rfl)
  | ok _ => exact hback.exit 0

/-- The system call state of the caller is there again. -/
theorem runFlat_faulted (user : K (Host δ) Unit) (k : Kernel (Host δ)) :
    (runFlat task (fun f => usermodeRunFlatImage f a user) image imageSize endpoint
      hhdmOffset k).2.syscall.userFaulted = k.syscall.userFaulted := by
  rcases runFlat_cases task image imageSize endpoint hhdmOffset
    (fun f => usermodeRunFlatImage f a user) k with ⟨e, hrun⟩ | ⟨i, j, _, hrun⟩
  · rw [hrun]
  · rw [hrun, runNewTask_eq]
    set k₁ := k.startTask task i j with hk₁
    set f := k₁.tasks.flatImage i j image imageSize endpoint hhdmOffset with hf
    have hstate := usermodeRunFlatImage_state f a user k₁
    dsimp only
    generalize usermodeRunFlatImage f a user k₁ = out at hstate
    rcases out with ⟨status, k₂⟩
    have hfaulted : k₂.syscall.userFaulted = k.syscall.userFaulted :=
      congrArg SyscallTaskState.userFaulted hstate
    cases status with
    | error e => exact hfaulted
    | ok _ => exact hfaulted

theorem orderly_runFlat (huser : Returns user) :
    Effect.Within Orderly (runFlat task (fun f => usermodeRunFlatImage f a user) image imageSize
      endpoint hhdmOffset) := by
  intro k hlive
  have hfaulted := runFlat_faulted a task image imageSize endpoint hhdmOffset user k
  rcases runFlat_cases task image imageSize endpoint hhdmOffset
    (fun f => usermodeRunFlatImage f a user) k with ⟨e, hrun⟩ | ⟨i, j, hnew, hrun⟩
  · rw [hrun]
    exact (refl k : Orderly k k) hlive
  · rw [hrun] at hfaulted ⊢
    exact (done_runNewTask a task image imageSize endpoint hhdmOffset huser hlive hnew).orderly
      hnew.taskState hfaulted

/-- A call that has returned is orderly, for the task that makes it. -/
theorem orderly_userTaskRunFlat (huser : Returns user) :
    Effect.Within Orderly (userTaskRunFlat task a user image imageSize endpoint hhdmOffset) := by
  refine .bind Effect.within_get fun k => ?_
  refine .bind (orderly_runFlat a task image imageSize endpoint hhdmOffset huser).attempt
    fun status => ?_
  refine .bind (fun k' => orderly_setRun _ k') fun _ => ?_
  exact Effect.within_ask _

end runFlat

/-! ## Programs and what they spawn -/

theorem orderly_spawnWith (d : Peripherals δ) (hhdmOffset : UInt64) (answers : LoadAnswers)
    {user : K (Host δ) Unit} (huser : Returns user) :
    Effect.Within Orderly (spawnWith d hhdmOffset answers user) := by
  apply spawnWith_within (R := Orderly) Noted.orderly
  · exact orderly_userTaskCreate _ _
  · intro task image size endpoint
    exact orderly_userTaskRunFlat _ task image size endpoint hhdmOffset huser
  · exact orderly_taskCleanup

/-- **Programs.**  Every program, with all the programs it spawns, comes back as
    the program of whatever task is current. -/
theorem returns_runProgram (d : Peripherals δ) (hhdmOffset : UInt64) (prog : Program) :
    Returns (runProgram d hhdmOffset prog) := by
  induction prog with
  | exit regs =>
    intro task i j k hgo
    have hspawn : Effect.Within Orderly (noSpawn : K (Host δ) Unit) := Effect.within_fail _
    have hentry := syscallEntry_orderly hspawn (d := d) ⟨Sys.exit, 0, 0, 0, 0, 0⟩ regs hgo
    rcases Effect.bind_cases (syscallEntry (d.platform noSpawn) ⟨Sys.exit, 0, 0, 0, 0, 0⟩ regs)
      (fun _ => pure ()) k with heq | ⟨_, heq⟩
    all_goals
      rw [runProgram, heq]
      rcases hentry with ⟨_, hback⟩ | hstep
      · exact hback
      · exact hstep.cameBack hgo
  | exception =>
    intro task i j k hgo
    have hback := (faulted_markUserFault .perm k).cameBack hgo
    exact hback.before (orderly_noteFault k.tasks _ hback.live) (noteFault_tasks _ _)
  | memory frames rest ih =>
    intro task i j k hgo
    have hstep : OrderlyStep k { k with frames := frames } :=
      orderly_of_tasks rfl rfl (.of_eq rfl) hgo.live
    exact (ih (hstep.goesOn hgo)).after hstep
  | syscall c regs answers child rest ihchild ihrest =>
    intro task i j k hgo
    -- The child runs as a task of its own, inside the system call.
    have hspawn := orderly_spawnWith d hhdmOffset answers ihchild
    have hentry := syscallEntry_orderly hspawn (d := d) c regs hgo
    rw [runProgram, Effect.bind_run]
    rcases hcall : syscallEntry (d.platform (spawnWith d hhdmOffset answers
      (runProgram d hhdmOffset child))) c regs k with ⟨r, k'⟩
    rw [hcall] at hentry
    rcases hentry with ⟨hleaves, hback⟩ | hstep
    · rw [show r = .ok true from hleaves]
      exact hback
    · have hreturned : CameBack i j k k' := hstep.cameBack hgo
      cases r with
      | error e => exact hreturned
      | ok leaves =>
        cases leaves with
        | true => exact hreturned
        | false => exact (ihrest (hstep.goesOn hgo)).after hstep

end Scdk
