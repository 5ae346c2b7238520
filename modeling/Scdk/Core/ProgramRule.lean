import Scdk.Core.ProgramCalls

/-! # Steps of programs

    A rule for relations between the states before and after a program: it is enough to
    look at the few actions that system calls and nested runs consist of.

    * `Program.Loads`: all spawns of a program and of its children are answered so,
    * `userTaskCreate_within`: the actions of the creation of a task,
    * `CallSteps`, `ProgramSteps`: a relation that has the actions of system calls, and
      these, as steps,
    * `ProgramSteps.runProgram`: then every program makes such a step. -/

namespace Scdk

variable {δ : Type}

/-- Every spawn has answers with `Q`. -/
def Program.Loads (Q : LoadAnswers → Prop) : Program → Prop
  | .exit _ => True
  | .exception => True
  | .memory _ rest => rest.Loads Q
  | .syscall _ _ answers child rest => Q answers ∧ child.Loads Q ∧ rest.Loads Q

theorem Program.loads_true (prog : Program) : prog.Loads fun _ => True := by
  induction prog with
  | exit regs => trivial
  | exception => trivial
  | memory frames rest ih => exact ih
  | syscall c regs answers child rest ihchild ihrest => exact ⟨trivial, ihchild, ihrest⟩

/-- Other entry cells, and other observations of runs. -/
def Kernel.withCells (k : Kernel (Host δ)) (entry : EntryCells) (pending : Option Fault)
    (log : List RunRecord) : Kernel (Host δ) :=
  { k with
    devices :=
      { k.devices with
        run := { k.devices.run with entry := entry, pending := pending, log := log } } }

/-- A relation that has the actions of `scdk_user_task_create` as steps. -/
theorem userTaskCreate_within {R : Kernel (Host δ) → Kernel (Host δ) → Prop}
    [IsPreorder (Kernel (Host δ)) R] {storage : Option Nat} {pages : PageSupply}
    (htasks : ∀ k t, R k { k with tasks := t })
    (haspace : Effect.Within R (K.addressSpaceCreate storage pages : K (Host δ) UInt64))
    (htask : ∀ ownerCore aspace, Effect.Within R (K.taskCreate ownerCore aspace : K (Host δ) UInt64))
    (hthread : ∀ task, Effect.Within R (K.threadCreate task : K (Host δ) UInt64)) :
    Effect.Within R (userTaskCreate storage pages : K (Host δ) NewTask) := by
  have hset : ∀ t : UserTasks → UserTasks, Effect.Within R (K.setTasks t : K (Host δ) Unit) :=
    fun t k => htasks k _
  have hid : ∀ cap type, Effect.Within R (objectIdFromCap cap type : K (Host δ) UInt64) := by
    intro cap type
    refine .bind (Effect.within_ask _) fun _ => ?_
    exact Effect.within_pure _
  have hmain : ∀ task, Effect.Within R (userThreadCreate task : K (Host δ) UInt64) := by
    intro task
    refine .bind (Effect.within_ask _) fun _ => ?_
    refine .bind (Effect.within_ask _) fun _ => ?_
    refine .bind (hthread _) fun thread => ?_
    refine .bind (hid thread _) fun _ => ?_
    refine .bind (hset _) fun _ => ?_
    refine .bind (hset _) fun _ => ?_
    exact Effect.within_pure thread
  refine .bind (Effect.within_ask _) fun _ => ?_
  refine .bind haspace fun aspace => ?_
  refine .bind (hid aspace _) fun _ => ?_
  refine .bind (htask _ _) fun task => ?_
  refine .bind (hid task _) fun _ => ?_
  refine .bind (hset _) fun _ => ?_
  refine .bind (hmain task).attempt fun r => ?_
  cases r with
  | error e =>
    refine .bind (hset _) fun _ => ?_
    exact Effect.within_fail e
  | ok mainThread => exact Effect.within_pure _

/-- The steps of programs outside of the spawns. -/
structure CallSteps (R : Kernel (Host δ) → Kernel (Host δ) → Prop) : Prop where
  noted : ∀ {k k'}, Noted k k' → R k k'
  faulted : ∀ {e k k'}, Faulted e k k' → R k k'
  cells : ∀ k entry pending log, R k (k.withCells entry pending log)

section calls

variable {R : Kernel (Host δ) → Kernel (Host δ) → Prop} {Q : LoadAnswers → Prop} (h : CallSteps R)
  [IsPreorder (Kernel (Host δ)) R]

include h

theorem CallSteps.noteFault (before : UserTasks) :
    Effect.Within R (noteFault before : K (Host δ) Unit) := by
  intro k
  unfold Scdk.noteFault
  split
  · exact h.cells k _ _ _
  · exact refl k

theorem CallSteps.syscallEntry {d : Peripherals δ} {spawn : K (Host δ) Unit}
    (hspawn : Effect.Within R spawn) (c : Syscall) (regs : UserRegs) :
    Effect.Within R (syscallEntry (d.platform spawn) c regs) := by
  have hdispatch : Effect.Within R (syscallDispatch (d.platform spawn) c) := by
    intro k
    rcases syscallDispatch_outcome h.noted hspawn c k with ⟨e, hfault, _⟩ | hstep
    · exact h.faulted hfault
    · exact hstep
  refine .bind (fun k => h.cells k _ _ _) fun _ => ?_
  refine .bind Effect.within_get fun k => ?_
  apply hdispatch.bind
  intro _
  apply (h.noteFault k.tasks).bind
  intro _
  refine .bind Effect.within_get fun k' => ?_
  exact Effect.within_pure _

/-- A program makes a step when its spawns do. -/
theorem CallSteps.runProgram (d : Peripherals δ) (hhdmOffset : UInt64) {prog : Program}
    (hspawn : ∀ answers user, Q answers → Effect.Within R user →
      Effect.Within R (spawnWith d hhdmOffset answers user)) (hloads : prog.Loads Q) :
    Effect.Within R (runProgram d hhdmOffset prog) := by
  -- By induction on the program; a call may run another one below it.
  induction prog with
  | exit regs =>
    apply (h.syscallEntry (Effect.within_fail _) _ regs).bind
    intro _
    exact Effect.within_pure ()
  | exception =>
    refine .bind Effect.within_get fun k => ?_
    refine .bind (fun k => h.faulted (faulted_markUserFault .perm k)) fun _ => ?_
    exact h.noteFault k.tasks
  | memory frames rest ih =>
    refine .bind (fun k => h.noted ⟨rfl, rfl, rfl, rfl, .of_eq rfl⟩) fun _ => ?_
    exact ih hloads
  | syscall c regs answers child rest ihchild ihrest =>
    obtain ⟨hanswers, hchild, hrest⟩ := hloads
    apply (h.syscallEntry (hspawn answers _ hanswers (ihchild hchild)) c regs).bind
    intro leaves
    exact .ite (Effect.within_pure ()) (ihrest hrest)

end calls

/-- The steps that programs consist of. -/
structure ProgramSteps (R : Kernel (Host δ) → Kernel (Host δ) → Prop) (Q : LoadAnswers → Prop) : Prop
    extends CallSteps R where
  tasks : ∀ k t, R k { k with tasks := t }
  create : ∀ a, Q a → Effect.Within R (userTaskCreate a.storage a.rootPages : K (Host δ) NewTask)
  run : ∀ f a user, Effect.Within R user → Effect.Within R (usermodeRunFlatImage f a user)

section steps

variable {R : Kernel (Host δ) → Kernel (Host δ) → Prop} {Q : LoadAnswers → Prop}
  (h : ProgramSteps R Q) {user : K (Host δ) Unit}

include h

theorem ProgramSteps.setTasks (t : UserTasks → UserTasks) :
    Effect.Within R (K.setTasks t : K (Host δ) Unit) := fun k => h.tasks k _

variable [IsPreorder (Kernel (Host δ)) R]

theorem ProgramSteps.runNewTask (task : UInt64) (i : Fin maxTasks) (j : Fin maxThreads)
    {run : FlatImage → K (Host δ) Unit} (hrun : ∀ f, Effect.Within R (run f))
    (image imageSize endpoint hhdmOffset : UInt64) :
    Effect.Within R (runNewTask task i j run image imageSize endpoint hhdmOffset) := by
  apply (h.setTasks _).bind
  intro _
  refine .bind Effect.within_get fun k => ?_
  apply (h.setTasks _).bind
  intro _
  apply (hrun _).attempt.bind
  intro status
  apply (h.setTasks _).bind
  intro _
  cases status with
  | error e =>
    apply (h.setTasks _).bind
    intro _
    exact Effect.within_fail e
  | ok _ =>
    intro k
    exact h.tasks k _

theorem ProgramSteps.userTaskRunFlat (huser : Effect.Within R user) (task : UInt64)
    (a : RunAnswers) (image imageSize endpoint hhdmOffset : UInt64) :
    Effect.Within R (userTaskRunFlat task a user image imageSize endpoint hhdmOffset) := by
  have hflat : Effect.Within R (runFlat task (fun f => usermodeRunFlatImage f a user) image
      imageSize endpoint hhdmOffset) := by
    refine .bind (Effect.within_require _ _) fun _ => ?_
    refine .bind (Effect.within_ask _) fun i => ?_
    refine .bind (Effect.within_ask _) fun j => ?_
    refine .bind Effect.within_get fun k => ?_
    refine .bind (Effect.within_require _ _) fun _ => ?_
    exact h.runNewTask task i j (fun f => h.run f a user huser) _ _ _ _
  refine .bind Effect.within_get fun k => ?_
  apply hflat.attempt.bind
  intro status
  refine .bind (fun k => h.cells k _ _ _) fun _ => ?_
  exact Effect.within_ask _

/-- A spawn is a step when the program it runs makes one. -/
theorem ProgramSteps.spawnWith (d : Peripherals δ) (hhdmOffset : UInt64) {answers : LoadAnswers}
    (hanswers : Q answers) (huser : Effect.Within R user) :
    Effect.Within R (spawnWith d hhdmOffset answers user) := by
  apply spawnWith_within h.noted
  · exact h.create answers hanswers
  · intro task image size endpoint
    exact h.userTaskRunFlat huser task _ _ _ _ _
  · intro task k
    exact h.tasks k _

/-- **Programs.**  Every program, with all the programs it spawns, makes a step. -/
theorem ProgramSteps.runProgram (d : Peripherals δ) (hhdmOffset : UInt64) {prog : Program}
    (hloads : prog.Loads Q) : Effect.Within R (runProgram d hhdmOffset prog) := by
  refine h.toCallSteps.runProgram d hhdmOffset (fun answers user hanswers huser => ?_) hloads
  exact h.spawnWith d hhdmOffset hanswers huser

end steps

end Scdk
