import Scdk.Arch.FlatRun
import Scdk.Boot
import Scdk.Core.ProgramRule

/-! # The kernel entry state after a nested run

    A task that has another one run inside its system call needs back what the
    processor enters the kernel through: all of `scdk_syscall_task_state`, and
    the stack that the TSS has for faults and interrupts.

    * `EntryRestored`: both are as before, and neither stack has been given back
      to the heap,
    * `TssStep`: steps that leave the stack of the TSS alone, or leave there one
      that has been given back; every run of a program makes such a step,
    * `entry_state_restored_iff`: a run restores the entry state exactly when it
      ends before `scdk_usermode_init`. -/

namespace Scdk

variable {δ : Type}

/-! ## The property -/

/-- `top` is the top of a stack that a run has given back to the heap. -/
def Released (k : Kernel (Host δ)) (top : UInt64) : Prop := top ∈ k.devices.run.released

instance (k : Kernel (Host δ)) (top : UInt64) : Decidable (Released k top) :=
  inferInstanceAs (Decidable (_ ∈ _))

/-- Neither stack on which the kernel is entered has been given back. -/
structure StacksStand (k : Kernel (Host δ)) : Prop where
  syscall : ¬ Released k k.devices.run.entry.kernelStackTop
  fault : ¬ Released k k.devices.run.rsp0

/-- The entry state in `k'` is that in `k`, and its stacks stand. -/
structure EntryRestored (k k' : Kernel (Host δ)) : Prop where
  state : saveTaskState k' = saveTaskState k
  rsp0 : k'.devices.run.rsp0 = k.devices.run.rsp0
  standing : StacksStand k'

/-- The run passes its tests, there are page tables to return to, and the heap
    has a stack for it. -/
structure ReachesInit (f : FlatImage) (a : RunAnswers) (k : Kernel (Host δ)) : Prop where
  checked : (checkFlatImage f k).1 = .ok ()
  rooted : k.vmm.initialized = true
  stack : a.stack ≠ none

/-! ## Steps of the TSS -/

/-- The stack of the TSS and the released stacks are as before, or the stack of
    the TSS is a released one. -/
def TssStep (k k' : Kernel (Host δ)) : Prop :=
  (k'.devices.run.rsp0 = k.devices.run.rsp0 ∧
    k'.devices.run.released = k.devices.run.released) ∨
  Released k' k'.devices.run.rsp0

instance : IsPreorder (Kernel (Host δ)) TssStep where
  refl := fun _ => .inl ⟨rfl, rfl⟩
  trans := by
    intro k k' k'' h h'
    rcases h' with ⟨hrsp', hrel'⟩ | hstale'
    · rcases h with ⟨hrsp, hrel⟩ | hstale
      · exact .inl ⟨hrsp'.trans hrsp, hrel'.trans hrel⟩
      · right
        unfold Released
        rw [hrsp', hrel']
        exact hstale
    · exact .inr hstale'

theorem Noted.tssStep {k k' : Kernel (Host δ)} (h : Noted k k') : TssStep k k' := by
  left
  rw [h.run]
  exact ⟨rfl, rfl⟩

theorem Faulted.tssStep {e : Err} {k k' : Kernel (Host δ)} (h : Faulted e k k') : TssStep k k' := by
  left
  rw [h.run]
  exact ⟨rfl, rfl⟩

/-- A stack that a run has used is released when it ends. -/
theorem Ended.stale {stack : StackPage} {k₂ k' : Kernel (Host δ)} (h : Ended stack k₂ k')
    (htop : k₂.devices.run.rsp0 = stack.top ∨ Released k₂ k₂.devices.run.rsp0) :
    Released k' k'.devices.run.rsp0 := by
  unfold Released
  rw [h.rsp0, h.released]
  rcases htop with htop | hstale
  · rw [htop]
    exact List.mem_cons_self
  · exact List.mem_cons_of_mem _ hstale

/-- The program of a run leaves the stack of the run in the TSS, or a released
    one. -/
theorem Began.stale {stack : StackPage} {k k₁ k₂ : Kernel (Host δ)} (h : Began stack k k₁)
    (hstep : TssStep k₁ k₂) :
    k₂.devices.run.rsp0 = stack.top ∨ Released k₂ k₂.devices.run.rsp0 := by
  rcases hstep with ⟨hrsp, _⟩ | hstale
  · exact .inl (hrsp.trans h.rsp0)
  · exact .inr hstale

section run

variable (f : FlatImage) (a : RunAnswers) {user : K (Host δ) Unit}

/-- A run that reaches the initialisation leaves a released stack in the TSS. -/
theorem usermodeRunFlatImage_released (huser : Effect.Within TssStep user)
    {k : Kernel (Host δ)} (h : ReachesInit f a k) :
    Released (usermodeRunFlatImage f a user k).2
      (usermodeRunFlatImage f a user k).2.devices.run.rsp0 := by
  rw [usermodeRunFlatImage_of_checked f a user h.checked]
  cases runSaved_run f a user k with
  | idle hidle _ =>
    rcases hidle with hinit | hstack
    · rw [h.rooted] at hinit
      cases hinit
    · exact absurd hstack h.stack
  | failed _ _ hbegan hended => exact hended.stale (.inl hbegan.rsp0)
  | entered _ _ hbegan hended => exact hended.stale (hbegan.stale (huser _))

/-- A run that does not reach the initialisation changes nothing of the entry
    state. -/
theorem usermodeRunFlatImage_kept (user : K (Host δ) Unit) {k : Kernel (Host δ)}
    (h : ¬ ReachesInit f a k) :
    saveTaskState (usermodeRunFlatImage f a user k).2 = saveTaskState k ∧
      (usermodeRunFlatImage f a user k).2.devices.run.rsp0 = k.devices.run.rsp0 ∧
      (usermodeRunFlatImage f a user k).2.devices.run.released = k.devices.run.released := by
  cases hcheck : (checkFlatImage f k).1 with
  | error e =>
    rw [usermodeRunFlatImage_of_refused f a user hcheck]
    exact ⟨rfl, rfl, rfl⟩
  | ok _ =>
    rw [usermodeRunFlatImage_of_checked f a user hcheck]
    refine ⟨runSaved_state f a user k, ?_⟩
    cases runSaved_run f a user k with
    | idle _ hkept => exact ⟨hkept.rsp0, hkept.released⟩
    | failed hinit hstack _ _ =>
      exact absurd ⟨hcheck, hinit, by rw [hstack]; exact Option.some_ne_none _⟩ h
    | entered hinit hstack _ _ =>
      exact absurd ⟨hcheck, hinit, by rw [hstack]; exact Option.some_ne_none _⟩ h

theorem tssStep_usermodeRunFlatImage (huser : Effect.Within TssStep user) :
    Effect.Within TssStep (usermodeRunFlatImage f a user) := by
  intro k
  by_cases h : ReachesInit f a k
  · exact .inr (usermodeRunFlatImage_released f a huser h)
  · exact .inl (usermodeRunFlatImage_kept f a user h).2

end run

/-! ## Nested runs -/

section nested

theorem tssStep_steps : ProgramSteps (TssStep : Kernel (Host δ) → Kernel (Host δ) → Prop) fun _ => True where
  noted := Noted.tssStep
  faulted := Faulted.tssStep
  tasks := fun _ _ => .inl ⟨rfl, rfl⟩
  cells := fun _ _ _ _ => .inl ⟨rfl, rfl⟩
  create := fun _ _ => userTaskCreate_within (fun _ _ => .inl ⟨rfl, rfl⟩) (fun _ => .inl ⟨rfl, rfl⟩)
    (fun _ _ _ => .inl ⟨rfl, rfl⟩) (fun _ _ => .inl ⟨rfl, rfl⟩)
  run := fun f a _ huser => tssStep_usermodeRunFlatImage f a huser

/-- Every program, with all the programs it spawns, makes a step of the TSS. -/
theorem tssStep_runProgram (d : Peripherals δ) (hhdmOffset : UInt64) (prog : Program) :
    Effect.Within TssStep (runProgram d hhdmOffset prog) :=
  tssStep_steps.runProgram d hhdmOffset prog.loads_true

/-- The stacks stand where the entry state and the released stacks are those of a
    state in which they do. -/
theorem stacksStand_iff {k k' : Kernel (Host δ)} (hstate : saveTaskState k' = saveTaskState k)
    (hrsp : k'.devices.run.rsp0 = k.devices.run.rsp0)
    (hrel : k'.devices.run.released = k.devices.run.released) :
    StacksStand k' ↔ StacksStand k := by
  have htop : k'.devices.run.entry.kernelStackTop = k.devices.run.entry.kernelStackTop :=
    congrArg SyscallTaskState.kernelStackTop hstate
  have hreleased : ∀ top, Released k' top ↔ Released k top := by
    intro top
    unfold Released
    rw [hrel]
  constructor
  · intro h
    refine ⟨fun hr => h.syscall ?_, fun hr => h.fault ?_⟩
    · rw [htop]
      exact (hreleased _).mpr hr
    · rw [hrsp]
      exact (hreleased _).mpr hr
  · intro h
    refine ⟨fun hr => h.syscall ?_, fun hr => h.fault ?_⟩
    · rw [htop] at hr
      exact (hreleased _).mp hr
    · rw [hrsp] at hr
      exact (hreleased _).mp hr

/-- **The entry state of the parent.**  Whatever the program does, and however
    deep it nests, a run restores the entry state of its caller exactly when it
    ends before it initialises user mode for the program. -/
theorem entry_state_restored_iff (d : Peripherals δ) (hhdmOffset : UInt64) (f : FlatImage)
    (a : RunAnswers) (prog : Program) (k : Kernel (Host δ)) :
    EntryRestored k (usermodeRunFlatImage f a (runProgram d hhdmOffset prog) k).2 ↔
      ¬ ReachesInit f a k ∧ StacksStand k := by
  constructor
  · intro h
    have hreach : ¬ ReachesInit f a k := by
      intro hreach
      exact h.standing.fault
        (usermodeRunFlatImage_released f a (tssStep_runProgram d hhdmOffset prog) hreach)
    obtain ⟨hstate, hrsp, hrel⟩ :=
      usermodeRunFlatImage_kept f a (runProgram d hhdmOffset prog) hreach
    exact ⟨hreach, (stacksStand_iff hstate hrsp hrel).mp h.standing⟩
  · intro h
    obtain ⟨hstate, hrsp, hrel⟩ :=
      usermodeRunFlatImage_kept f a (runProgram d hhdmOffset prog) h.1
    exact ⟨hstate, hrsp, (stacksStand_iff hstate hrsp hrel).mpr h.2⟩

end nested

/-! ### A task that spawns -/

/-- The state around the kernel tables before the first run. -/
def RunState.zero : RunState where
  entry := ⟨0, 0, 0, 0, 0, 0, 0, 0, 0, 0⟩
  rsp0 := 0
  usermodeInitialized := false
  tasks := fun _ => ⟨0, 0, 0, 0, 0⟩
  threads := fun _ => ⟨0, 0, 0, 0, 0, 0, 0, 0, 0, .none, false⟩
  aspaces := fun _ => ⟨0, 0, 0, 0⟩
  released := []
  pending := none
  log := []

/-- A kernel with the state around its tables. -/
def Kernel.host (k : Kernel δ) (run : RunState) : Kernel (Host δ) where
  objects := k.objects
  caps := k.caps
  endpoints := k.endpoints
  services := k.services
  rings := k.rings
  userRings := k.userRings
  grants := k.grants
  files := k.files
  initrd := k.initrd
  rootTmpfsEndpoint := k.rootTmpfsEndpoint
  tasks := k.tasks
  vmm := k.vmm
  frames := k.frames
  syscall := k.syscall
  msg := k.msg
  payload := k.payload
  devices := ⟨k.devices, run⟩
  trace := k.trace

/-- Peripherals that show nothing. -/
def quietPeripherals : Peripherals Unit where
  consoleWrite := fun s _ => s
  consoleClear := fun s => (.ok (), s)
  consoleGetInfo := fun s => (.ok ⟨80, 25, 0, 0, 0⟩, s)
  consoleScroll := fun s _ => (.ok (), s)
  keyboardPoll := fun s => (.error .noent, s)
  grantTest := fun _ => .error .inval

theorem tablesWf_machine (initrd : Initrd) :
    TablesWf (machine initrd).objects (machine initrd).caps := by
  apply within_startServices (P := fun k => TablesWf k.objects k.caps) _ _ _ _ tablesWf_zero
  · intro ownerCore handler k h
    exact (endpointCreate_made h (P := fun _ => True) (fun _ => trivial) k.endpoints ownerCore
      handler).wf
  · exact fun _ _ _ h => h
  · exact fun _ _ h => h

/-- A page of the heap, and the next one. -/
def parentStack : StackPage := ⟨0xffffffffd0000030, by decide⟩

def childStack : StackPage := ⟨0xffffffffd0001070, by decide⟩

/-- The machine with two tasks, where the first has been entered on its stack. -/
def parentMachine : Kernel (Host Unit) :=
  let k := (machine ⟨[], true⟩).host RunState.zero
  let k := (userTaskCreate (some 0) [.ok 0x10000] k).2
  let k := (userTaskCreate (some 1) [.ok 0x20000] k).2
  k.onStack parentStack

/-- The image of the second task. -/
def childImage : FlatImage :=
  ⟨firstToken 7, firstToken 9, userTestCodeVirt, 0xffffffffd0002000, 16, firstToken 0,
    0xffff800000000000⟩

/-- The allocators have memory for the run of the second task. -/
def childAnswers : RunAnswers where
  stack := some childStack
  code := fun i => (.ok (0x30000 + UInt64.ofNat i * 4096), [.ok 0x40000, .ok 0x41000, .ok 0x42000])
  userStack := (.ok 0x50000, [.ok 0x60000, .ok 0x61000, .ok 0x62000])
  returnRsp := 0xffffffffd0000f00
  returnRip := 0xffffffff80001000

theorem reachesInit_child : ReachesInit childImage childAnswers parentMachine :=
  ⟨by decide +kernel, by decide +kernel, by decide +kernel⟩

/-- The stacks of the first task stand when it makes the call. -/
theorem stacksStand_parent : StacksStand parentMachine :=
  ⟨by decide +kernel, by decide +kernel⟩

/-- After the run of the second task, which exits, the first task would take a
    fault on a stack that has been given back. -/
theorem entry_state_restored_fails :
    ¬ ∀ (f : FlatImage) (a : RunAnswers) (prog : Program) (k : Kernel (Host Unit)),
      StacksStand k →
      EntryRestored k
        (usermodeRunFlatImage f a (runProgram quietPeripherals 0xffff800000000000 prog) k).2 := by
  intro hall
  have hrestored := hall childImage childAnswers (.exit ⟨0x6ffffff0, 0x400010, 2⟩) parentMachine
    stacksStand_parent
  exact hrestored.standing.fault
    (usermodeRunFlatImage_released _ _ (tssStep_runProgram _ _ _) reachesInit_child)

end Scdk
