import Scdk.Core.ImageRelease
import Scdk.Core.ProgramStays
import Scdk.Core.SpawnMemory
import Scdk.Core.TaskSteps

/-! # One spawn

    A spawn loads a program, runs it as a task of its own and cleans the task up.

    * `HandsOver`, `Enters`: the state in which a program is entered; `Passes`: a program
      that has made a successful call and exits,
    * `spawnWith_eq_ok`, `loaderLoadFromVfs_eq_ok`: what a spawn that succeeds has done,
    * `SpawnReady`: the request is in order, and stays so,
    * `spawn_enters`: with room and memory, a spawn enters its program, succeeds exactly
      when it passes, and takes `TableRoom.spawn`,
    * `spawnRoom_of_ok`: a spawn that succeeds has had room. -/

namespace Scdk

variable {δ : Type}

/-! ## Entering a program -/

/-- The code hands over to the program in state `kᵤ`: what follows depends on the program
    through the state in which it comes back. -/
def HandsOver {α : Type} (code : K (Host δ) Unit → K (Host δ) α) (k kᵤ : Kernel (Host δ)) : Prop :=
  ∃ back : Kernel (Host δ) → Except Err α × Kernel (Host δ), ∀ user, code user k = back (user kᵤ).2

/-- The code enters the program in state `kᵤ`, and it makes a difference what that does. -/
def Enters {α : Type} (code : K (Host δ) Unit → K (Host δ) α) (k kᵤ : Kernel (Host δ)) : Prop :=
  HandsOver code k kᵤ ∧ ∃ user user', code user k ≠ code user' k

/-- Code that depends on its program at all enters it in one state. -/
theorem HandsOver.unique {α : Type} {code : K (Host δ) Unit → K (Host δ) α}
    {k kᵤ kᵤ' : Kernel (Host δ)} (h : HandsOver code k kᵤ) (h' : HandsOver code k kᵤ')
    {user user' : K (Host δ) Unit} (hne : code user k ≠ code user' k) : kᵤ = kᵤ' := by
  classical
  by_contra hdiff
  obtain ⟨back, hback⟩ := h
  obtain ⟨back', hback'⟩ := h'
  -- a program that is the one in the first state, and the other one elsewhere
  let mixed : K (Host δ) Unit := fun s => if s = kᵤ then user s else user' s
  have hfirst : mixed kᵤ = user kᵤ := if_pos rfl
  have hsecond : mixed kᵤ' = user' kᵤ' := if_neg (Ne.symm hdiff)
  apply hne
  calc
    code user k = back (user kᵤ).2 := hback user
    _ = code mixed k := by rw [hback mixed, hfirst]
    _ = back' (user' kᵤ').2 := by rw [hback' mixed, hsecond]
    _ = code user' k := (hback' user').symm

theorem Enters.unique {α : Type} {code : K (Host δ) Unit → K (Host δ) α} {k kᵤ kᵤ' : Kernel (Host δ)}
    (h : Enters code k kᵤ) (h' : Enters code k kᵤ') : kᵤ = kᵤ' := by
  obtain ⟨user, user', hne⟩ := h.2
  exact h.1.unique h'.1 hne

/-- The program has come back: it has made a successful endpoint call, and it exits and
    has not been killed by a fault. -/
structure Passes (k : Kernel (Host δ)) : Prop where
  called : k.syscall.endpointCallPassed = true
  exited : k.syscall.userExited = true
  running : ∀ i, taskSlotForCap k.tasks k.tasks.currentUserTask = .ok i →
    (k.tasks.tasks i).state = .running

/-! ## From the program to the end of the spawn -/

section finish

variable {f : FlatImage} {k : Kernel (Host δ)} {root : UInt64} {l : RunLocals}

/-- The way back from user mode answers whether the program has passed. -/
theorem leaveUsermode_answer (hinit : k.vmm.initialized = true) (hroot : RootOk root)
    (hup : k.devices.run.usermodeInitialized = true) (saved : SyscallTaskState) :
    ((leaveUsermode f saved root l k).1 = .ok () ↔
      k.syscall.userExited = true ∧ k.syscall.endpointCallPassed = true) := by
  -- The root to return to is in order, so only the flags of the program decide.
  have hactivate : RunBody.call (K.vmmActivateRoot root) (k, l) =
      (.ok (), ({ k with vmm := { k.vmm with activeCr3Phys := root } }, l)) := by
    unfold RunBody.call K.vmmActivateRoot Scdk.vmmActivateRoot
    rw [validateRoot_ok hinit hroot]
  have hafter : (leaveUsermode f saved root l k).1 = (afterUsermode root (k, l)).1 := rfl
  rw [hafter]
  unfold afterUsermode
  rw [Effect.bind_of_ok Effect.get_run]
  dsimp only
  rw [Effect.attempt_bind, hactivate]
  have hassign : RunBody.assign (fun l => { l with bootRoot := none })
      ({ k with vmm := { k.vmm with activeCr3Phys := root } }, l) =
        (.ok (), ({ k with vmm := { k.vmm with activeCr3Phys := root } },
          { l with bootRoot := none })) := rfl
  rw [Effect.bind_of_ok hassign, Effect.ask_bind]
  dsimp only
  by_cases hpass : k.devices.run.usermodeInitialized = true ∧ k.syscall.userExited = true ∧
      k.syscall.endpointCallPassed = true
  · rw [Effect.require_pos hpass]
    exact ⟨fun _ => hpass.2, fun _ => rfl⟩
  · rw [Effect.require_neg hpass]
    exact ⟨fun h => (nomatch h), fun h => absurd ⟨hup, h⟩ hpass⟩

/-- It leaves the records of tasks alone. -/
theorem leaveUsermode_rest (saved : SyscallTaskState) :
    (leaveUsermode f saved root l k).2.tasks = k.tasks ∧
      Lasting k (leaveUsermode f saved root l k).2 := by
  unfold leaveUsermode
  have hafter := afterUsermode_state root k l
  generalize afterUsermode root (k, l) = out at hafter ⊢
  obtain ⟨status, k', l'⟩ := out
  obtain ⟨rfl, rfl⟩ := Prod.mk.inj hafter
  obtain ⟨k₁, hmapped, hclean⟩ := runCleanup_run f saved { l with bootRoot := none }
    { k with vmm := (Scdk.vmmActivateRoot k.vmm root).2 }
  have hstart : Lasting k { k with vmm := (Scdk.vmmActivateRoot k.vmm root).2 } := .of_eq rfl
  have hlast := IsTrans.trans _ _ _ hstart hmapped.lasting
  dsimp only
  rw [hclean]
  cases l.stack with
  | none => exact ⟨hmapped.tasks, IsTrans.trans _ _ _ hlast (.of_eq rfl)⟩
  | some stack => exact ⟨hmapped.tasks, IsTrans.trans _ _ _ hlast (.of_eq rfl)⟩

variable {task : UInt64} {i : Fin maxTasks} {j : Fin maxThreads} {k₀ : Kernel (Host δ)}

/-- The end of a load answers the status of the run, and that of the exit. -/
theorem finishLoad_error (caller : Caller) (e : Err) :
    (finishLoad task i j caller (.error e) k).1 = .error e := rfl

/-- A task that still runs is ended, and the load answers it. -/
theorem finishLoad_ok (h : Back task i j k₀ k) (hrun : (k.tasks.tasks i).state = .running)
    (caller : Caller) :
    (finishLoad task i j caller (.ok ()) k).1 = .ok task ∧
      HasRecords (finishLoad task i j caller (.ok ()) k).2.tasks task i j ∧
      ((finishLoad task i j caller (.ok ()) k).2.tasks.tasks i).state = .dead := by
  have hdone := h.exit 0
  have hexit : (taskExit k.tasks task 0).1 = .ok () := by rw [taskExit_kill h.records hrun 0]
  have hend : endTask task i j (.ok ()) k =
      (.ok (), { k with tasks := (taskExit k.tasks task 0).2 }) := Prod.ext hexit rfl
  have hload : finishLoad task i j caller (.ok ()) k =
      (.ok task, (recordRun task caller (.ok ()) { k with tasks := (taskExit k.tasks task 0).2 }).2) := by
    unfold finishLoad
    rw [Effect.attempt_bind, hend]
    rfl
  rw [hload]
  exact ⟨rfl, hdone.records, hdone.task⟩

/-- A task that a fault has killed cannot exit. -/
theorem finishLoad_dead (h : Back task i j k₀ k) (hrun : (k.tasks.tasks i).state ≠ .running)
    (caller : Caller) : (finishLoad task i j caller (.ok ()) k).1 = .error .busy := by
  have hexit : taskExit k.tasks task 0 = (.error .busy, k.tasks) := taskExit_busy h.records hrun 0
  have hend : endTask task i j (.ok ()) k = (.error .busy, k) := by
    change ((taskExit k.tasks task 0).1, { k with tasks := (taskExit k.tasks task 0).2 }) = _
    rw [hexit]
  unfold finishLoad
  rw [Effect.attempt_bind, hend]
  rfl

/-- What the service does once the load has come back. -/
def finishSpawn (out : Except Err UInt64 × Kernel (Host δ)) : K (Host δ) Unit := do
  let task ← K.aside fun _ => out
  K.taskCleanup task
  K.setMsg fun m => { m with arg0 := task, arg1 := 0 }

theorem procHandleSpawn_eq {load : List UInt8 → UInt64 → K (Host δ) UInt64} {path : List UInt8}
    {endpoint : UInt64} (hpath : boundedPathFromMessage k = .ok path)
    (hendpoint : bootstrapEndpoint k = .ok endpoint) :
    procHandleSpawn load k = finishSpawn (load path endpoint k.noMessage) k := by
  unfold procHandleSpawn
  rw [Effect.ask_bind, hpath]
  dsimp only
  rw [Effect.ask_bind, hendpoint]
  rfl

/-- The end of a load changes the states of records only. -/
theorem finishLoad_left (caller : Caller) (status : Except Err Unit) :
    SameRoom k (finishLoad task i j caller status k).2 ∧
      (finishLoad task i j caller status k).2.vmm = k.vmm := by
  have hend : SameRoom k (endTask task i j status k).2 ∧ (endTask task i j status k).2.vmm = k.vmm := by
    cases status with
    | error e => exact ⟨sameRoom_of_names (sameNames_setStates k.tasks i j _ _) rfl rfl rfl rfl rfl, rfl⟩
    | ok _ => exact ⟨sameRoom_of_names (sameNames_taskExit k.tasks task 0) rfl rfl rfl rfl rfl, rfl⟩
  have hload : (finishLoad task i j caller status k).2 =
      (recordRun task caller (endTask task i j status k).1 (endTask task i j status k).2).2 := by
    unfold finishLoad
    rw [Effect.attempt_bind]
    cases (endTask task i j status k).1 with
    | error e => rfl
    | ok _ => rfl
  rw [hload]
  generalize (endTask task i j status k).1 = done
  generalize (endTask task i j status k).2 = k' at hend ⊢
  have hrecord : SameRoom k' (recordRun task caller done k').2 :=
    sameRoom_of_names (refl _) rfl rfl rfl rfl rfl
  exact ⟨IsTrans.trans _ _ _ hend.1 hrecord, hend.2⟩

/-- So does the service behind it. -/
theorem finishSpawn_left (out : Except Err UInt64 × Kernel (Host δ)) :
    SameRoom out.2 (finishSpawn out k).2 ∧ (finishSpawn out k).2.vmm = out.2.vmm := by
  obtain ⟨result, k'⟩ := out
  -- The load has used the message for its own calls; the service has it back.
  set k₁ : Kernel (Host δ) := { k' with msg := k.msg, payload := k.payload } with hk₁
  have hstart : SameRoom k' k₁ := sameRoom_of_names (refl _) rfl rfl rfl rfl rfl
  have haside : K.aside (fun _ => (result, k')) k = (result, k₁) := rfl
  unfold finishSpawn
  cases result with
  | error e =>
    rw [Effect.bind_of_error haside]
    exact ⟨hstart, rfl⟩
  | ok task =>
    rw [Effect.bind_of_ok haside]
    set k₂ : Kernel (Host δ) := { k₁ with tasks := (taskCleanup k₁.tasks task).2 } with hk₂
    have hclean : SameRoom k₁ k₂ :=
      sameRoom_of_names (sameNames_taskCleanup k₁.tasks task) rfl rfl rfl rfl rfl
    have hrun : K.taskCleanup task k₁ = ((taskCleanup k₁.tasks task).1, k₂) := rfl
    cases hresult : (taskCleanup k₁.tasks task).1 with
    | error e =>
      rw [hresult] at hrun
      rw [Effect.bind_of_error hrun]
      exact ⟨IsTrans.trans _ _ _ hstart hclean, rfl⟩
    | ok _ =>
      rw [hresult] at hrun
      rw [Effect.bind_of_ok hrun]
      have hend : SameRoom k₂ { k₂ with msg := { k₂.msg with arg0 := task, arg1 := 0 } } :=
        sameRoom_of_names (refl _) rfl rfl rfl rfl rfl
      exact ⟨IsTrans.trans _ _ _ hstart (IsTrans.trans _ _ _ hclean hend), rfl⟩

/-- A dead task is cleaned up. -/
theorem finishSpawn_ok {out : Except Err UInt64 × Kernel (Host δ)} (hok : out.1 = .ok task)
    (hrecords : HasRecords out.2.tasks task i j) (hdead : (out.2.tasks.tasks i).state = .dead) :
    (finishSpawn out k).1 = .ok () := by
  obtain ⟨result, k'⟩ := out
  obtain rfl : result = .ok task := hok
  set k₁ : Kernel (Host δ) := { k' with msg := k.msg, payload := k.payload } with hk₁
  have haside : K.aside (fun _ => (Except.ok task, k')) k = (.ok task, k₁) := rfl
  have hexit : (taskCleanup k₁.tasks task).1 = .ok () := by rw [taskCleanup_kill hrecords hdead]
  have hclean : K.taskCleanup task k₁ = (.ok (), { k₁ with tasks := (taskCleanup k₁.tasks task).2 }) :=
    Prod.ext hexit rfl
  unfold finishSpawn
  rw [Effect.bind_of_ok haside, Effect.bind_of_ok hclean]
  rfl

theorem finishSpawn_error {out : Except Err UInt64 × Kernel (Host δ)} {e : Err}
    (herr : out.1 = .error e) : (finishSpawn out k).1 = .error e := by
  obtain ⟨result, k'⟩ := out
  obtain rfl : result = .error e := herr
  rfl

/-- What follows the run succeeds when the run does, and no fault has killed the task. -/
theorem finishSpawn_iff {k₁ : Kernel (Host δ)} (h : Back task i j k₀ k₁) (caller : Caller)
    (status : Except Err Unit) :
    (finishSpawn (finishLoad task i j caller status k₁) k).1 = .ok () ↔
      status = .ok () ∧ (k₁.tasks.tasks i).state = .running := by
  constructor
  · intro hok
    cases status with
    | error e =>
      rw [finishSpawn_error (finishLoad_error caller e)] at hok
      cases hok
    | ok _ =>
      refine ⟨rfl, ?_⟩
      by_contra hrun
      rw [finishSpawn_error (finishLoad_dead h hrun caller)] at hok
      cases hok
  · intro hboth
    obtain ⟨rfl, hrun⟩ := hboth
    obtain ⟨hok, hrecords, hdead⟩ := finishLoad_ok h hrun caller
    exact finishSpawn_ok hok hrecords hdead

end finish

/-! ## What a successful spawn says -/

section success

variable {k k' : Kernel (Host δ)} {a : LoadAnswers} {text : List UInt8} {hhdmOffset endpoint : UInt64}
  {user : K (Host δ) Unit}

/-- The parts of a load that has succeeded. -/
theorem loaderLoadFromVfs_eq_ok {p : Platform (Host δ)} {task : UInt64}
    (h : loaderLoadFromVfs p hhdmOffset a user text endpoint k = (.ok task, k')) :
    (a.path ≠ 0 ∧ hhdmOffset ≠ 0 ∧ endpoint ≠ 0) ∧
      (∃ entry, capCheck k.objects k.caps endpoint Right.send ObjType.endpoint = .ok entry) ∧
      ∃ image k₁ new k₂, loaderReadImage p a text k = (.ok image, k₁) ∧
        userTaskCreate a.storage a.rootPages k₁ = (.ok new, k₂) ∧
        userTaskRunFlat new.task a.run user image.1 image.2 endpoint hhdmOffset k₂ = (.ok (), k') := by
  obtain ⟨_, _, hrequire, h₁⟩ := Effect.bind_eq_ok h
  obtain ⟨hargs, rfl⟩ := Effect.require_eq_ok hrequire
  obtain ⟨entry, _, hask, h₂⟩ := Effect.bind_eq_ok h₁
  obtain ⟨hcheck, rfl⟩ := Effect.ask_eq_ok hask
  obtain ⟨image, k₁, hread, h₃⟩ := Effect.bind_eq_ok h₂
  obtain ⟨new, k₂, hcreate, h₄⟩ := Effect.bind_eq_ok h₃
  obtain ⟨_, _, hnew, h₅⟩ := Effect.bind_eq_ok h₄
  obtain ⟨_, rfl⟩ := Effect.require_eq_ok hnew
  obtain ⟨_, _, hrun, hend⟩ := Effect.bind_eq_ok h₅
  obtain ⟨_, rfl⟩ := Prod.mk.inj hend
  exact ⟨hargs, ⟨entry, hcheck⟩, image, k₁, new, _, hread, hcreate, hrun⟩

/-- The parts of a spawn that has succeeded. -/
theorem spawnWith_eq_ok {d : Peripherals δ} (h : spawnWith d hhdmOffset a user k = (.ok (), k')) :
    ∃ path endpoint task k₁, boundedPathFromMessage k = .ok path ∧ bootstrapEndpoint k = .ok endpoint ∧
      loaderLoadFromVfs (d.platform noSpawn) hhdmOffset a user path endpoint k.noMessage = (.ok task, k₁) ∧
      k'.tasks = (taskCleanup k₁.tasks task).2 := by
  obtain ⟨path, _, hask, h₁⟩ := Effect.bind_eq_ok h
  obtain ⟨hpath, rfl⟩ := Effect.ask_eq_ok hask
  obtain ⟨endpoint, _, hask, h₂⟩ := Effect.bind_eq_ok h₁
  obtain ⟨hendpoint, rfl⟩ := Effect.ask_eq_ok hask
  obtain ⟨task, k₂, haside, h₃⟩ := Effect.bind_eq_ok h₂
  obtain ⟨_, k₃, hclean, hend⟩ := Effect.bind_eq_ok h₃
  obtain ⟨hload, rfl⟩ := Prod.mk.inj haside
  obtain ⟨_, rfl⟩ := Prod.mk.inj hclean
  obtain ⟨_, rfl⟩ := Prod.mk.inj hend
  exact ⟨path, endpoint, task, _, hpath, hendpoint, Prod.ext hload rfl, rfl⟩

end success

/-! ## Requests -/

/-- A request to the service: the message, the text that its `arg0` points to, and the
    program of the file. -/
structure SpawnCall where
  msg : Message
  text : List UInt8
  prog : Program

/-- The state in which a request is handled. -/
def Kernel.asked (k : Kernel (Host δ)) (c : SpawnCall) : Kernel (Host δ) :=
  { k with msg := c.msg, payload := c.text }

/-- The handling of a request, where the program does `user`. -/
def spawnCall (d : Peripherals δ) (hhdmOffset : UInt64) (c : SpawnCall) (a : LoadAnswers)
    (user : K (Host δ) Unit) : K (Host δ) Unit :=
  fun k => spawnWith d hhdmOffset a user (k.asked c)

/-- The request is in order: it names a file that the loader opens and takes, and an endpoint
    for the program. -/
structure SpawnReady (c : SpawnCall) (path : List UInt8) (endpoint : UInt64) (f : InitrdFile)
    (k : Kernel (Host δ)) : Prop where
  text : boundedPathFromMessage (k.asked c) = .ok path
  bootstrap : bootstrapEndpoint (k.asked c) = .ok endpoint
  token : ∃ entry, capCheck k.objects k.caps endpoint Right.send ObjType.endpoint = .ok entry
  reaches : ∀ ptr, ptr ≠ 0 → ∃ vfs, serviceLookup k.services Service.vfs = .ok vfs ∧
    Reaches k vfs (openMessage ptr) path
  found : ∀ ptr, ptr ≠ 0 → k.initrd.resolves (openMessage ptr) path = .ok f
  nonempty : f.size ≠ 0
  size : f.size ≤ loaderMaxImageSize

section ready

variable {k k' : Kernel (Host δ)} {c : SpawnCall} {path : List UInt8} {endpoint : UInt64}
  {f : InitrdFile}

/-- Where the text is does not matter. -/
theorem Reaches.open_congr {vfs ptr ptr' : UInt64} (h : Reaches k vfs (openMessage ptr) path)
    (hne : ptr' ≠ 0) : Reaches k vfs (openMessage ptr') path := by
  rcases h with hdirect | ⟨hservice, hroot, ⟨_, _, hunder⟩ | htype | htype⟩
  · exact .inl hdirect
  · exact .inr ⟨hservice, hroot, .inl ⟨rfl, hne, hunder⟩⟩
  · cases htype
  · cases htype

theorem resolves_open_congr (initrd : Initrd) {ptr ptr' : UInt64} (h : ptr ≠ 0) (h' : ptr' ≠ 0) :
    initrd.resolves (openMessage ptr') path = initrd.resolves (openMessage ptr) path := by
  have hpath : pathOfMessage (openMessage ptr') path = pathOfMessage (openMessage ptr) path := by
    unfold pathOfMessage
    rw [if_neg (show (openMessage ptr').arg0 ≠ 0 from h'), if_neg (show (openMessage ptr).arg0 ≠ 0 from h)]
  unfold Initrd.resolves
  rw [hpath]

/-- The endpoint of a request stays. -/
theorem Lasting.bootstrapEndpoint (h : Lasting k k') (hwf : TablesWf k.objects k.caps)
    (hmsg : k'.msg = k.msg) (hendpoint : bootstrapEndpoint k = .ok endpoint) :
    bootstrapEndpoint k' = .ok endpoint := by
  unfold Scdk.bootstrapEndpoint at hendpoint ⊢
  rw [h.services, hmsg]
  by_cases harg : k.msg.arg2 ≠ 0
  · rw [if_pos harg] at hendpoint ⊢
    cases hcheck : capCheck k.objects k.caps k.msg.arg2 Right.send ObjType.endpoint with
    | error e =>
      rw [hcheck] at hendpoint
      cases hendpoint
    | ok entry =>
      rw [hcheck] at hendpoint
      rw [(h.tokens hwf).capCheck hwf (by decide) (by decide) hcheck]
      exact hendpoint
  · rw [if_neg harg] at hendpoint ⊢
    exact hendpoint

/-- A request that has been answered was in order, and a file could be opened for it. -/
theorem spawnReady_of_ok {d : Peripherals δ} {hhdmOffset : UInt64} {a : LoadAnswers}
    {user : K (Host δ) Unit} (h : (spawnCall d hhdmOffset c a user k).1 = .ok ()) :
    hhdmOffset ≠ 0 ∧ (∃ i, (k.files i).isOpen = false) ∧
      ∃ path endpoint f, SpawnReady c path endpoint f k := by
  have hrun : spawnWith d hhdmOffset a user (k.asked c) =
      (.ok (), (spawnCall d hhdmOffset c a user k).2) := Prod.ext h rfl
  obtain ⟨path, endpoint, task, k₁, hpath, hendpoint, hload, _⟩ := spawnWith_eq_ok hrun
  obtain ⟨⟨hptr, hhdm, _⟩, hcheck, image, _, _, _, hread, _, _⟩ := loaderLoadFromVfs_eq_ok hload
  -- The file was opened, so that the service and the way to it are there.
  obtain ⟨f, hopenable, hpos, hsize⟩ := loaderReadImage_eq_ok _ hptr hread
  obtain ⟨vfs, hlookup, hreach⟩ := hopenable.reaches
  refine ⟨hhdm, hopenable.room.slot, path, endpoint, f, hpath, hendpoint, hcheck, ?_, ?_, hpos, hsize⟩
  · intro ptr hne
    exact ⟨vfs, hlookup, Reaches.open_congr (k := k) hreach hne⟩
  · intro ptr hne
    exact (resolves_open_congr k.initrd hptr hne).trans hopenable.found

/-- It stays so. -/
theorem SpawnReady.lasting (h : SpawnReady c path endpoint f k) (hlast : Lasting k k')
    (hwf : TablesWf k.objects k.caps) : SpawnReady c path endpoint f k' := by
  have htokens := hlast.tokens hwf
  refine ⟨h.text, ?_, ?_, ?_, ?_, h.nonempty, h.size⟩
  · have hasked : Lasting (k.asked c) (k'.asked c) :=
      ⟨hlast.tokens, hlast.endpoints, hlast.services, hlast.initrd, hlast.root⟩
    exact hasked.bootstrapEndpoint hwf rfl h.bootstrap
  · obtain ⟨entry, hcheck⟩ := h.token
    exact ⟨entry, htokens.capCheck hwf (by decide) (by decide) hcheck⟩
  · intro ptr hne
    obtain ⟨vfs, hlookup, hreach⟩ := h.reaches ptr hne
    refine ⟨vfs, hlast.services ▸ hlookup, ?_⟩
    unfold Reaches
    rw [hlast.endpoints, hlast.root]
    rcases hreach with ⟨id, htarget⟩ | ⟨⟨id, hservice⟩, ⟨id', hroot⟩, hforward⟩
    · exact .inl ⟨id, htokens.endpointTarget hwf htarget⟩
    · exact .inr ⟨⟨id, htokens.endpointTarget hwf hservice⟩, ⟨id', htokens.endpointTarget hwf hroot⟩,
        hforward⟩
  · intro ptr hne
    rw [hlast.initrd]
    exact h.found ptr hne

theorem SpawnReady.openable (h : SpawnReady c path endpoint f k) (hroom : FileRoom k) {ptr : UInt64}
    (hne : ptr ≠ 0) : Openable k ptr path f :=
  ⟨hne, h.reaches ptr hne, hroom, h.found ptr hne⟩

end ready

/-! ## A request with room -/

/-- Room in the tables for a spawn. -/
structure SpawnRoom (k : Kernel (Host δ)) : Prop extends TaskRoom k where
  file : ∃ i, (k.files i).isOpen = false
  fourObjects : 4 ≤ k.objects.room
  fourCaps : 4 ≤ k.caps.room

/-- The room is there when none of the tables is full. -/
theorem spawnRoom_iff {k : Kernel (Host δ)} :
    SpawnRoom k ↔ 0 < k.tableRoom.files ∧ 0 < k.tableRoom.spawnsLeft := by
  -- A search finds a slot exactly when there are some to count.
  have hcount : ∀ {n : Nat} {p : Fin n → Bool}, (∃ i, p i = true) ↔ 0 < Slots.count p := by
    intro n p
    constructor
    · intro h
      obtain ⟨i, hi⟩ := h
      exact Slots.count_pos hi
    · intro h
      obtain ⟨i, hi⟩ := Slots.firstSlot_of_count h
      exact ⟨i, (Slots.firstSlot_eq_some hi).1⟩
  have hslots : 0 < k.tableRoom.spawnsLeft ↔ (∃ i, (k.tasks.tasks i).inUse = false) ∧
      (∃ j, (k.tasks.threads j).inUse = false) ∧ (∃ i, (k.devices.run.tasks i).objectId = 0) ∧
      (∃ i, (k.devices.run.threads i).objectId = 0) ∧ 4 ≤ k.objects.room ∧ 4 ≤ k.caps.room := by
    have htask := hcount (p := fun i => !(k.tasks.tasks i).inUse)
    have hthread := hcount (p := fun j => !(k.tasks.threads j).inUse)
    have htaskSlot := hcount (p := fun i => (k.devices.run.tasks i).objectId == 0)
    have hthreadSlot := hcount (p := fun i => (k.devices.run.threads i).objectId == 0)
    simp only [Bool.not_eq_true', beq_iff_eq] at htask hthread htaskSlot hthreadSlot
    rw [htask, hthread, htaskSlot, hthreadSlot]
    unfold TableRoom.spawnsLeft Kernel.tableRoom
    dsimp only
    omega
  have hfiles : 0 < k.tableRoom.files ↔ ∃ i, (k.files i).isOpen = false := by
    have hfile := hcount (p := fun i => !(k.files i).isOpen)
    simp only [Bool.not_eq_true'] at hfile
    exact hfile.symm
  rw [hslots, hfiles]
  constructor
  · intro h
    exact ⟨h.file, h.task, h.thread, h.taskSlot, h.threadSlot, h.fourObjects, h.fourCaps⟩
  · intro h
    obtain ⟨hfile, htask, hthread, htaskSlot, hthreadSlot, hobjects, hcaps⟩ := h
    exact ⟨⟨htask, hthread, htaskSlot, hthreadSlot, by omega, by omega⟩, hfile, hobjects, hcaps⟩

section room

variable {k k₁ k₂ kᵤ : Kernel (Host δ)} {c : SpawnCall} {path : List UInt8} {endpoint hhdmOffset : UInt64}
  {f : InitrdFile} {a : LoadAnswers} {image : UInt64} {b : Nat} {root : UInt64} {frame : Nat → UInt64}
  {roots : List UInt64} {new : NewTask} {i : Fin maxTasks} {j : Fin maxThreads}

theorem SpawnRoom.slots (h : SpawnRoom k) (hlive : RecordsLive k) : LoadSlots k.noMessage where
  live := ((orderly_of_tasks rfl rfl (.of_eq rfl) : Orderly k k.noMessage) hlive).live
  file := h.file
  task := h.task
  thread := h.thread
  taskSlot := h.taskSlot
  threadSlot := h.threadSlot
  objects := h.fourObjects
  caps := h.fourCaps

/-- A buffer in the kernel half is not longer than that. -/
theorem LoadMemory.size_lt {size : Nat} (h : LoadMemory a size image b root frame roots k) :
    size < 2 ^ 64 := by
  by_contra hsize
  have himage : image.toNat < 2 ^ 64 := image.toNat_lt
  have hpos : 0 < image.toNat := by
    apply Nat.pos_of_ne_zero
    exact fun hzero => h.nonzero (UInt64.toNat_inj.mp hzero)
  -- a buffer of this length goes over the end of the address space, to the address zero
  have hlow := h.high (2 ^ 64 - image.toNat) (by omega)
  have haddr : (image + UInt64.ofNat (2 ^ 64 - image.toNat)).toNat = 0 := by
    rw [UInt64.toNat_add, UInt64.toNat_ofNat_of_lt' (show _ < 2 ^ 64 by omega)]
    omega
  rw [haddr] at hlow
  omega

/-- Where the program of a load goes on. -/
theorem Loading.goesOn (h : Loading f image b root endpoint new i j k k₁ k₂) {fl : FlatImage} {n : Nat}
    {stack : StackPage} {roots : UInt64 → Prop}
    (hentered : Entered fl a.run n frame roots b ((k₂.startTask new.task i j).onStack stack) kᵤ) :
    GoesOn new.task i j kᵤ ∧ kᵤ.tasks = (k₂.startTask new.task i j).tasks ∧
      kᵤ.vmm.initialized = true ∧ kᵤ.devices.run.usermodeInitialized = true := by
  obtain ⟨k₃, hpages, rfl⟩ := hentered.state
  have hgo := h.added.isNew.goesOn h.live
  have hstart : Lasting (k₂.startTask new.task i j) ((k₂.startTask new.task i j).onStack stack) :=
    .of_eq rfl
  have htasks : k₃.tasks = (k₂.startTask new.task i j).tasks := by
    rw [hpages.rest]
    rfl
  have hup : k₃.devices.run.usermodeInitialized = true := by
    rw [hpages.rest]
    simp only [Kernel.onStack]
  have hlast : Lasting ((k₂.startTask new.task i j).onStack stack) k₃ := by
    rw [hpages.rest]
    exact .of_eq rfl
  refine ⟨hgo.of_tasks htasks (IsTrans.trans _ _ _ hstart (IsTrans.trans _ _ _ hlast (.of_eq rfl))),
    htasks, hpages.initialized, hup⟩

/-- A task that goes on has not been killed. -/
theorem GoesOn.passes {task : UInt64} (h : GoesOn task i j k) (hcalled : k.syscall.endpointCallPassed = true)
    (hexited : k.syscall.userExited = true) : Passes k := by
  refine ⟨hcalled, hexited, ?_⟩
  intro i' hi'
  rw [h.current, h.records.task] at hi'
  obtain rfl := Except.ok.inj hi'
  exact h.running

/-- The end of a spawn whose program has come back in state `k'`: its run is left, and the load
    and the request of `k₀` are finished. -/
def spawnEnd (fl : FlatImage) (saved : SyscallTaskState) (boot : UInt64) (l : RunLocals) (task : UInt64)
    (i : Fin maxTasks) (j : Fin maxThreads) (caller : Caller) (current : UInt64)
    (k₀ k' : Kernel (Host δ)) : Except Err Unit × Kernel (Host δ) :=
  finishSpawn (finishLoad task i j caller (leaveUsermode fl saved boot l k').1
    ((leaveUsermode fl saved boot l k').2.backTo current)) k₀

/-- Only leaving the run touches memory, and nothing takes room. -/
theorem spawnEnd_left (fl : FlatImage) (saved : SyscallTaskState) (boot : UInt64) (l : RunLocals)
    (task : UInt64) (i : Fin maxTasks) (j : Fin maxThreads) (caller : Caller) (current : UInt64)
    (k₀ k' : Kernel (Host δ)) :
    SameRoom k' (spawnEnd fl saved boot l task i j caller current k₀ k').2 ∧
      (spawnEnd fl saved boot l task i j caller current k₀ k').2.vmm =
        (leaveUsermode fl saved boot l k').2.vmm := by
  obtain ⟨_, _, _, hleft⟩ := leaveUsermode_clears (fun _ => True) 0 fl saved boot l k'
  unfold spawnEnd
  set left := (leaveUsermode fl saved boot l k').2
  have hback : SameRoom left (left.backTo current) :=
    sameRoom_of_names (sameNames_setCurrent _ _) rfl rfl rfl rfl rfl
  obtain ⟨hload, hloadvmm⟩ := @finishLoad_left δ (left.backTo current) task i j caller
    (leaveUsermode fl saved boot l k').1
  obtain ⟨hspawn, hspawnvmm⟩ := @finishSpawn_left δ k₀ (finishLoad task i j caller
    (leaveUsermode fl saved boot l k').1 (left.backTo current))
  refine ⟨?_, hspawnvmm.trans hloadvmm⟩
  exact IsTrans.trans _ _ _ (IsTrans.trans _ _ _ hleft hback) (IsTrans.trans _ _ _ hload hspawn)

/-- The end of a spawn whose program, entered in state `kᵤ`, has come back in state `k'`. -/
theorem Loading.finishes (h : Loading f image b root endpoint new i j k k₁ k₂) {fl : FlatImage} {l : RunLocals}
    {saved : SyscallTaskState} {boot : UInt64} {k' : Kernel (Host δ)} (hgo : GoesOn new.task i j kᵤ)
    (htasks : kᵤ.tasks = (k₂.startTask new.task i j).tasks) (hback : CameBack i j kᵤ k')
    (hinit : k'.vmm.initialized = true) (hup : k'.devices.run.usermodeInitialized = true)
    (hroot : RootOk boot) (k₀ : Kernel (Host δ)) :
    (spawnEnd fl saved boot l new.task i j k₂.caller k₂.tasks.currentUserTask k₀ k').1 = .ok () ↔
      Passes k' := by
  unfold spawnEnd
  obtain ⟨hlefttasks, hleftlast⟩ := @leaveUsermode_rest δ fl k' boot l saved
  set left := (leaveUsermode fl saved boot l k').2 with hleft
  have hover : RunOver i j (k₂.startTask new.task i j) left :=
    hback.over.of_tasks htasks hlefttasks hleftlast
  -- The current task is still the one that was entered.
  have hslot : taskSlotForCap k'.tasks k'.tasks.currentUserTask = .ok i := by
    rw [hback.current, hgo.current]
    exact (hback.kept.hasRecords hback.live hgo.records).task
  have hstate : (left.backTo k₂.tasks.currentUserTask).tasks.tasks i = k'.tasks.tasks i := by
    show left.tasks.tasks i = _
    rw [hlefttasks]
  rw [finishSpawn_iff (hover.back h.added.isNew), leaveUsermode_answer hinit hroot hup, hstate]
  constructor
  · intro hpass
    refine ⟨hpass.1.2, hpass.1.1, ?_⟩
    intro i' hi'
    obtain rfl := Except.ok.inj (hslot.symm.trans hi')
    exact hpass.2
  · intro hpass
    exact ⟨⟨hpass.exited, hpass.called⟩, hpass.running i hslot⟩

/-! A program of two flags, by which the state of the entry is told. -/

/-- A program that only sets the flags of the system calls. -/
def setFlags (b : Bool) : K (Host δ) Unit :=
  .modify fun k => { k with syscall := { k.syscall with userExited := b, endpointCallPassed := b } }

theorem returns_setFlags (b : Bool) : Returns (setFlags b : K (Host δ) Unit) := by
  intro task i j k hgo
  have hstep : OrderlyStep k (setFlags b k).2 := orderly_of_tasks rfl rfl (.of_eq rfl) hgo.live
  exact hstep.cameBack hgo

theorem staysUp_setFlags (b : Bool) : Effect.Within StaysUp (setFlags b : K (Host δ) Unit) :=
  fun _ => Lasting.staysUp (.of_eq rfl) rfl rfl

/-- Code that succeeds exactly when its program passes has entered it. -/
theorem GoesOn.enters {task : UInt64} (hgo : GoesOn task i j kᵤ)
    {code : K (Host δ) Unit → K (Host δ) Unit} (hover : HandsOver code k kᵤ)
    (hanswers : ∀ user, Returns user → Effect.Within StaysUp user →
      ((code user k).1 = .ok () ↔ Passes (user kᵤ).2)) : Enters code k kᵤ := by
  refine ⟨hover, setFlags true, setFlags false, ?_⟩
  have hstep : OrderlyStep kᵤ (setFlags true kᵤ).2 := orderly_of_tasks rfl rfl (.of_eq rfl) hgo.live
  have hpass : Passes (setFlags true kᵤ).2 := (hstep.goesOn hgo).passes rfl rfl
  intro heq
  have hok := (hanswers _ (returns_setFlags true) (staysUp_setFlags true)).mpr hpass
  rw [heq] at hok
  have hpass' := (hanswers _ (returns_setFlags false) (staysUp_setFlags false)).mp hok
  cases hpass'.called

theorem sameRoom_enter (k : Kernel (Host δ)) (v : Vmm) (a : RunAnswers) :
    SameRoom k (Kernel.enter { k with vmm := v } a) :=
  sameRoom_of_names (refl _) rfl rfl rfl rfl rfl

theorem sameRoom_onStack (k : Kernel (Host δ)) (stack : StackPage) : SameRoom k (k.onStack stack) := by
  refine sameRoom_of_names (refl _) ?_ ?_ rfl rfl rfl
  · rw [Kernel.onStack]
  · rw [Kernel.onStack]

/-- Nothing is taken between the making of the task and the entry of its program. -/
theorem Loading.takes (h : Loading f image b root endpoint new i j k k₁ k₂) {fl : FlatImage} {n : Nat}
    {stack : StackPage} {roots : UInt64 → Prop}
    (hentered : Entered fl a.run n frame roots b ((k₂.startTask new.task i j).onStack stack) kᵤ) :
    Takes .spawn k kᵤ := by
  obtain ⟨storage, pages, hmade⟩ := h.made
  obtain ⟨k₃, hpages, rfl⟩ := hentered.state
  have hmapped : SameRoom ((k₂.startTask new.task i j).onStack stack) k₃ := by
    rw [hpages.rest]
    exact sameRoom_of_names (refl _) rfl rfl rfl rfl rfl
  have hstart : SameRoom k₂ (k₂.startTask new.task i j) :=
    sameRoom_of_names (sameNames_start k₂.tasks new.task i j) rfl rfl rfl rfl rfl
  have htask := (h.read.takes.trans (takes_userTaskCreate hmade)).same hstart
  exact ((htask.same (sameRoom_onStack _ stack)).same hmapped).same (sameRoom_enter _ _ _)

/-- A spawn with room and memory, whose program is entered in state `kᵤ`. -/
structure SpawnEnters (d : Peripherals δ) (hhdmOffset : UInt64) (c : SpawnCall) (a : LoadAnswers)
    (k kᵤ : Kernel (Host δ)) : Prop where
  enters : Enters (spawnCall d hhdmOffset c a) k kᵤ
  takes : Takes .spawn k kᵤ
  answers : ∀ user, Returns user → Effect.Within StaysUp user →
    ((spawnCall d hhdmOffset c a user k).1 = .ok () ↔ Passes (user kᵤ).2)
  room : ∀ user, SameRoom (user kᵤ).2 (spawnCall d hhdmOffset c a user k).2
  memory : ∀ user, Effect.Within StaysUp user → MapsNothing kᵤ (user kᵤ).2 →
    ActiveKept k.vmm (spawnCall d hhdmOffset c a user k).2.vmm

/-- **A spawn with room.**  It enters the program, and succeeds exactly when the program
    passes.  What it takes of the tables is `TableRoom.spawn`, and the address space that
    was active is as it was. -/
theorem spawn_enters (d : Peripherals δ) (hready : SpawnReady c path endpoint f k) (hhdm : hhdmOffset ≠ 0)
    (hlive : RecordsLive k) (hroom : SpawnRoom k) (hmem : SpawnMemory a f k) :
    ∃ kᵤ, SpawnEnters d hhdmOffset c a k kᵤ := by
  obtain ⟨image, b, root, frame, roots, hload⟩ := hmem.load
  have hload₀ : LoadMemory a f.data.length image b root frame roots k.noMessage := hload.of_vmm rfl
  have hlen : f.size.toNat = f.data.length := UInt64.toNat_ofNat_of_lt' hload.size_lt
  have hmax : f.data.length ≤ 65536 := by
    rw [← hlen]
    exact UInt64.le_iff_toNat_le.mp hready.size
  have hslots := hroom.slots hlive
  have hready₀ : SpawnReady c path endpoint f k.noMessage := hready.lasting (.of_eq rfl) hlive.wf
  have hopenable : Openable k.noMessage a.path path f := hready₀.openable hslots.fileRoom hload.path
  obtain ⟨k₁, k₂, new, i, j, hloading, _, hrun⟩ := loaderLoadFromVfs_run (d.platform noSpawn) hslots
    hopenable hload₀ hready.nonempty hmax hhdm hready.token
  obtain ⟨stack, kᵤ, _, hentered, _, henters⟩ := hloading.enters hload₀ hready.nonempty hmax hhdm
  obtain ⟨hgo, htasks, hinit, hup⟩ := hloading.goesOn hentered
  have hactive : k₂.vmm.activeCr3Phys = k.vmm.activeCr3Phys := by
    rw [hloading.placed.vmm, hloading.read.rest.1]
    rfl
  rw [hactive] at henters
  -- The program decides only through the state in which it comes back.
  have hcall : ∀ user, spawnCall d hhdmOffset c a user k =
      spawnEnd (new.flatImage image f.size endpoint hhdmOffset) (saveTaskState (k₂.startTask new.task i j))
        k.vmm.activeCr3Phys ⟨some k.vmm.activeCr3Phys, some stack, imagePages f.data.length, true⟩
        new.task i j k₂.caller k₂.tasks.currentUserTask (k.asked c) (user kᵤ).2 := by
    intro user
    have hspawn : spawnCall d hhdmOffset c a user k =
        finishSpawn (loaderLoadFromVfs (d.platform noSpawn) hhdmOffset a user path endpoint k.noMessage)
          (k.asked c) := procHandleSpawn_eq hready.text hready.bootstrap
    rw [hspawn, hrun user, henters user]
    rfl
  have hanswers : ∀ user, Returns user → Effect.Within StaysUp user →
      ((spawnCall d hhdmOffset c a user k).1 = .ok () ↔ Passes (user kᵤ).2) := by
    intro user hreturns hstays
    have hsteps := hstays kᵤ
    rw [hcall user]
    exact hloading.finishes hgo htasks (hreturns hgo) (hsteps.paging.trans hinit) (hsteps.usermode hup)
      hmem.root (k.asked c)
  refine ⟨kᵤ, hgo.enters ⟨_, hcall⟩ hanswers, ?_, hanswers, ?_, ?_⟩
  · have hstart : SameRoom k k.noMessage := sameRoom_of_names (refl _) rfl rfl rfl rfl rfl
    exact hstart.takes (hloading.takes hentered)
  · intro user
    rw [hcall user]
    exact (spawnEnd_left _ _ _ _ _ _ _ _ _ _ _).1
  · intro user hstays hquiet
    rw [hcall user, (spawnEnd_left _ _ _ _ _ _ _ _ _ _ _).2]
    have hspace := hloading.ownSpace hload₀ hentered
    have hown : OwnSpace roots root (new.flatImage image f.size endpoint hhdmOffset).aspace k kᵤ :=
      ⟨hspace.names, hspace.space, hspace.initialized, hspace.untouched⟩
    exact hown.leave hquiet (hstays kᵤ).lasting hgo.live.wf hload.initialized hmem.root _ _

/-- **A spawn that succeeds** has had room. -/
theorem spawnRoom_of_ok {d : Peripherals δ} {user : K (Host δ) Unit}
    (hready : SpawnReady c path endpoint f k) (hlive : RecordsLive k) (hmem : SpawnMemory a f k)
    (h : (spawnCall d hhdmOffset c a user k).1 = .ok ()) : SpawnRoom k := by
  have hrun : spawnWith d hhdmOffset a user (k.asked c) =
      (.ok (), (spawnCall d hhdmOffset c a user k).2) := Prod.ext h rfl
  obtain ⟨path', endpoint', task, k₃, hpath, _, hload, _⟩ := spawnWith_eq_ok hrun
  obtain rfl := Except.ok.inj (hready.text.symm.trans hpath)
  obtain ⟨⟨hptr, _, _⟩, _, out, k₁, new, k₂, hread, hcreate, _⟩ := loaderLoadFromVfs_eq_ok hload
  -- The file that was read is the one that the request names.
  obtain ⟨f', hopenable, hpos, hsize⟩ := loaderReadImage_eq_ok _ hptr hread
  obtain rfl := Except.ok.inj (hopenable.found.symm.trans (hready.found a.path hptr))
  obtain ⟨image, b, root, frame, roots, hmem'⟩ := hmem.load
  have hlen : f'.size.toNat = f'.data.length := UInt64.toNat_ofNat_of_lt' hmem'.size_lt
  have hmax : f'.data.length ≤ 65536 := by
    rw [← hlen]
    exact UInt64.le_iff_toNat_le.mp hsize
  obtain ⟨k₁', hread', himage⟩ := loaderReadImage_run (d.platform noSpawn)
    (show TablesWf k.noMessage.objects k.noMessage.caps from hlive.wf) hopenable hpos hmax hmem'.answer
    hmem'.nonzero
  obtain ⟨_, rfl⟩ := Prod.mk.inj (hread'.symm.trans hread)
  -- What reading and creating have taken was there.
  have htakes : Takes .spawn k.noMessage k₂ := himage.takes.trans (takes_userTaskCreate hcreate)
  have hroom : k₂.tableRoom + .spawn = k.tableRoom := htakes
  refine spawnRoom_iff.mpr ⟨?_, ?_⟩
  · obtain ⟨i, hi⟩ := hopenable.room.slot
    have hclosed : (k.files i).isOpen = false := hi
    exact Slots.count_pos (p := fun i => !(k.files i).isOpen) (by simpa using hclosed)
  · rw [← hroom, TableRoom.spawnsLeft_add]
    exact Nat.succ_pos _

end room

end Scdk
