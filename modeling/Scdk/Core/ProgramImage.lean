import Scdk.Arch.EntryState
import Scdk.Core.ImageRead
import Scdk.Core.TaskRecords
import Scdk.Core.TaskRoom
import Scdk.Mm.TarEncode

/-! # The program that is loaded

    A load reads a file of the initrd, makes a task, and runs the file in it.

    * `LoadSlots`, `LoadMemory`: what the tables and the allocators have to have,
    * `imageRoom_of_placed`: the new address space has room for the image,
    * `Loading`: the states of a load up to the entry of the program;
      `loaderLoadFromVfs_run`: with room, a load comes there,
    * `program_is_stored`: what is mapped at the entry is what the archive stores. -/

namespace Scdk

open Radix

variable {δ : Type}

/-! ## What a load needs -/

/-- Room in the tables for a file, and for a task with its address space and its main
    thread. -/
structure LoadSlots (k : Kernel (Host δ)) : Prop where
  live : RecordsLive k
  file : ∃ i, (k.files i).isOpen = false
  task : ∃ i, (k.tasks.tasks i).inUse = false
  thread : ∃ j, (k.tasks.threads j).inUse = false
  taskSlot : ∃ i, (k.devices.run.tasks i).objectId = 0
  threadSlot : ∃ i, (k.devices.run.threads i).objectId = 0
  objects : 4 ≤ k.objects.room
  caps : 4 ≤ k.caps.room

/-- The number of pages of an image. -/
def imagePages (size : Nat) : Nat := (size + 4095) / 4096

/-- Memory for an image of `size` bytes: a buffer in the kernel half, storage and a root
    for the address space, a kernel stack, and pages for the run.  `roots` are the roots
    there are, and no page that is handed out is a table of theirs. -/
structure LoadMemory (a : LoadAnswers) (size : Nat) (image : UInt64) (b : Nat) (root : UInt64)
    (frame : Nat → UInt64) (roots : List UInt64) (k : Kernel (Host δ)) : Prop where
  initialized : k.vmm.initialized = true
  active : k.vmm.activeCr3Phys ∈ roots
  same : SamePath (childOf k.vmm.tables) (· ∈ roots) AllPaths
  path : a.path ≠ 0
  answer : a.image = some image
  nonzero : image ≠ 0
  buffer : Buffer k.vmm image size
  high : ∀ o < size, 2 ^ 47 ≤ (image + UInt64.ofNat o).toNat % 2 ^ 48
  elsewhere : ∀ o < size, ∀ phys flags,
    vmmVirtToPhys k.vmm (image + UInt64.ofNat o) = .ok (phys, flags) →
    ∀ i ≤ imagePages size, phys.toNat / 4096 ≠ (frame i).toNat / 4096
  storage : a.storage = some b
  rootPage : ∃ rest, a.rootPages = .ok root :: rest
  rootFresh : FreshPage k.vmm.tables (· ∈ roots) AllPaths root
  rootNonzero : root ≠ 0
  stack : ∃ stack, a.run.stack = some stack
  pages : RunMemory a.run (imagePages size) frame k.vmm.tables (· ∈ roots)
  rootOnce : ∀ i ≤ imagePages size, root ∉ (a.run.page (imagePages size) i).2.frames

/-! ## The address space -/

section room

variable {k k' : Kernel (Host δ)} {a : LoadAnswers} {size : Nat} {image : UInt64} {b : Nat} {root : UInt64}
  {frame : Nat → UInt64} {roots : List UInt64} {new : NewTask} {f : FlatImage}

/-- The pages of a run at the entry of a user task. -/
theorem pageVirt_user (hentry : f.entry = userTestCodeVirt) {n : Nat} (hn : n ≤ 16) (i : Nat) :
    validateUserPage (f.pageVirt n i) = .ok () ∧
      (f.pageVirt n i).toNat = if i < n then 0x400000 + i * 4096 else 0x6ffff000 := by
  unfold FlatImage.pageVirt
  rw [hentry]
  by_cases hlt : i < n
  · rw [if_pos hlt, if_pos hlt]
    have hall : ∀ i < 16, validateUserPage (userTestCodeVirt + UInt64.ofNat (i * pageSize)) = .ok () ∧
        (userTestCodeVirt + UInt64.ofNat (i * pageSize)).toNat = 0x400000 + i * 4096 := by
      decide
    exact hall i (by omega)
  · rw [if_neg hlt, if_neg hlt]
    exact ⟨rfl, rfl⟩

theorem pageVirt_apart (hentry : f.entry = userTestCodeVirt) {n i j : Nat} (hn : n ≤ 16) (hi : i ≤ n)
    (hj : j ≤ n) (heq : f.pageVirt n i = f.pageVirt n j) : i = j := by
  have hi' := (pageVirt_user hentry hn i).2
  have hj' := (pageVirt_user hentry hn j).2
  rw [heq] at hi'
  rw [hi'] at hj'
  split at hj' <;> split at hj' <;> omega

/-- Translations in the active root are as they were. -/
theorem TaskPlaced.translate (h : TaskPlaced k k' new b root) (hactive : k.vmm.activeCr3Phys ∈ roots)
    (hfresh : FreshPage k.vmm.tables (· ∈ roots) AllPaths root) (x : UInt64) :
    vmmVirtToPhys k'.vmm x = vmmVirtToPhys k.vmm x := by
  have hroot : k'.vmm.activeCr3Phys = k.vmm.activeCr3Phys := by rw [h.vmm]
  unfold vmmVirtToPhys
  rw [hroot]
  apply vmmVirtToPhysInRoot_congr
  · rw [h.vmm]
  · rw [h.vmm]
    exact lookupEntry_newRoot hfresh hactive x

/-- A new address space has room for the image. -/
theorem imageRoom_of_placed (h : TaskPlaced k k' new b root)
    (hmem : LoadMemory a size image b root frame roots k) (hsize : size ≤ 65536)
    (haspace : f.aspace = new.addressSpace) (hentry : f.entry = userTestCodeVirt)
    (himage : f.image = image) (hlen : f.imageSize.toNat = size) :
    ImageRoom f a.run (imagePages size) frame (· ∈ root :: roots) b k' := by
  have hn : imagePages size ≤ 16 := by
    unfold imagePages
    omega
  have hfresh := hmem.rootFresh
  have htables : k'.vmm.tables = newRoot k.vmm.tables k.vmm.activeCr3Phys root := by rw [h.vmm]
  have hpages := hmem.pages
  constructor
  · rw [h.vmm]
    exact hmem.initialized
  · rw [h.vmm]
    exact List.mem_cons_of_mem _ hmem.active
  · rw [haspace]
    exact h.token
  · rw [h.root]
    exact ⟨hmem.rootNonzero, hfresh.ok.1⟩
  · -- The root of the new task is fresh, so nothing is mapped in its user half.
    rw [h.root, htables]
    exact userSpace_newRoot hmem.active hfresh hmem.same
  · refine ⟨hpages.answer, hpages.frames, hpages.apart, hpages.supply, ?_, hpages.once⟩
    intro i hi
    rw [htables]
    exact SupplyFresh.newRoot hmem.active hfresh (hpages.fresh i hi) (hmem.rootOnce i hi)
  · intro i _
    exact (pageVirt_user hentry hn i).1
  · intro i hi j hj
    exact pageVirt_apart hentry hn hi hj
  · intro i _
    rw [h.root, htables]
    exact lookupEntry_newRoot_user (userPage_of_validate (pageVirt_user hentry hn i).1).2
  · rw [himage, hlen]
    exact hmem.high
  · rw [himage, hlen]
    intro o ho phys flags htranslate
    rw [h.translate hmem.active hfresh] at htranslate
    exact hmem.elsewhere o ho phys flags htranslate

end room

/-! ## The load -/

/-- The arguments with which the loader runs the image of a task. -/
def NewTask.flatImage (new : NewTask) (image imageSize endpoint hhdmOffset : UInt64) : FlatImage :=
  ⟨new.addressSpace, new.mainThread, userTestCodeVirt, image, imageSize, endpoint, hhdmOffset⟩

/-- What the loader does with the status of the run. -/
def finishLoad (task : UInt64) (i : Fin maxTasks) (j : Fin maxThreads) (caller : Caller)
    (status : Except Err Unit) : K (Host δ) UInt64 := do
  let done ← (endTask task i j status).attempt
  recordRun task caller done
  .ask fun _ => done
  pure task

/-- A load up to the start of the program: the file `f` is read to `image`, and the task
    `new` is made, with its records in the slots `i` and `j`. -/
structure Loading (f : InitrdFile) (image : UInt64) (b : Nat) (root endpoint : UInt64) (new : NewTask)
    (i : Fin maxTasks) (j : Fin maxThreads) (k k₁ k₂ : Kernel (Host δ)) : Prop where
  read : ImageIn k k₁ f image
  made : ∃ storage pages, userTaskCreate storage pages k₁ = (.ok new, k₂)
  placed : TaskPlaced k₁ k₂ new b root
  added : TaskAdded new i j k₁ k₂
  live : RecordsLive k₂
  beside : Beside k₁ k₂
  endpoint : ∃ entry, capCheck k₂.objects k₂.caps endpoint Right.send ObjType.endpoint = .ok entry

section load

variable {k k₁ k₂ : Kernel (Host δ)} {f : InitrdFile} {a : LoadAnswers} {size : Nat} {image endpoint : UInt64}
  {b : Nat} {root : UInt64} {frame : Nat → UInt64} {roots : List UInt64} {new : NewTask}
  {i : Fin maxTasks} {j : Fin maxThreads}

theorem TaskAdded.isNew (h : TaskAdded new i j k₁ k₂) : IsNew k₂.tasks new.task i j := by
  obtain ⟨taskId, aspaceId, id, htasks⟩ := h.tasks
  refine ⟨h.records, ?_, ?_⟩
  · rw [htasks]
    simp [UserTasks.addThread, UserTasks.setTask, UserTasks.setThread, newTaskSlot]
  · rw [htasks]
    simp [UserTasks.addThread, UserTasks.setTask, UserTasks.setThread]

/-- The arguments of the run of a new task. -/
theorem TaskAdded.flatImage (h : TaskAdded new i j k₁ k₂) (image imageSize endpoint hhdmOffset : UInt64) :
    (k₂.startTask new.task i j).tasks.flatImage i j image imageSize endpoint hhdmOffset =
      new.flatImage image imageSize endpoint hhdmOffset := by
  obtain ⟨taskId, aspaceId, id, htasks⟩ := h.tasks
  unfold Kernel.startTask UserTasks.flatImage NewTask.flatImage
  rw [htasks]
  simp [UserTasks.addThread, UserTasks.setTask, UserTasks.setThread, UserTasks.setStates,
    UserTasks.setCurrent, newTaskSlot]

theorem LoadMemory.of_vmm (h : LoadMemory a size image b root frame roots k) (hvmm : k₁.vmm = k.vmm) :
    LoadMemory a size image b root frame roots k₁ :=
  { h with
    initialized := hvmm ▸ h.initialized
    active := hvmm ▸ h.active
    same := hvmm ▸ h.same
    buffer := hvmm ▸ h.buffer
    elsewhere := hvmm ▸ h.elsewhere
    rootFresh := hvmm ▸ h.rootFresh
    pages := hvmm ▸ h.pages }

theorem LoadSlots.fileRoom (h : LoadSlots k) : FileRoom k :=
  ⟨h.file, Nat.lt_of_lt_of_le (by decide) h.objects, Nat.lt_of_lt_of_le (by decide) h.caps⟩

/-- The image is read, and there is room for the task. -/
theorem LoadSlots.of_read (h : LoadSlots k) (hread : ImageIn k k₁ f image) : RecordsLive k₁ ∧ TaskRoom k₁ := by
  obtain ⟨hrest, hobjects, hcaps⟩ := hread.rest
  have htasks : k₁.tasks = k.tasks := by rw [hrest]
  have hdevices : k₁.devices = k.devices := by rw [hrest]
  have ho := h.objects
  have hc := h.caps
  constructor
  · apply h.live.of_names hread.lasting
    · rw [htasks]
      exact refl _
    · rw [htasks]
      exact refl _
  · refine ⟨?_, ?_, ?_, ?_, by omega, by omega⟩
    · rw [htasks]
      exact h.task
    · rw [htasks]
      exact h.thread
    · rw [hdevices]
      exact h.taskSlot
    · rw [hdevices]
      exact h.threadSlot

/-- From the end of the run to that of the load. -/
theorem userTaskRunFlat_finish {task imageSize hhdmOffset : UInt64} {answers : RunAnswers}
    {user : K (Host δ) Unit} {status : Except Err Unit}
    (hrun : runFlat task (fun f => usermodeRunFlatImage f answers user) image imageSize endpoint hhdmOffset
      k = endTask task i j status k₁) :
    (do
      userTaskRunFlat task answers user image imageSize endpoint hhdmOffset
      pure task : K (Host δ) UInt64) k = finishLoad task i j k.caller status k₁ := by
  unfold userTaskRunFlat finishLoad
  rw [Effect.bind_run, Effect.bind_of_ok Effect.get_run, Effect.attempt_bind, hrun, Effect.attempt_bind]
  rcases endTask task i j status k₁ with ⟨r, s⟩
  cases r with
  | error e => rfl
  | ok _ => rfl

variable (p : Platform (Host δ)) {vfs hhdmOffset : UInt64} {text : List UInt8}

/-- **Loading.**  With room in the tables and memory, a load reads the image, makes a task
    for it, and runs it there. -/
theorem loaderLoadFromVfs_run (hslots : LoadSlots k) (hopenable : Openable k a.path text f)
    (hmem : LoadMemory a f.data.length image b root frame roots k) (hpos : f.size ≠ 0)
    (hmax : f.data.length ≤ 65536) (hhdm : hhdmOffset ≠ 0)
    (hendpoint : ∃ entry, capCheck k.objects k.caps endpoint Right.send ObjType.endpoint = .ok entry) :
    ∃ k₁ k₂ new i j, Loading f image b root endpoint new i j k k₁ k₂ ∧
      loaderReadImage p a text k = (.ok (image, f.size), k₁) ∧ ∀ user,
      loaderLoadFromVfs p hhdmOffset a user text endpoint k =
        (let out := usermodeRunFlatImage (new.flatImage image f.size endpoint hhdmOffset) a.run user
           (k₂.startTask new.task i j)
         finishLoad new.task i j k₂.caller out.1 (out.2.backTo k₂.tasks.currentUserTask)) := by
  obtain ⟨entry, hcheck⟩ := hendpoint
  have hne : endpoint ≠ 0 := by
    rintro rfl
    cases hcheck
  have hwf := hslots.live.wf
  -- First the image is read, and then the task is made.
  obtain ⟨k₁, hread, himage⟩ := loaderReadImage_run p hwf hopenable hpos hmax hmem.answer hmem.nonzero
  obtain ⟨hlive₁, hroom₁⟩ := hslots.of_read himage
  have hmem₁ : LoadMemory a f.data.length image b root frame roots k₁ :=
    hmem.of_vmm (by rw [himage.rest.1])
  obtain ⟨rest, hrootPage⟩ := hmem.rootPage
  have hother : k₁.vmm.activeCr3Phys ≠ root := by
    rintro heq
    exact hmem₁.rootFresh.unreached root [] (heq ▸ hmem₁.active) (Nat.zero_le _) rfl
  obtain ⟨new, k₂, hcreate, hplaced⟩ := @userTaskCreate_room δ k₁ b root rest hlive₁.wf hroom₁
    hmem₁.initialized hother hmem.rootNonzero
  rw [← hmem.storage, ← hrootPage] at hcreate
  have hcreated := userTaskCreate_run a.storage a.rootPages k₁
  rw [hcreate] at hcreated
  obtain ⟨hlive₂, _, _, hadds⟩ := hcreated.records hlive₁
  obtain ⟨i, j, hadded⟩ := hadds new rfl
  have hlast : Lasting k k₂ := IsTrans.trans _ _ _ himage.lasting hcreated.beside.lasting
  have hcheck₂ := (hlast.tokens hwf).capCheck hwf (by decide) (by decide) hcheck
  have hloading : Loading f image b root endpoint new i j k k₁ k₂ :=
    ⟨himage, ⟨_, _, hcreate⟩, hplaced, hadded, hlive₂, hcreated.beside, entry, hcheck₂⟩
  refine ⟨k₁, k₂, new, i, j, hloading, hread, ?_⟩
  intro user
  -- The tests of the loader on what the task was given.
  have hspace : new.addressSpace ≠ 0 := by
    intro hzero
    have htoken := hplaced.token
    rw [hzero] at htoken
    cases htoken
  have hthread : new.mainThread ≠ 0 := by
    intro hzero
    obtain ⟨entry', hread'⟩ := hplaced.thread
    rw [hzero] at hread'
    cases hread'
  have hask : K.capCheck endpoint Right.send ObjType.endpoint k = (.ok entry, k) := congrArg (·, k) hcheck
  -- The record of the new task says what to run.
  have hflat : runFlat new.task (fun fl => usermodeRunFlatImage fl a.run user) image f.size endpoint
      hhdmOffset k₂ =
      (let out := usermodeRunFlatImage (new.flatImage image f.size endpoint hhdmOffset) a.run user
         (k₂.startTask new.task i j)
       endTask new.task i j out.1 (out.2.backTo k₂.tasks.currentUserTask)) := by
    rw [runFlat_of_new _ _ _ hadded.isNew ⟨hmem.nonzero, hpos⟩, runNewTask_eq]
    dsimp only
    rw [hadded.flatImage]
  unfold loaderLoadFromVfs
  rw [Effect.bind_of_ok (Effect.require_pos ⟨hmem.path, hhdm, hne⟩ _), Effect.bind_of_ok hask,
    Effect.bind_of_ok hread]
  dsimp only
  rw [Effect.bind_of_ok hcreate, Effect.bind_of_ok (Effect.require_pos ⟨hspace, hthread⟩ _)]
  exact userTaskRunFlat_finish hflat

end load

/-! ## The entry of the program -/

section entry

variable {k k₁ k₂ : Kernel (Host δ)} {f : InitrdFile} {a : LoadAnswers} {size : Nat}
  {image endpoint hhdmOffset : UInt64} {b : Nat} {root : UInt64} {frame : Nat → UInt64}
  {roots : List UInt64} {new : NewTask} {i : Fin maxTasks} {j : Fin maxThreads}

theorem NewTask.codePages (new : NewTask) (image endpoint hhdmOffset : UInt64) {imageSize : UInt64}
    (hsize : imageSize.toNat ≤ 65536) :
    (new.flatImage image imageSize endpoint hhdmOffset).codePages.toNat = imagePages imageSize.toNat := by
  have hadd : (imageSize + 4095).toNat = imageSize.toNat + 4095 := by
    rw [UInt64.toNat_add]
    exact Nat.mod_eq_of_lt (by change _ + 4095 < _; omega)
  have hdiv : ((imageSize + 4095) / 4096).toNat = (imageSize.toNat + 4095) / 4096 := by
    rw [UInt64.toNat_div, hadd]
    rfl
  unfold FlatImage.codePages NewTask.flatImage imagePages
  rw [UInt64.toNat_toUInt32, hdiv]
  omega

/-- The tests on the arguments of the run. -/
theorem Loading.check (h : Loading f image b root endpoint new i j k k₁ k₂) (himage : image ≠ 0)
    (hpos : f.size ≠ 0) (hsize : f.size.toNat ≤ 65536) (hhdm : hhdmOffset ≠ 0) :
    (checkFlatImage (new.flatImage image f.size endpoint hhdmOffset) (k₂.startTask new.task i j)).1 =
      .ok () := by
  obtain ⟨entry, hendpoint⟩ := h.endpoint
  obtain ⟨entry', hthread⟩ := h.placed.thread
  have hne : new.addressSpace ≠ 0 ∧ new.mainThread ≠ 0 ∧ endpoint ≠ 0 := by
    refine ⟨?_, ?_, ?_⟩
    · intro hzero
      have htoken := h.placed.token
      rw [hzero] at htoken
      cases htoken
    · intro hzero
      rw [hzero] at hthread
      cases hthread
    · rintro rfl
      cases hendpoint
  set fl := new.flatImage image f.size endpoint hhdmOffset with hfl
  have hpages : fl.codePages.toNat = imagePages f.size.toNat := new.codePages image endpoint hhdmOffset hsize
  have hpos' : 0 < f.size.toNat := by
    apply Nat.pos_of_ne_zero
    intro hzero
    exact hpos (UInt64.toNat_inj.mp hzero)
  have hcount : 1 ≤ fl.codePages.toNat ∧ fl.codePages.toNat ≤ 16 := by
    rw [hpages]
    unfold imagePages
    omega
  -- An image of at most 65536 bytes has at most 16 pages, which is the limit.
  have hbounds : fl.codePages ≠ 0 ∧ fl.codePages ≤ usermodeMaxFlatPages := by
    refine ⟨?_, ?_⟩
    · intro hzero
      rw [hzero] at hcount
      exact absurd hcount.1 (by decide)
    · rw [UInt32.le_iff_toNat_le]
      exact hcount.2
  -- The code ends below the top of the user addresses.
  have hend : fl.entry ≤ userVirtTop - fl.codePages.toUInt64 * 4096 := by
    have hall : ∀ n < 17, userTestCodeVirt ≤ userVirtTop - (UInt32.ofNat n).toUInt64 * 4096 := by decide
    have hself : fl.codePages = UInt32.ofNat fl.codePages.toNat := (UInt32.ofNat_toNat).symm
    rw [hself]
    exact hall _ (by omega)
  unfold checkFlatImage
  have hargs : fl.aspace ≠ 0 ∧ fl.thread ≠ 0 ∧ fl.entry ≠ 0 ∧ fl.image ≠ 0 ∧ fl.imageSize ≠ 0 ∧
      fl.bootstrapEndpoint ≠ 0 ∧ fl.hhdmOffset ≠ 0 :=
    ⟨hne.1, hne.2.1, (by decide : userTestCodeVirt ≠ 0), himage, hpos, hne.2.2, hhdm⟩
  have hentry : fl.entry &&& 0xfff = 0 ∧ userVirtBase ≤ fl.entry ∧ fl.entry ≤ userVirtTop - 4096 := by
    change userTestCodeVirt &&& 0xfff = 0 ∧ userVirtBase ≤ userTestCodeVirt ∧
      userTestCodeVirt ≤ userVirtTop - 4096
    decide
  have hask : K.capCheck fl.thread Right.read ObjType.thread (k₂.startTask new.task i j) =
      (.ok entry', k₂.startTask new.task i j) := congrArg (·, _) hthread
  have hask' : K.capCheck fl.bootstrapEndpoint Right.send ObjType.endpoint (k₂.startTask new.task i j) =
      (.ok entry, k₂.startTask new.task i j) := congrArg (·, _) hendpoint
  rw [Effect.bind_of_ok (Effect.require_pos hargs _), Effect.bind_of_ok (Effect.require_pos hentry _),
    Effect.bind_of_ok (Effect.require_pos hbounds _), Effect.bind_of_ok (Effect.require_pos hend _),
    Effect.bind_of_ok hask, Effect.bind_of_ok hask']
  rfl

/-- The image in memory is the file, also once the task is made. -/
theorem Loading.bytes (h : Loading f image b root endpoint new i j k k₁ k₂)
    (hmem : LoadMemory a f.data.length image b root frame roots k) (hsize : f.data.length ≤ 65536)
    (stack : StackPage) :
    (new.flatImage image f.size endpoint hhdmOffset).bytes ((k₂.startTask new.task i j).onStack stack) =
      f.data := by
  have hlen : f.size.toNat = f.data.length := UInt64.toNat_ofNat_of_lt' (show _ < 2 ^ 64 by omega)
  have hmem₁ : LoadMemory a f.data.length image b root frame roots k₁ :=
    hmem.of_vmm (by rw [h.read.rest.1])
  have hbyte : ∀ x, userByte k₂.vmm k₂.frames x = userByte k₁.vmm k₁.frames x := by
    intro x
    unfold userByte
    rw [h.placed.translate hmem₁.active hmem₁.rootFresh, h.placed.frames]
  have hbytes : userBytes k₂.vmm k₂.frames image f.data.length =
      userBytes k₁.vmm k₁.frames image f.data.length := by
    unfold userBytes
    simp only [hbyte]
  change userBytes k₂.vmm k₂.frames image f.size.toNat = f.data
  rw [hlen, hbytes]
  exact h.read.bytes hmem.buffer

/-- **Entering.**  The program is entered where its image is mapped. -/
theorem Loading.enters (h : Loading f image b root endpoint new i j k k₁ k₂)
    (hmem : LoadMemory a f.data.length image b root frame roots k) (hpos : f.size ≠ 0)
    (hsize : f.data.length ≤ 65536) (hhdm : hhdmOffset ≠ 0) :
    ∃ stack kᵤ, a.run.stack = some stack ∧
      Entered (new.flatImage image f.size endpoint hhdmOffset) a.run (imagePages f.data.length) frame
        (· ∈ root :: roots) b ((k₂.startTask new.task i j).onStack stack) kᵤ ∧
      ImageMapped (new.flatImage image f.size endpoint hhdmOffset) f.data kᵤ ∧ ∀ user,
      usermodeRunFlatImage (new.flatImage image f.size endpoint hhdmOffset) a.run user
          (k₂.startTask new.task i j) =
        leaveUsermode (new.flatImage image f.size endpoint hhdmOffset)
          (saveTaskState (k₂.startTask new.task i j)) k₂.vmm.activeCr3Phys
          ⟨some k₂.vmm.activeCr3Phys, some stack, imagePages f.data.length, true⟩ (user kᵤ).2 := by
  have hlen : f.size.toNat = f.data.length := UInt64.toNat_ofNat_of_lt' (show _ < 2 ^ 64 by omega)
  have hmem₁ : LoadMemory a f.data.length image b root frame roots k₁ :=
    hmem.of_vmm (by rw [h.read.rest.1])
  set fl := new.flatImage image f.size endpoint hhdmOffset with hfl
  have hroom₂ : ImageRoom fl a.run (imagePages f.data.length) frame (· ∈ root :: roots) b k₂ :=
    imageRoom_of_placed h.placed hmem₁ hsize rfl rfl rfl hlen
  have hroom : ImageRoom fl a.run (imagePages f.data.length) frame (· ∈ root :: roots) b
      (k₂.startTask new.task i j) := hroom₂.congr rfl rfl rfl rfl
  have hpages : fl.codePages.toNat = imagePages f.data.length := by
    rw [← hlen]
    exact new.codePages image endpoint hhdmOffset (by omega)
  obtain ⟨stack, hstack⟩ := hmem.stack
  rw [← hpages] at hroom ⊢
  -- The checks pass and the pages are there, so user mode is entered.
  obtain ⟨kᵤ, hentered, hrun⟩ := usermodeRunFlatImage_enters
    (h.check hmem.nonzero hpos (by omega) hhdm) hstack hroom
  refine ⟨stack, kᵤ, hstack, hentered, ?_, hrun⟩
  have hmapped := hentered.imageMapped (hroom.onStack stack)
    (by decide : userTestCodeVirt.toNat % 4096 = 0)
    (by
      rw [hpages]
      unfold imagePages
      change 0x400000 + _ ≤ _
      omega)
  rw [h.bytes hmem hsize stack] at hmapped
  exact hmapped

/-- **The program that runs is the file in the archive.**  With room, the loader reads the
    bytes that the archive stores for the first entry with this path, and user mode is
    entered with these bytes, and zeros behind them, in read-only user pages. -/
theorem program_is_stored (p : Platform (Host δ)) {t : TarImage} {before : Initrd} {text : List UInt8}
    {vfs : UInt64} (hinit : initrdInitFromLimine before t = (.ok (), k.initrd))
    (hfind : initrdFind k.initrd text = .ok f) (hpos : 1 ≤ f.data.length) (hmax : f.data.length ≤ 65536)
    (hserved : FilesServed k vfs) (hslots : LoadSlots k)
    (hmem : LoadMemory a f.data.length image b root frame roots k) (hhdm : hhdmOffset ≠ 0)
    (hendpoint : ∃ entry, capCheck k.objects k.caps endpoint Right.send ObjType.endpoint = .ok entry) :
    ∃ offset, StoredAt t offset f ∧ ∃ k₁,
      loaderReadImage p a text k = (.ok (image, f.size), k₁) ∧
      userBytes k₁.vmm k₁.frames image f.size.toNat = t.slice (offset + 512) f.size.toNat ∧
      ∃ fl k₂ kᵤ stack, fl.entry = userTestCodeVirt ∧ fl.image = image ∧ fl.imageSize = f.size ∧
        fl.codePages.toNat = (f.size.toNat + 4095) / 4096 ∧
        ImageMapped fl (t.slice (offset + 512) f.size.toNat) kᵤ ∧
        (∀ user, usermodeRunFlatImage fl a.run user k₂ =
          leaveUsermode fl (saveTaskState k₂) k₂.vmm.activeCr3Phys
            ⟨some k₂.vmm.activeCr3Phys, some stack, fl.codePages.toNat, true⟩ (user kᵤ).2) ∧
        ∃ task i j caller current, ∀ user, loaderLoadFromVfs p hhdmOffset a user text endpoint k =
          finishLoad task i j caller (usermodeRunFlatImage fl a.run user k₂).1
            ((usermodeRunFlatImage fl a.run user k₂).2.backTo current) := by
  have hlen : f.size.toNat = f.data.length := UInt64.toNat_ofNat_of_lt' (show _ < 2 ^ 64 by omega)
  have hne : f.size ≠ 0 := by
    intro hzero
    rw [hzero] at hlen
    have hempty : 0 = f.data.length := hlen
    omega
  obtain ⟨hready, hstored⟩ := initrdInitFromLimine_stored hinit
  obtain ⟨hmem', hpath'⟩ : f ∈ k.initrd.files ∧ f.path = text := by
    unfold initrdFind at hfind
    rw [if_neg (by rw [hready]; decide)] at hfind
    split at hfind
    · cases hfind
    · next g hg =>
      obtain rfl := Except.ok.inj hfind
      exact ⟨List.mem_of_find?_eq_some hg, by simpa using List.find?_some hg⟩
  -- The file is a stored one, at its offset in the archive.
  obtain ⟨offset, hat⟩ := hstored f hmem'
  have hpath : PathOk text := hpath' ▸ normalizeTarPath_ok hat.path
  have hopenable : Openable k a.path text f :=
    hserved.openable hslots.fileRoom hpath hfind hmem.path
  obtain ⟨k₁, k₂, new, i, j, hloading, hread, hload⟩ := loaderLoadFromVfs_run p hslots hopenable hmem
    hne hmax hhdm hendpoint
  obtain ⟨stack, kᵤ, hstack, hentered, hmapped, henters⟩ :=
    hloading.enters hmem hne hmax hhdm
  have hpages : (new.flatImage image f.size endpoint hhdmOffset).codePages.toNat =
      imagePages f.data.length := by
    rw [← hlen]
    exact new.codePages image endpoint hhdmOffset (by omega)
  refine ⟨offset, hat, k₁, hread, ?_, new.flatImage image f.size endpoint hhdmOffset,
    k₂.startTask new.task i j, kᵤ, stack, rfl, rfl, rfl, ?_, ?_, ?_, new.task, i, j, k₂.caller,
    k₂.tasks.currentUserTask, hload⟩
  · -- The bytes of the buffer, the pages and the bytes of the program.
    rw [hlen, hloading.read.bytes hmem.buffer, ← hlen]
    exact hat.data
  · rw [hpages, hlen]
    rfl
  · rw [← hat.data]
    exact hmapped
  · rw [hpages]
    exact henters

end entry

/-! ### A machine with one file -/

/-- Page tables with one page mapped, for a buffer in the kernel half. -/
def bufferTables : PageTables := fun table i =>
  if table = 0x1000 ∧ i = 256 then 0x2003
  else if table = 0x2000 ∧ i = 0 then 0x3003
  else if table = 0x3000 ∧ i = 0 then 0x4003
  else if table = 0x4000 ∧ i = 0 then 0x5003
  else 0

/-- The links there are. -/
theorem childOf_bufferTables {t t' : UInt64} {i : Fin 512} (h : childOf bufferTables t i = some t') :
    (t = 0x1000 ∧ i = 256 ∧ t' = 0x2000) ∨ (t = 0x2000 ∧ i = 0 ∧ t' = 0x3000) ∨
      (t = 0x3000 ∧ i = 0 ∧ t' = 0x4000) ∨ (t = 0x4000 ∧ i = 0 ∧ t' = 0x5000) := by
  by_cases h₁ : t = 0x1000 ∧ i = 256
  · obtain ⟨rfl, rfl⟩ := h₁
    exact .inl ⟨rfl, rfl, (Option.some.inj h).symm⟩
  by_cases h₂ : t = 0x2000 ∧ i = 0
  · obtain ⟨rfl, rfl⟩ := h₂
    exact .inr (.inl ⟨rfl, rfl, (Option.some.inj h).symm⟩)
  by_cases h₃ : t = 0x3000 ∧ i = 0
  · obtain ⟨rfl, rfl⟩ := h₃
    exact .inr (.inr (.inl ⟨rfl, rfl, (Option.some.inj h).symm⟩))
  by_cases h₄ : t = 0x4000 ∧ i = 0
  · obtain ⟨rfl, rfl⟩ := h₄
    exact .inr (.inr (.inr ⟨rfl, rfl, (Option.some.inj h).symm⟩))
  simp [childOf, bufferTables, h₁, h₂, h₃, h₄] at h

/-- The path that leads to a table, or to the page. -/
def bufferPath (t : UInt64) : List (Fin 512) :=
  if t = 0x1000 then []
  else if t = 0x2000 then [256]
  else if t = 0x3000 then [256, 0]
  else if t = 0x4000 then [256, 0, 0]
  else [256, 0, 0, 0]

theorem walk_bufferTables {p : List (Fin 512)} {t : UInt64}
    (h : walk (childOf bufferTables) 0x1000 p = some t) :
    p = bufferPath t ∧ t ∈ [0x1000, 0x2000, 0x3000, 0x4000, 0x5000] := by
  induction p using List.reverseRecOn generalizing t with
  | nil =>
    obtain rfl := Option.some.inj h
    decide
  | append_singleton p i ih =>
    rw [walk_concat] at h
    obtain ⟨t₀, ht₀, hchild⟩ := Option.bind_eq_some_iff.mp h
    obtain ⟨hp, _⟩ := ih ht₀
    rcases childOf_bufferTables hchild with ⟨rfl, rfl, rfl⟩ | ⟨rfl, rfl, rfl⟩ | ⟨rfl, rfl, rfl⟩ |
      ⟨rfl, rfl, rfl⟩
    all_goals
      rw [hp]
      decide

theorem samePath_bufferTables : SamePath (childOf bufferTables) (· ∈ [0x1000]) AllPaths := by
  intro r r' p p' t hr hr' _ _ hw hw'
  obtain rfl := List.mem_singleton.mp hr
  obtain rfl := List.mem_singleton.mp hr'
  rw [(walk_bufferTables hw).1, (walk_bufferTables hw').1]

theorem fresh_bufferTables {g : UInt64} (hok : FrameOk g)
    (hnot : g ∉ [0x1000, 0x2000, 0x3000, 0x4000, 0x5000]) :
    FreshPage bufferTables (· ∈ [0x1000]) AllPaths g := by
  refine ⟨hok, ?_⟩
  intro r q hr _ hw
  obtain rfl := List.mem_singleton.mp hr
  exact hnot (walk_bufferTables hw).2

/-- The file of the machine. -/
def smallFile : InitrdFile := ⟨[slash, 97], [1, 2, 3], 0⟩

/-- A machine with its services and one file. -/
def fileMachine : Kernel (Host Unit) :=
  { (machine ⟨[smallFile], true⟩).host RunState.zero with vmm := ⟨bufferTables, 0x1000, true⟩ }

/-- Answers for a load on it. -/
def fileAnswers : LoadAnswers := ⟨0x200000, some 0xffff800000000000, some 0, [.ok 0x10000], childAnswers⟩

theorem filesServed_fileMachine : FilesServed fileMachine (firstToken 3) where
  lookup := by decide +kernel
  service := ⟨firstToken 3, by decide +kernel⟩
  root := ⟨firstToken 2, by decide +kernel⟩

theorem loadSlots_fileMachine : LoadSlots fileMachine where
  live :=
    { wf := tablesWf_machine _
      task := nofun
      thread := nofun
      taskId := nofun
      threadId := nofun }
  file := ⟨0, rfl⟩
  task := ⟨0, rfl⟩
  thread := ⟨0, rfl⟩
  taskSlot := ⟨0, rfl⟩
  threadSlot := ⟨0, rfl⟩
  objects := by decide +kernel
  caps := by decide +kernel

/-- The pages of the image and of the user stack. -/
def fileFrame (i : Nat) : UInt64 := if i = 0 then 0x30000 else 0x50000

/-- Pages that are not used. -/
theorem fresh_pages {pages : List UInt64} (hall : (pages.all fun g => decide (FrameOk g) &&
    !([0x1000, 0x2000, 0x3000, 0x4000, 0x5000] : List UInt64).contains g) = true) :
    ∀ g ∈ pages, FreshPage bufferTables (· ∈ [0x1000]) AllPaths g := by
  intro g hg
  have hg' := List.all_eq_true.mp hall g hg
  simp only [Bool.and_eq_true, decide_eq_true_eq, Bool.not_eq_true', List.contains_eq_mem,
    decide_eq_false_iff_not] at hg'
  exact fresh_bufferTables hg'.1 hg'.2

/-- A supply of three of them. -/
theorem supply_bufferTables {g₁ g₂ g₃ : UInt64} (hnodup : [g₁, g₂, g₃].Nodup)
    (hfresh : ∀ g ∈ [g₁, g₂, g₃], FreshPage bufferTables (· ∈ [0x1000]) AllPaths g) :
    Supplies 3 [.ok g₁, .ok g₂, .ok g₃] ∧
      SupplyFresh bufferTables (· ∈ [0x1000]) AllPaths [.ok g₁, .ok g₂, .ok g₃] := by
  refine ⟨?_, hnodup, hfresh⟩
  intro j hj
  match j, hj with
  | 0, _ => exact ⟨g₁, rfl⟩
  | 1, _ => exact ⟨g₂, rfl⟩
  | 2, _ => exact ⟨g₃, rfl⟩

/-- Answers for a load on it, with pages for the root and for the tables of the run. -/
structure PagesFor (a : LoadAnswers) (b : Nat) (root g₁ g₂ g₃ g₄ g₅ g₆ : UInt64) : Prop where
  path : a.path ≠ 0
  image : a.image = some 0xffff800000000000
  storage : a.storage = some b
  rootPages : a.rootPages = [.ok root]
  stack : a.run.stack = some childStack
  code : a.run.code 0 = (.ok 0x30000, [.ok g₁, .ok g₂, .ok g₃])
  userStack : a.run.userStack = (.ok 0x50000, [.ok g₄, .ok g₅, .ok g₆])
  once : [root, g₁, g₂, g₃, g₄, g₅, g₆].Nodup
  fresh : ([root, g₁, g₂, g₃, g₄, g₅, g₆].all fun g => decide (FrameOk g) &&
    !([0x1000, 0x2000, 0x3000, 0x4000, 0x5000] : List UInt64).contains g) = true
  rootNonzero : root ≠ 0

section pages

variable {a : LoadAnswers} {b : Nat} {root g₁ g₂ g₃ g₄ g₅ g₆ : UInt64}

theorem PagesFor.runMemory (h : PagesFor a b root g₁ g₂ g₃ g₄ g₅ g₆) :
    RunMemory a.run 1 fileFrame bufferTables (· ∈ [0x1000]) ∧
      ∀ i ≤ 1, root ∉ (a.run.page 1 i).2.frames := by
  have honce := h.once
  have hfresh := fresh_pages h.fresh
  have hcode := @supply_bufferTables g₁ g₂ g₃ (by grind) (by grind)
  have hstack := @supply_bufferTables g₄ g₅ g₆ (by grind) (by grind)
  have hpage₀ : a.run.page 1 0 = (.ok 0x30000, [.ok g₁, .ok g₂, .ok g₃]) := h.code
  have hpage₁ : a.run.page 1 1 = (.ok 0x50000, [.ok g₄, .ok g₅, .ok g₆]) := h.userStack
  have hframes : ∀ x y z : UInt64, PageSupply.frames [.ok x, .ok y, .ok z] = [x, y, z] := fun _ _ _ => rfl
  have htwo : ∀ {P : Nat → Prop}, P 0 → P 1 → ∀ i ≤ 1, P i := by
    intro P h₀ h₁ i hi
    rcases Nat.le_one_iff_eq_zero_or_eq_one.mp hi with rfl | rfl
    · exact h₀
    · exact h₁
  refine ⟨⟨?_, ?_, ?_, ?_, ?_, ?_⟩, ?_⟩
  · exact htwo (by rw [hpage₀]; rfl) (by rw [hpage₁]; rfl)
  · decide
  · decide
  · exact htwo (by rw [hpage₀]; exact hcode.1) (by rw [hpage₁]; exact hstack.1)
  · exact htwo (by rw [hpage₀]; exact hcode.2) (by rw [hpage₁]; exact hstack.2)
  · refine htwo (htwo (absurd rfl ·) ?_) (htwo ?_ (absurd rfl ·))
    · intro _
      rw [hpage₀, hpage₁]
      simp only [hframes]
      grind
    · intro _
      rw [hpage₀, hpage₁]
      simp only [hframes]
      grind
  · refine htwo ?_ ?_
    · rw [hpage₀]
      simp only [hframes]
      grind
    · rw [hpage₁]
      simp only [hframes]
      grind

/-- The image is read into three bytes of the page at `0x5000`. -/
theorem translate_image : ∀ o < 3,
    vmmVirtToPhys fileMachine.vmm (0xffff800000000000 + UInt64.ofNat o) =
      .ok (0x5000 + UInt64.ofNat o, 1) := by
  decide +kernel

theorem toNat_image : ∀ o < 3, (0x5000 + UInt64.ofNat o : UInt64).toNat = 0x5000 + o := by
  decide

theorem buffer_image : Buffer fileMachine.vmm 0xffff800000000000 3 := by
  constructor
  · intro o ho
    exact ⟨_, _, translate_image o ho⟩
  · intro o o' phys flags flags' ho ho' h h'
    rw [translate_image o ho] at h
    rw [translate_image o' ho'] at h'
    have heq := (Prod.mk.inj (Except.ok.inj h)).1.trans (Prod.mk.inj (Except.ok.inj h')).1.symm
    have hnat := congrArg UInt64.toNat heq
    rw [toNat_image o ho, toNat_image o' ho'] at hnat
    omega

theorem PagesFor.loadMemory (h : PagesFor a b root g₁ g₂ g₃ g₄ g₅ g₆) :
    LoadMemory a 3 0xffff800000000000 b root fileFrame [0x1000] fileMachine := by
  have hroot := fresh_pages h.fresh root (List.mem_cons_self ..)
  refine ⟨rfl, List.mem_singleton_self _, samePath_bufferTables, h.path, h.image, by decide, buffer_image,
    by decide, ?_, h.storage, ⟨[], h.rootPages⟩, hroot, h.rootNonzero, ⟨childStack, h.stack⟩, h.runMemory.1,
    h.runMemory.2⟩
  intro o ho phys flags h i _
  rw [translate_image o ho] at h
  rw [← (Prod.mk.inj (Except.ok.inj h)).1, toNat_image o ho]
  unfold fileFrame
  split
  · change (0x5000 + o) / 4096 ≠ 0x30000 / 4096
    omega
  · change (0x5000 + o) / 4096 ≠ 0x50000 / 4096
    omega

end pages

theorem loadMemory_fileMachine :
    LoadMemory fileAnswers 3 0xffff800000000000 0 0x10000 fileFrame [0x1000] fileMachine :=
  @PagesFor.loadMemory fileAnswers 0 0x10000 0x40000 0x41000 0x42000 0x60000 0x61000 0x62000
    ⟨by decide, rfl, rfl, rfl, rfl, rfl, rfl, by decide, by decide, by decide⟩

/-- The file of three bytes is the program that runs. -/
theorem program_is_stored_small :
    initrdInitFromLimine ⟨[], false⟩ smallImage = (.ok (), fileMachine.initrd) ∧
    ∃ (offset : Nat) (k₁ kᵤ : Kernel (Host Unit)) (fl : FlatImage),
      loaderReadImage (quietPeripherals.platform (Effect.fail .notsup)) fileAnswers [slash, 97] fileMachine =
        (.ok (0xffff800000000000, 3), k₁) ∧
      StoredAt smallImage offset smallFile ∧
      userBytes k₁.vmm k₁.frames 0xffff800000000000 3 = smallImage.slice (offset + 512) 3 ∧
      fl.codePages.toNat = 1 ∧ ImageMapped fl (smallImage.slice (offset + 512) 3) kᵤ := by
  have hinit : initrdInitFromLimine ⟨[], false⟩ smallImage = (.ok (), fileMachine.initrd) := by
    decide +kernel
  refine ⟨hinit, ?_⟩
  obtain ⟨entry, hcheck⟩ : ∃ entry, capCheck fileMachine.objects fileMachine.caps (firstToken 0) Right.send
      ObjType.endpoint = .ok entry := ⟨⟨firstToken 0, 1, ObjType.endpoint, 0, 80⟩, by decide +kernel⟩
  obtain ⟨offset, hat, k₁, hread, hbytes, fl, _, kᵤ, _, _, _, _, hpages, hmapped, _⟩ :=
    @program_is_stored Unit fileMachine smallFile fileAnswers 0xffff800000000000 (firstToken 0)
      0xffff800000000000 0 0x10000 fileFrame [0x1000] (quietPeripherals.platform (Effect.fail .notsup))
      smallImage ⟨[], false⟩ [slash, 97] (firstToken 3) hinit rfl (by decide) (by decide)
      filesServed_fileMachine loadSlots_fileMachine loadMemory_fileMachine (by decide) ⟨entry, hcheck⟩
  exact ⟨offset, k₁, kᵤ, fl, hread, hat, hbytes, hpages, hmapped⟩

end Scdk
