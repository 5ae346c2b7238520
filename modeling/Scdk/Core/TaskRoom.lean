import Scdk.Arch.ImageMap
import Scdk.Core.TaskCreation

/-! # Room for a task

    `scdk_user_task_create` takes three objects with their tokens, a page for the root
    of the address space, and a slot in each of four tables.

    * `TaskRoom`: there are these slots,
    * `Steady`: steps that leave memory and the address spaces as they are,
    * `addressSpaceCreate_room`, `taskCreate_room`, `threadCreate_room`: with room, each
      of the three objects is made,
    * `userTaskCreate_room`: so the task is made. -/

namespace Scdk

variable {δ : Type}

/-- Room for a task with its address space and its main thread. -/
structure TaskRoom (k : Kernel (Host δ)) : Prop where
  task : ∃ i, (k.tasks.tasks i).inUse = false
  thread : ∃ j, (k.tasks.threads j).inUse = false
  taskSlot : ∃ i, (k.devices.run.tasks i).objectId = 0
  threadSlot : ∃ i, (k.devices.run.threads i).objectId = 0
  objects : 3 ≤ k.objects.room
  caps : 3 ≤ k.caps.room

/-! ## Objects -/

section objects

variable {o : ObjectTable} {c : CapTable} {tasks : TaskTable} {threads : ThreadTable}

/-- A slot that some record leaves free is found. -/
theorem firstSlot_of_free {n : Nat} {p : Fin n → Bool} (h : ∃ i, p i = true) :
    ∃ i, Slots.firstSlot p = some i := by
  obtain ⟨i, hi⟩ := h
  exact Slots.firstSlot_of_count (Slots.count_pos hi)

theorem vmmCreateRoot_ok {v : Vmm} {root : UInt64} {rest : PageSupply} (hinit : v.initialized = true)
    (hne : v.activeCr3Phys ≠ root) : vmmCreateRoot v (.ok root :: rest) =
      (.ok root, { v with tables := newRoot v.tables v.activeCr3Phys root }) := by
  unfold vmmCreateRoot
  rw [if_neg (by rw [hinit]; decide)]
  simp only [pageAlloc, newRoot, Function.update_of_ne hne, Function.update_idem]

/-- An address space in the block `b`, over a page that is not the active root. -/
theorem addressSpaceCreate_room {v : Vmm} {root : UInt64} {rest : PageSupply}
    (hinit : v.initialized = true) (hne : v.activeCr3Phys ≠ root) (hroot : root ≠ 0)
    (ho : 0 < o.room) (hc : 0 < c.room) (aspaces : AddressSpaces) (b : Nat) :
    ∃ id t o' c', NewObject ObjType.addressSpace bootCore (.addressSpace b) spaceRights o c id t o' c' ∧
      addressSpaceCreate o c aspaces v (some b) (.ok root :: rest) =
        (.ok t, o', c', Function.update aspaces b ⟨id, root, bootCore, 0⟩,
          { v with tables := newRoot v.tables v.activeCr3Phys root }) ∧
      lookupAspace o' c' (Function.update aspaces b ⟨id, root, bootCore, 0⟩) t spaceRights = .ok b := by
  obtain ⟨id, t, o', c', hnew⟩ := @newObject_room o c ObjType.addressSpace bootCore (.addressSpace b)
    spaceRights (by decide) (by decide) (by decide) ho hc
  refine ⟨id, t, o', c', hnew, ?_, ?_⟩
  · unfold addressSpaceCreate
    dsimp only
    rw [vmmCreateRoot_ok hinit hne]
    dsimp only
    rw [hnew.object]
    dsimp only
    rw [hnew.cap]
    dsimp only
    rw [Function.update_idem]
  · obtain ⟨generation, hobject, _⟩ := hnew.found
    obtain ⟨entry, hcheck, rfl⟩ := hnew.check (by decide : spaceRights ≠ 0) (by decide)
    unfold lookupAspace
    rw [hcheck]
    dsimp only
    rw [hobject]
    simp [hroot]

theorem taskCreate_room (hslot : ∃ i, (tasks i).objectId = 0) (ho : 0 < o.room) (hc : 0 < c.room)
    (addressSpace : UInt64) :
    ∃ i id t o' c', NewObject ObjType.task bootCore (.task i) taskRights o c id t o' c' ∧
      taskCreate o c tasks bootCore addressSpace =
        (.ok t, o', c', Function.update tasks i ⟨id, t, bootCore, addressSpace, 0⟩) := by
  obtain ⟨i, hfind⟩ := firstSlot_of_free (p := fun i => (tasks i).objectId == 0) (by simpa using hslot)
  obtain ⟨id, t, o', c', hnew⟩ := @newObject_room o c ObjType.task bootCore (.task i) taskRights
    (by decide) (by decide) (by decide) ho hc
  refine ⟨i, id, t, o', c', hnew, ?_⟩
  unfold taskCreate
  rw [if_neg (by decide), hfind]
  unfold taskCreateSlot
  dsimp only
  rw [hnew.object]
  dsimp only
  rw [hnew.cap]

/-- A thread without an entry, for the task in slot `i`. -/
theorem threadCreate_room {task : UInt64} {i : Fin maxTasks}
    (hcheck : ∃ entry, capCheck o c task Right.bind ObjType.task = .ok entry)
    (htask : Sched.taskSlotForCap o c tasks task = .ok i) (hcore : (tasks i).ownerCore = bootCore)
    (hslot : ∃ i, (threads i).objectId = 0) (ho : 0 < o.room) (hc : 0 < c.room) :
    ∃ j id t o' c' slots, NewObject ObjType.thread bootCore (.thread j) threadRights o c id t o' c' ∧
      threadCreate o c tasks threads task 0 0 none = (.ok t, o', c', slots) := by
  obtain ⟨entry, hcheck⟩ := hcheck
  obtain ⟨j, hfind⟩ := firstSlot_of_free (p := fun i => (threads i).objectId == 0)
    (by simpa using hslot)
  obtain ⟨id, t, o', c', hnew⟩ := @newObject_room o c ObjType.thread bootCore (.thread j) threadRights
    (by decide) (by decide) (by decide) ho hc
  refine ⟨j, id, t, o', c', (Function.update tasks i { tasks i with
    mainThread := if (tasks i).mainThread = 0 then t else (tasks i).mainThread },
    Function.update threads j ⟨id, t, task, entry.objectId, 0, 0, 0, 0, bootCore, .new, false⟩),
    hnew, ?_⟩
  unfold threadCreate
  rw [hcheck]
  dsimp only
  rw [htask]
  dsimp only
  rw [hfind]
  unfold threadCreateSlot
  dsimp only
  rw [hcore, hnew.object]
  dsimp only
  rw [if_neg (by simp), hnew.cap]
  rfl

end objects

/-! ## The task -/

/-- Memory and the address spaces are as they were. -/
structure Steady (k k' : Kernel (Host δ)) : Prop where
  vmm : k'.vmm = k.vmm
  frames : k'.frames = k.frames
  aspaces : k'.devices.run.aspaces = k.devices.run.aspaces
  lasting : Lasting k k'

instance : IsPreorder (Kernel (Host δ)) Steady where
  refl := fun k => ⟨rfl, rfl, rfl, refl k⟩
  trans := fun _ _ _ h h' => ⟨h'.vmm.trans h.vmm, h'.frames.trans h.frames, h'.aspaces.trans h.aspaces,
    IsTrans.trans _ _ _ h.lasting h'.lasting⟩

section steady

variable {k k' : Kernel (Host δ)}

/-- A token is that of the same address space as long as its record stays. -/
theorem SpaceToken.lasting {aspace : UInt64} {b : Nat} (htoken : SpaceToken k aspace b)
    (hlast : Lasting k k') (hwf : TablesWf k.objects k.caps)
    (haspaces : k'.devices.run.aspaces = k.devices.run.aspaces) : SpaceToken k' aspace b := by
  have hkept := hlast.tokens hwf
  unfold SpaceToken lookupAspace at htoken ⊢
  rw [haspaces]
  cases hcheck : capCheck k.objects k.caps aspace spaceRights ObjType.addressSpace with
  | error e =>
    rw [hcheck] at htoken
    cases htoken
  | ok entry =>
    rw [hcheck] at htoken
    rw [hkept.capCheck hwf (by decide) (by decide) hcheck]
    dsimp only at htoken ⊢
    cases hobject : objectLookup k.objects entry.objectId with
    | error e =>
      rw [hobject] at htoken
      cases htoken
    | ok object =>
      rw [hobject] at htoken
      rw [hkept.objects hobject]
      exact htoken

end steady

/-- The token of a new object. -/
theorem objectIdFromCap_new {k : Kernel (Host δ)} {type : UInt32} {payload : Payload} {rights id t : UInt64}
    {o : ObjectTable} {c : CapTable}
    (h : NewObject type bootCore payload rights o c id t k.objects k.caps)
    (hsub : rights &&& Right.read = Right.read) : objectIdFromCap t type k = (.ok id, k) := by
  obtain ⟨entry, hcheck, rfl⟩ := h.check (by decide : Right.read ≠ 0) hsub
  have hask : K.capCheck t Right.read type k = (.ok entry, k) := congrArg (·, k) hcheck
  unfold objectIdFromCap
  rw [Effect.bind_of_ok hask]
  rfl

/-- With room, the main thread of a task is made. -/
theorem userThreadCreate_room {k : Kernel (Host δ)} {task : UInt64} {i : Fin maxTasks}
    {t : Fin maxTasks} (hslot : taskSlotForCap k.tasks task = .ok i)
    (hthread : ∃ j, (k.tasks.threads j).inUse = false)
    (hcheck : ∃ entry, capCheck k.objects k.caps task Right.bind ObjType.task = .ok entry)
    (htask : Sched.taskSlotForCap k.objects k.caps k.devices.run.tasks task = .ok t)
    (hcore : (k.devices.run.tasks t).ownerCore = bootCore)
    (hthreadSlot : ∃ i, (k.devices.run.threads i).objectId = 0) (ho : 0 < k.objects.room)
    (hc : 0 < k.caps.room) :
    ∃ thread, (userThreadCreate task k).1 = .ok thread ∧ Steady k (userThreadCreate task k).2 ∧
      ∃ entry, capCheck (userThreadCreate task k).2.objects (userThreadCreate task k).2.caps thread
        Right.read ObjType.thread = .ok entry := by
  obtain ⟨j, hfind⟩ := firstSlot_of_free (p := fun j => !(k.tasks.threads j).inUse) (by simpa using hthread)
  obtain ⟨j', id, thread, o', c', slots, hnew, hcreate⟩ :=
    threadCreate_room hcheck htask hcore hthreadSlot ho hc
  -- Each of the four steps succeeds in turn.
  have hask : Effect.ask (fun k : Kernel (Host δ) => taskSlotForCap k.tasks task) k = (.ok i, k) :=
    congrArg (·, k) hslot
  have hfree : allocThreadSlot k.tasks = .ok j := by
    unfold allocThreadSlot
    rw [hfind]
  have halloc : Effect.ask (fun k : Kernel (Host δ) => allocThreadSlot k.tasks) k = (.ok j, k) :=
    congrArg (·, k) hfree
  have hlast := (making_threadCreate task k).lasting
  have hmade : K.threadCreate task k = (.ok thread, (K.threadCreate task k).2) := by
    unfold K.threadCreate
    rw [hcreate]
  have hsteady : Steady k (K.threadCreate task k).2 := ⟨rfl, rfl, rfl, hlast⟩
  have hnew' : NewObject ObjType.thread bootCore (.thread j') threadRights k.objects k.caps id thread
      (K.threadCreate task k).2.objects (K.threadCreate task k).2.caps := by
    unfold K.threadCreate
    rw [hcreate]
    exact hnew
  have hid : objectIdFromCap thread ObjType.thread (K.threadCreate task k).2 =
      (.ok id, (K.threadCreate task k).2) := objectIdFromCap_new hnew' (by decide)
  unfold userThreadCreate
  rw [Effect.bind_of_ok hask, Effect.bind_of_ok halloc, Effect.bind_of_ok hmade, Effect.bind_of_ok hid]
  obtain ⟨entry, hread, _⟩ := hnew'.check (by decide : Right.read ≠ 0) (by decide)
  exact ⟨thread, rfl, IsTrans.trans _ _ _ hsteady ⟨rfl, rfl, rfl, .of_eq rfl⟩, entry, hread⟩

/-- An address space is made in the block `b` over the page `root`. -/
structure SpaceMade (k k' : Kernel (Host δ)) (b : Nat) (root aspace id : UInt64) : Prop where
  object : NewObject ObjType.addressSpace bootCore (.addressSpace b) spaceRights k.objects k.caps id aspace
    k'.objects k'.caps
  token : SpaceToken k' aspace b
  rest : k' = { k with
    objects := k'.objects, caps := k'.caps
    vmm := { k.vmm with tables := newRoot k.vmm.tables k.vmm.activeCr3Phys root }
    devices := { k.devices with run := { k.devices.run with
      aspaces := Function.update k.devices.run.aspaces b ⟨id, root, bootCore, 0⟩ } } }
  lasting : Lasting k k'

/-- A task of the scheduler is made in slot `i`. -/
structure TaskInSlot (k k' : Kernel (Host δ)) (i : Fin maxTasks) (addressSpace task id : UInt64) : Prop where
  object : NewObject ObjType.task bootCore (.task i) taskRights k.objects k.caps id task k'.objects k'.caps
  slot : k'.devices.run.tasks i = ⟨id, task, bootCore, addressSpace, 0⟩
  tasks : k'.tasks = k.tasks
  threads : k'.devices.run.threads = k.devices.run.threads
  steady : Steady k k'

/-- The task `new` is made, with its address space in the block `b` over the page `root`. -/
structure TaskPlaced (k k' : Kernel (Host δ)) (new : NewTask) (b : Nat) (root : UInt64) : Prop where
  vmm : k'.vmm = { k.vmm with tables := newRoot k.vmm.tables k.vmm.activeCr3Phys root }
  frames : k'.frames = k.frames
  token : SpaceToken k' new.addressSpace b
  root : (k'.devices.run.aspaces b).rootPhys = root
  thread : ∃ entry, capCheck k'.objects k'.caps new.mainThread Right.read ObjType.thread = .ok entry

section create

variable {k : Kernel (Host δ)} {b : Nat} {root : UInt64} {pages : PageSupply}

theorem K.addressSpaceCreate_room (hinit : k.vmm.initialized = true) (hne : k.vmm.activeCr3Phys ≠ root)
    (hroot : root ≠ 0) (ho : 0 < k.objects.room) (hc : 0 < k.caps.room) :
    ∃ aspace id k', K.addressSpaceCreate (some b) (.ok root :: pages) k = (.ok aspace, k') ∧
      SpaceMade k k' b root aspace id := by
  obtain ⟨id, aspace, o', c', hnew, hcreate, hlookup⟩ :=
    @Scdk.addressSpaceCreate_room k.objects k.caps k.vmm root pages hinit hne hroot ho hc
      k.devices.run.aspaces b
  have hlast := (making_addressSpaceCreate (some b) (.ok root :: pages) k).lasting
  unfold K.addressSpaceCreate at hlast ⊢
  rw [hcreate] at hlast ⊢
  exact ⟨aspace, id, _, rfl, hnew, hlookup, rfl, hlast⟩

theorem K.taskCreate_room (hslot : ∃ i, (k.devices.run.tasks i).objectId = 0)
    (ho : 0 < k.objects.room) (hc : 0 < k.caps.room) (addressSpace : UInt64) :
    ∃ i task id k', K.taskCreate bootCore addressSpace k = (.ok task, k') ∧
      TaskInSlot k k' i addressSpace task id := by
  obtain ⟨i, id, task, o', c', hnew, hcreate⟩ := Scdk.taskCreate_room hslot ho hc addressSpace
  have hlast := (making_taskCreate bootCore addressSpace k).lasting
  unfold K.taskCreate at hlast ⊢
  rw [hcreate] at hlast ⊢
  exact ⟨i, task, id, _, rfl, hnew, Function.update_self _ _ _, rfl, rfl, ⟨rfl, rfl, rfl, hlast⟩⟩

/-- A record that was written is found. -/
theorem taskSlotForCap_written (t : UserTasks) (i : Fin maxTasks) {s : UserTaskSlot}
    (huse : s.inUse = true) : ∃ i', taskSlotForCap (t.setTask i fun _ => s) s.taskCap = .ok i' := by
  obtain ⟨i', hfind⟩ := firstSlot_of_free (p := fun j =>
    ((t.setTask i fun _ => s).tasks j).inUse && ((t.setTask i fun _ => s).tasks j).taskCap == s.taskCap)
    ⟨i, by simp [UserTasks.setTask, huse]⟩
  refine ⟨i', ?_⟩
  unfold taskSlotForCap
  rw [hfind]

/-- The test of `task_slot_for_cap` on a payload and the id of its object. -/
def taskTest (tasks : TaskTable) (payload : Payload) (objectId : UInt64) :
    Except Err (Fin maxTasks) :=
  match payload with
  | .task i => if (tasks i).objectId ≠ objectId then .error .noent else .ok i
  | _ => .error .noent

/-- **Creation of a task** with room for it. -/
theorem userTaskCreate_room (hwf : TablesWf k.objects k.caps) (hroom : TaskRoom k)
    (hinit : k.vmm.initialized = true) (hne : k.vmm.activeCr3Phys ≠ root) (hroot : root ≠ 0) :
    ∃ new k', userTaskCreate (some b) (.ok root :: pages) k = (.ok new, k') ∧
      TaskPlaced k k' new b root := by
  have hobjects := hroom.objects
  have hcaps := hroom.caps
  obtain ⟨i, hfind⟩ := firstSlot_of_free (p := fun i => !(k.tasks.tasks i).inUse)
    (by simpa using hroom.task)
  have hfree : allocTaskSlot k.tasks = .ok i := by
    unfold allocTaskSlot
    rw [hfind]
  have halloc : Effect.ask (fun k : Kernel (Host δ) => allocTaskSlot k.tasks) k = (.ok i, k) :=
    congrArg (·, k) hfree
  obtain ⟨aspace, aspaceId, k₁, hrun₁, hspace⟩ := @K.addressSpaceCreate_room δ k b root pages hinit hne
    hroot (by omega) (by omega)
  have hroom₁ := hspace.object.objectRoom
  have hcroom₁ := hspace.object.capRoom
  have hid₁ := objectIdFromCap_new hspace.object (by decide)
  have hslots₁ : k₁.tasks = k.tasks ∧ k₁.devices.run.tasks = k.devices.run.tasks ∧
      k₁.devices.run.threads = k.devices.run.threads := by
    rw [hspace.rest]
    exact ⟨rfl, rfl, rfl⟩
  obtain ⟨slot, task, taskId, k₂, hrun₂, htask⟩ :=
    K.taskCreate_room (k := k₁) (hslots₁.2.1 ▸ hroom.taskSlot) (by omega) (by omega) aspaceId
  have hroom₂ := htask.object.objectRoom
  have hcroom₂ := htask.object.capRoom
  have hid₂ := objectIdFromCap_new htask.object (by decide)
  -- The record of the task, and then its main thread.
  set s := newTaskSlot task taskId aspace aspaceId with hs
  set k₃ : Kernel (Host δ) := { k₂ with tasks := k₂.tasks.setTask i fun _ => s } with hk₃
  obtain ⟨i', hslot⟩ : ∃ i', taskSlotForCap k₃.tasks task = .ok i' :=
    taskSlotForCap_written k₂.tasks i (s := s) rfl
  have hrecord : Steady k₂ k₃ := ⟨rfl, rfl, rfl, .of_eq rfl⟩
  have hsched : Sched.taskSlotForCap k₃.objects k₃.caps k₃.devices.run.tasks task = .ok slot := by
    have hlookup := htask.object.lookup (by decide : Right.read ≠ 0) (by decide)
      (taskTest k₂.devices.run.tasks)
    unfold Sched.taskSlotForCap
    have hid : (k₂.devices.run.tasks slot).objectId = taskId := by rw [htask.slot]
    exact hlookup.trans (if_neg (not_not.mpr hid))
  obtain ⟨entry, hcheck, _⟩ := htask.object.check (by decide : Right.bind ≠ 0) (by decide)
  have hthreadFree : ∃ j, (k₃.tasks.threads j).inUse = false := by
    have hsame : k₃.tasks.threads = k.tasks.threads := by
      rw [hk₃]
      change k₂.tasks.threads = k.tasks.threads
      rw [htask.tasks, hslots₁.1]
    rw [hsame]
    exact hroom.thread
  have hthreadSlot : ∃ i, (k₃.devices.run.threads i).objectId = 0 := by
    have hsame : k₃.devices.run.threads = k.devices.run.threads := htask.threads.trans hslots₁.2.2
    rw [hsame]
    exact hroom.threadSlot
  obtain ⟨thread, hrun₃, hsteady₃, hread⟩ := userThreadCreate_room (k := k₃) hslot hthreadFree ⟨entry, hcheck⟩
    hsched (by rw [show k₃.devices = k₂.devices from rfl, htask.slot]) hthreadSlot
    (show 0 < k₂.objects.room by omega) (show 0 < k₂.caps.room by omega)
  have hsteady : Steady k₁ (userThreadCreate task k₃).2 :=
    IsTrans.trans _ _ _ (IsTrans.trans _ _ _ htask.steady hrecord) hsteady₃
  refine ⟨⟨task, aspace, thread⟩, (userThreadCreate task k₃).2, ?_, ?_, ?_, ?_, ?_, hread⟩
  · unfold userTaskCreate
    rw [Effect.bind_of_ok halloc, Effect.bind_of_ok hrun₁, Effect.bind_of_ok hid₁,
      Effect.bind_of_ok hrun₂, Effect.bind_of_ok hid₂,
      Effect.bind_of_ok (show K.setTasks _ k₂ = (.ok (), k₃) from rfl), Effect.attempt_bind, hrun₃]
    rfl
  · rw [hsteady.vmm, hspace.rest]
  · rw [hsteady.frames, hspace.rest]
  · exact hspace.token.lasting hsteady.lasting (hspace.lasting.tokens hwf).wf hsteady.aspaces
  · rw [hsteady.aspaces, hspace.rest]
    simp

end create

end Scdk
