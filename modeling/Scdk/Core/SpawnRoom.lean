import Scdk.Core.ProgramImage

/-! # What a spawn takes

    The tables have so many free entries, and each object of a spawn takes its own.

    * `TableRoom`: the free entries of all tables; `Takes`: what a step takes of them,
    * `ImageIn.takes`: reading the image takes an object and a token,
    * `takes_userTaskCreate`: a new task takes three of each, and an entry in the table of
      tasks and in that of threads, in the kernel and in the scheduler,
    * `TableRoom.spawnsLeft`: for how many spawns there is room,
    * `TableRoom.SpawnsAfter`: whether there is when so many have been made, each of which
      has taken something else besides. -/

namespace Scdk

variable {δ : Type}

/-! ## Room -/

/-- The free entries of each table: open files, the records of user tasks and threads, the
    slots of the scheduler, objects and tokens. -/
@[ext] structure TableRoom where
  files : Nat
  tasks : Nat
  threads : Nat
  taskSlots : Nat
  threadSlots : Nat
  objects : Nat
  caps : Nat
  deriving DecidableEq, Repr

namespace TableRoom

instance : Add TableRoom where
  add a b := ⟨a.files + b.files, a.tasks + b.tasks, a.threads + b.threads, a.taskSlots + b.taskSlots,
    a.threadSlots + b.threadSlots, a.objects + b.objects, a.caps + b.caps⟩

section add

variable (a b c : TableRoom)

@[simp] theorem files_add : (a + b).files = a.files + b.files := rfl

@[simp] theorem tasks_add : (a + b).tasks = a.tasks + b.tasks := rfl

@[simp] theorem threads_add : (a + b).threads = a.threads + b.threads := rfl

@[simp] theorem taskSlots_add : (a + b).taskSlots = a.taskSlots + b.taskSlots := rfl

@[simp] theorem threadSlots_add : (a + b).threadSlots = a.threadSlots + b.threadSlots := rfl

@[simp] theorem objects_add : (a + b).objects = a.objects + b.objects := rfl

@[simp] theorem caps_add : (a + b).caps = a.caps + b.caps := rfl

/-- Nothing. -/
instance : Zero TableRoom := ⟨⟨0, 0, 0, 0, 0, 0, 0⟩⟩

theorem zero_add : 0 + a = a := by
  ext
  all_goals exact Nat.zero_add _

/-- The same, so many times. -/
def times (n : Nat) (r : TableRoom) : TableRoom :=
  ⟨n * r.files, n * r.tasks, n * r.threads, n * r.taskSlots, n * r.threadSlots, n * r.objects,
    n * r.caps⟩

theorem times_zero : times 0 a = 0 := by
  ext
  all_goals exact Nat.zero_mul _

theorem times_succ (n : Nat) : times (n + 1) a = a + times n a := by
  ext
  all_goals exact (Nat.succ_mul _ _).trans (Nat.add_comm _ _)

theorem add_zero : a + 0 = a := rfl

theorem add_assoc : a + b + c = a + (b + c) := by
  ext
  all_goals exact Nat.add_assoc _ _ _

variable {a b c}

theorem add_right_cancel (h : a + c = b + c) : a = b := by
  rw [TableRoom.ext_iff] at h ⊢
  simpa using h

end add

/-- An object and a token for it. -/
def object : TableRoom := ⟨0, 0, 0, 0, 0, 1, 1⟩

/-- A user task with its address space and its main thread. -/
def task : TableRoom := ⟨0, 1, 1, 1, 1, 3, 3⟩

/-- A spawn: the handle of the file, which is closed again, and the task. -/
def spawn : TableRoom := ⟨0, 1, 1, 1, 1, 4, 4⟩

/-- For how many spawns there is room. -/
def spawnsLeft (r : TableRoom) : Nat :=
  min r.tasks (min r.threads (min r.taskSlots (min r.threadSlots (min (r.objects / 4) (r.caps / 4)))))

/-- There is room for a spawn more before it than after it. -/
theorem spawnsLeft_add (r : TableRoom) : (r + spawn).spawnsLeft = r.spawnsLeft + 1 := by
  simp only [spawnsLeft, spawn, tasks_add, threads_add, taskSlots_add, threadSlots_add, objects_add,
    caps_add]
  omega

theorem spawnsLeft_times (r : TableRoom) (n : Nat) :
    (r + spawn.times n).spawnsLeft = r.spawnsLeft + n := by
  induction n with
  | zero => rw [times_zero, add_zero, Nat.add_zero]
  | succ n ih =>
    have hcomm : r + spawn.times (n + 1) = r + spawn.times n + spawn := by
      ext
      all_goals simp [times, Nat.succ_mul, Nat.add_assoc]
    rw [hcomm, spawnsLeft_add, ih]
    rfl

/-- When `n` spawns have been made, whose programs have kept `cost` each, there is room for
    another one. -/
def SpawnsAfter (r cost : TableRoom) (n : Nat) : Prop :=
  ∃ left, left + (cost + spawn).times n = r ∧ 0 < left.files ∧ 0 < left.spawnsLeft

/-- Programs that keep nothing leave the room that there was but for the spawns. -/
theorem spawnsAfter_zero {r : TableRoom} {n : Nat} :
    r.SpawnsAfter 0 n ↔ 0 < r.files ∧ n < r.spawnsLeft := by
  unfold SpawnsAfter
  rw [zero_add]
  constructor
  · rintro ⟨left, rfl, hfiles, hleft⟩
    refine ⟨?_, by rw [spawnsLeft_times]; omega⟩
    simpa [times, spawn] using hfiles
  · rintro ⟨hfiles, hleft⟩
    have hmin := hleft
    simp only [spawnsLeft, Nat.lt_min] at hmin
    have hroom : (⟨r.files, r.tasks - n, r.threads - n, r.taskSlots - n, r.threadSlots - n,
        r.objects - 4 * n, r.caps - 4 * n⟩ : TableRoom) + spawn.times n = r := by
      ext
      all_goals simp only [times, spawn, files_add, tasks_add, threads_add, taskSlots_add,
        threadSlots_add, objects_add, caps_add]
      all_goals omega
    refine ⟨_, hroom, hfiles, ?_⟩
    have hsum := spawnsLeft_times ⟨r.files, r.tasks - n, r.threads - n, r.taskSlots - n,
      r.threadSlots - n, r.objects - 4 * n, r.caps - 4 * n⟩ n
    rw [hroom] at hsum
    omega

end TableRoom

/-- The free entries of the tables. -/
def Kernel.tableRoom (k : Kernel (Host δ)) : TableRoom where
  files := Slots.count fun i => !(k.files i).isOpen
  tasks := Slots.count fun i => !(k.tasks.tasks i).inUse
  threads := Slots.count fun j => !(k.tasks.threads j).inUse
  taskSlots := Slots.count fun i => (k.devices.run.tasks i).objectId == 0
  threadSlots := Slots.count fun i => (k.devices.run.threads i).objectId == 0
  objects := k.objects.room
  caps := k.caps.room

/-- The step takes these entries. -/
def Takes (cost : TableRoom) (k k' : Kernel (Host δ)) : Prop := k'.tableRoom + cost = k.tableRoom

/-- The step takes no entry, and gives none back. -/
def SameRoom (k k' : Kernel (Host δ)) : Prop := k'.tableRoom = k.tableRoom

section takes

variable {k k' k'' : Kernel (Host δ)} {cost cost' : TableRoom}

theorem Takes.trans (h : Takes cost k k') (h' : Takes cost' k' k'') : Takes (cost' + cost) k k'' := by
  unfold Takes at h h' ⊢
  rw [← h, ← h', TableRoom.add_assoc]

theorem Takes.same (h : Takes cost k k') (h' : SameRoom k' k'') : Takes cost k k'' := by
  unfold Takes
  rw [h']
  exact h

theorem SameRoom.takes (h : SameRoom k k') (h' : Takes cost k' k'') : Takes cost k k'' := by
  unfold SameRoom at h
  unfold Takes
  rw [← h]
  exact h'

instance : IsPreorder (Kernel (Host δ)) SameRoom where
  refl := fun _ => rfl
  trans := fun _ _ _ h h' => h'.trans h

/-- The names of the records say which of them are free. -/
theorem sameRoom_of_names (hnames : SameNames k.tasks k'.tasks)
    (hrun : k'.devices.run.tasks = k.devices.run.tasks)
    (hthreads : k'.devices.run.threads = k.devices.run.threads) (hobjects : k'.objects = k.objects)
    (hcaps : k'.caps = k.caps) (hfiles : k'.files = k.files) : SameRoom k k' := by
  unfold SameRoom Kernel.tableRoom
  rw [hrun, hthreads, hobjects, hcaps, hfiles]
  simp only [hnames.taskUse, hnames.threadUse]

end takes

/-! ## The image -/

section image

variable {k k' : Kernel (Host δ)} {f : InitrdFile} {image : UInt64}

/-- Reading a file takes an object and a token: its slot is free again. -/
theorem ImageIn.takes (h : ImageIn k k' f image) : Takes .object k k' := by
  obtain ⟨hrest, hobjects, hcaps⟩ := h.rest
  obtain ⟨k₁, i, id, t, hmade, hk'⟩ := h.made
  -- The slot of the file was free before, and it is closed again.
  have hfiles : ∀ j, (k'.files j).isOpen = (k.files j).isOpen := by
    intro j
    rw [hk', hmade.rest]
    by_cases hj : j = i
    · subst hj
      simp [Kernel.closeFile, Kernel.withBytes, hmade.free]
    · simp [Kernel.closeFile, Kernel.withBytes, hj]
  have htasks : k'.tasks = k.tasks := by rw [hrest]
  have hdevices : k'.devices = k.devices := by rw [hrest]
  unfold Takes Kernel.tableRoom
  rw [htasks, hdevices]
  simp only [hfiles]
  ext
  all_goals simp [TableRoom.object, hobjects, hcaps]

end image

/-! ## The task -/

section task

variable {k k' : Kernel (Host δ)}

/-- An object with its token. -/
theorem room_newObject {o o' : ObjectTable} {c c' : CapTable} {type ownerCore : UInt32} {payload : Payload}
    {rights id t : UInt64} (hobject : objectCreate o type ownerCore 0 payload = (.ok id, o'))
    (hcap : capCreate o' c id rights = (.ok t, c')) : o'.room + 1 = o.room ∧ c'.room + 1 = c.room := by
  have hnew := NewObject.of_created hobject hcap
  exact ⟨hnew.objectRoom, hnew.capRoom⟩

/-- An address space takes no more than that. -/
theorem takes_addressSpaceCreate {storage : Option Nat} {pages : PageSupply} {aspace : UInt64}
    (h : K.addressSpaceCreate storage pages k = (.ok aspace, k')) : Takes .object k k' := by
  unfold K.addressSpaceCreate Scdk.addressSpaceCreate at h
  cases storage with
  | none => cases h
  | some b =>
    dsimp only at h
    rcases hroot : vmmCreateRoot k.vmm pages with ⟨r, v⟩
    rw [hroot] at h
    cases r with
    | error e => cases h
    | ok root =>
      dsimp only at h
      rcases hobject : objectCreate k.objects ObjType.addressSpace bootCore 0 (.addressSpace b) with ⟨r, o⟩
      rw [hobject] at h
      cases r with
      | error e => cases h
      | ok id =>
        dsimp only at h
        rcases hcap : capCreate o k.caps id spaceRights with ⟨r, c⟩
        rw [hcap] at h
        cases r with
        | error e => cases h
        | ok t =>
          obtain ⟨_, rfl⟩ := Prod.mk.inj h
          obtain ⟨hobjects, hcaps⟩ := room_newObject hobject hcap
          unfold Takes Kernel.tableRoom
          ext
          all_goals simp [TableRoom.object, hobjects, hcaps]

/-- A search in the slots of the scheduler. -/
theorem count_objectId {n : Nat} {S : Type} (id : S → UInt64) (slots : Fin n → S) {i : Fin n} {s : S}
    (hfind : (Slots.firstSlot fun i => id (slots i) == 0) = some i) (hne : id s ≠ 0) :
    (Slots.count fun j => id (Function.update slots i s j) == 0) + 1 =
      Slots.count fun j => id (slots j) == 0 := by
  apply Slots.count_take (i := i)
  · exact (Slots.firstSlot_eq_some hfind).1
  · simpa using hne
  · intro j hj
    simp [hj]

/-- The id of an object that was made names it. -/
theorem objectCreate_ne_zero {o o' : ObjectTable} {c c' : CapTable} {type ownerCore : UInt32}
    {payload : Payload} {rights id t : UInt64}
    (hobject : objectCreate o type ownerCore 0 payload = (.ok id, o'))
    (hcap : capCreate o' c id rights = (.ok t, c')) : id ≠ 0 := by
  obtain ⟨_, hlookup, _⟩ := (NewObject.of_created hobject hcap).found
  rintro rfl
  cases hlookup

/-- A task of the scheduler takes its slot. -/
theorem takes_taskCreate {ownerCore : UInt32} {aspace task : UInt64}
    (h : K.taskCreate ownerCore aspace k = (.ok task, k')) : Takes ⟨0, 0, 0, 1, 0, 1, 1⟩ k k' := by
  -- Only one of the ends of the function has made a task.
  unfold K.taskCreate Scdk.taskCreate at h
  split at h
  next r o c tasks hcreate =>
  split at hcreate
  · cases hcreate
    cases h
  split at hcreate
  · cases hcreate
    cases h
  next i hfind =>
  unfold taskCreateSlot at hcreate
  split at hcreate
  · cases hcreate
    cases h
  next id o₁ hobject =>
  dsimp only at hcreate
  split at hcreate
  · next t c₁ hcap =>
    cases hcreate
    obtain ⟨_, rfl⟩ := Prod.mk.inj h
    obtain ⟨hobjects, hcaps⟩ := room_newObject hobject hcap
    have hid : id ≠ 0 := objectCreate_ne_zero hobject hcap
    have hslots := fun s (hs : TaskSlot.objectId s ≠ 0) =>
      count_objectId TaskSlot.objectId k.devices.run.tasks hfind hs
    unfold Takes Kernel.tableRoom
    ext
    all_goals simp [hobjects, hcaps, hslots, hid]
  · cases hcreate
    cases h

/-- The main thread of a task is set. -/
theorem objectId_setMainThread (tasks : TaskTable) (t j : Fin maxTasks) (thread : UInt64) :
    (Function.update tasks t { tasks t with mainThread := thread } j).objectId = (tasks j).objectId := by
  by_cases hj : j = t
  · subst hj
    simp
  · simp [hj]

/-- And so does a thread. -/
theorem takes_threadCreate {task thread : UInt64} (h : K.threadCreate task k = (.ok thread, k')) :
    Takes ⟨0, 0, 0, 0, 1, 1, 1⟩ k k' := by
  -- Each check that fails ends the function, and what is left has made a thread.
  unfold K.threadCreate Scdk.threadCreate at h
  split at h
  next r o c tasks threads hcreate =>
  split at hcreate
  · cases hcreate
    cases h
  split at hcreate
  · cases hcreate
    cases h
  next t _ =>
  split at hcreate
  · cases hcreate
    cases h
  next i hfind =>
  unfold threadCreateSlot at hcreate
  split at hcreate
  · cases hcreate
    cases h
  next id o₁ hobject =>
  dsimp only at hcreate
  split at hcreate
  · cases hcreate
    cases h
  split at hcreate
  · cases hcreate
    cases h
  next cap c₁ hcap =>
  cases hcreate
  obtain ⟨_, rfl⟩ := Prod.mk.inj h
  obtain ⟨hobjects, hcaps⟩ := room_newObject hobject hcap
  have hslots := fun s (hs : ThreadSlot.objectId s ≠ 0) =>
    count_objectId ThreadSlot.objectId k.devices.run.threads hfind hs
  have hid : id ≠ 0 := objectCreate_ne_zero hobject hcap
  unfold Takes Kernel.tableRoom
  ext
  all_goals simp [hobjects, hcaps, hslots, hid, objectId_setMainThread]

/-! Records of user tasks. -/

theorem sameRoom_setTask (i : Fin maxTasks) {f : UserTaskSlot → UserTaskSlot}
    (huse : ∀ s, (f s).inUse = s.inUse) (k : Kernel (Host δ)) :
    SameRoom k { k with tasks := k.tasks.setTask i f } := by
  have hsame : ∀ j, ((k.tasks.setTask i f).tasks j).inUse = (k.tasks.tasks j).inUse := by
    intro j
    by_cases hj : j = i
    · subst hj
      simp [UserTasks.setTask, huse]
    · simp [UserTasks.setTask, hj]
  unfold SameRoom Kernel.tableRoom
  simp only [hsame]
  rfl

theorem takes_setTask {i : Fin maxTasks} {s : UserTaskSlot} (hfree : (k.tasks.tasks i).inUse = false)
    (huse : s.inUse = true) :
    Takes ⟨0, 1, 0, 0, 0, 0, 0⟩ k { k with tasks := k.tasks.setTask i fun _ => s } := by
  have hcount : (Slots.count fun j => !((k.tasks.setTask i fun _ => s).tasks j).inUse) + 1 =
      Slots.count fun j => !(k.tasks.tasks j).inUse := by
    apply Slots.count_take (i := i)
    · simp [hfree]
    · simp [UserTasks.setTask, huse]
    · intro j hj
      simp [UserTasks.setTask, hj]
  unfold Takes Kernel.tableRoom
  ext
  all_goals simp [hcount]
  all_goals rfl

theorem takes_setThread {j : Fin maxThreads} {s : UserThreadSlot} (hfree : (k.tasks.threads j).inUse = false)
    (huse : s.inUse = true) :
    Takes ⟨0, 0, 1, 0, 0, 0, 0⟩ k { k with tasks := k.tasks.setThread j fun _ => s } := by
  have hcount : (Slots.count fun j' => !((k.tasks.setThread j fun _ => s).threads j').inUse) + 1 =
      Slots.count fun j => !(k.tasks.threads j).inUse := by
    apply Slots.count_take (i := j)
    · simp [hfree]
    · simp [UserTasks.setThread, huse]
    · intro j' hj
      simp [UserTasks.setThread, hj]
  unfold Takes Kernel.tableRoom
  ext
  all_goals simp [hcount]
  all_goals rfl

/-- The id of a token is asked for. -/
theorem objectIdFromCap_state {cap id : UInt64} {type : UInt32}
    (h : objectIdFromCap cap type k = (.ok id, k')) : k' = k := by
  obtain ⟨entry, k₁, hcheck, hend⟩ := Effect.bind_eq_ok h
  obtain ⟨_, rfl⟩ := Effect.ask_eq_ok hcheck
  exact (Prod.mk.inj hend).2.symm

/-- A main thread takes a record as well. -/
theorem takes_userThreadCreate {task thread : UInt64} (h : userThreadCreate task k = (.ok thread, k')) :
    Takes ⟨0, 0, 1, 0, 1, 1, 1⟩ k k' := by
  obtain ⟨i, k₀, hask, h₁⟩ := Effect.bind_eq_ok h
  obtain ⟨_, rfl⟩ := Effect.ask_eq_ok hask
  obtain ⟨j, k₀, halloc, h₂⟩ := Effect.bind_eq_ok h₁
  obtain ⟨hj, rfl⟩ := Effect.ask_eq_ok halloc
  obtain ⟨t, k₁, hcreate, h₃⟩ := Effect.bind_eq_ok h₂
  obtain ⟨id, k₁, hid, h₄⟩ := Effect.bind_eq_ok h₃
  obtain rfl := objectIdFromCap_state hid
  obtain ⟨_, _, hthread, h₅⟩ := Effect.bind_eq_ok h₄
  obtain ⟨_, rfl⟩ := Prod.mk.inj hthread
  obtain ⟨_, _, htask, hend⟩ := Effect.bind_eq_ok h₅
  obtain ⟨_, rfl⟩ := Prod.mk.inj htask
  obtain ⟨_, rfl⟩ := Prod.mk.inj hend
  -- The record is still free when the thread is made.
  have htasks := (making_threadCreate task k₀).tasks
  rw [hcreate] at htasks
  have hfree := allocThreadSlot_eq_ok hj
  rw [← htasks] at hfree
  have hrecord := takes_setThread (k := k₁) (s := ⟨true, t, id, (k₁.tasks.tasks i).taskId,
    userTestStackTop, userTestCodeVirt, (k₁.tasks.tasks i).ownerCore, .new⟩) hfree rfl
  have hmain := sameRoom_setTask i (f := fun slot => { slot with mainThreadCap := t }) (fun _ => rfl)
    { k₁ with tasks := k₁.tasks.setThread j fun _ => ⟨true, t, id, (k₁.tasks.tasks i).taskId,
      userTestStackTop, userTestCodeVirt, (k₁.tasks.tasks i).ownerCore, .new⟩ }
  exact ((takes_threadCreate hcreate).trans hrecord).same hmain

/-- **A new task** takes all that. -/
theorem takes_userTaskCreate {storage : Option Nat} {pages : PageSupply} {new : NewTask}
    (h : userTaskCreate storage pages k = (.ok new, k')) : Takes .task k k' := by
  obtain ⟨i, k₀, halloc, h₁⟩ := Effect.bind_eq_ok h
  obtain ⟨hi, rfl⟩ := Effect.ask_eq_ok halloc
  obtain ⟨aspace, k₁, hspace, h₂⟩ := Effect.bind_eq_ok h₁
  obtain ⟨aspaceId, k₁, hid, h₃⟩ := Effect.bind_eq_ok h₂
  obtain rfl := objectIdFromCap_state hid
  obtain ⟨task, k₂, htask, h₄⟩ := Effect.bind_eq_ok h₃
  obtain ⟨taskId, k₂, hid', h₅⟩ := Effect.bind_eq_ok h₄
  obtain rfl := objectIdFromCap_state hid'
  obtain ⟨_, _, hset, h₆⟩ := Effect.bind_eq_ok h₅
  obtain ⟨_, rfl⟩ := Prod.mk.inj hset
  -- The record is still free when the task has its objects.
  have htasks₁ := (making_addressSpaceCreate storage pages k₀).tasks
  have htasks₂ := (making_taskCreate bootCore aspaceId k₁).tasks
  rw [hspace] at htasks₁
  rw [htask] at htasks₂
  have hfree := allocTaskSlot_eq_ok hi
  rw [← htasks₁, ← htasks₂] at hfree
  have hrecord := takes_setTask (k := k₂)
    (s := ⟨true, task, taskId, aspace, aspaceId, 0, bootCore, .new, 0⟩) hfree rfl
  -- A main thread that cannot be made fails the whole creation.
  rw [Effect.attempt_bind] at h₆
  rcases hthread : userThreadCreate task { k₂ with tasks := k₂.tasks.setTask i fun _ =>
    ⟨true, task, taskId, aspace, aspaceId, 0, bootCore, .new, 0⟩ } with ⟨r, k₃⟩
  rw [hthread] at h₆
  cases r with
  | error e =>
    obtain ⟨_, _, _, hfail⟩ := Effect.bind_eq_ok h₆
    cases hfail
  | ok thread =>
    obtain ⟨_, rfl⟩ := Prod.mk.inj h₆
    exact (((takes_addressSpaceCreate hspace).trans (takes_taskCreate htask)).trans hrecord).trans
      (takes_userThreadCreate hthread)

end task

end Scdk
