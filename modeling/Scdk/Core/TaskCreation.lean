import Scdk.Core.Lasting
import Scdk.Core.Room
import Scdk.Core.TaskNames

/-! # New tasks and threads

    What `scdk_user_thread_create` and `scdk_user_task_create` do to the records,
    with the tokens that they make.

    * `Live`: a token for an object of some type; `NewToken`: one for an object
      that was not there before,
    * `Making`: steps of a creation before anything has a record; `Beside`: the
      same once something has,
    * `userThreadCreate_run`, `userTaskCreate_run`: every way in which the two
      functions end. -/

namespace Scdk

variable {δ : Type}

/-! ## Tokens -/

/-- `cap` is the token of the object `id` of type `type`. -/
def Live (k : Kernel δ) (type : UInt32) (cap id : UInt64) : Prop :=
  ∃ e, capLookup k.objects k.caps cap = .ok e ∧ e.objectType = type ∧ e.objectId = id

/-- The same for an object that was not there in state `k`. -/
def NewToken (k k' : Kernel δ) (type : UInt32) (cap id : UInt64) : Prop :=
  TablesWf k.objects k.caps → Live k' type cap id ∧ ∀ ob, objectLookup k.objects id ≠ .ok ob

section tokens

variable {k k' k'' : Kernel δ} {type : UInt32} {cap id : UInt64}

theorem Live.object (h : Live k type cap id) (hwf : TablesWf k.objects k.caps) :
    ∃ ob, objectLookup k.objects id = .ok ob := by
  obtain ⟨e, hl, _, rfl⟩ := h
  obtain ⟨j, hj, _, rfl⟩ := (capLookup_eq_ok hwf).mp hl
  obtain ⟨ob, hob, _⟩ := hwf.object j hj
  exact ⟨ob, hob⟩

/-- The token zero is that of no object. -/
theorem Live.ne_zero (h : Live k type cap id) : cap ≠ 0 := by
  rintro rfl
  obtain ⟨e, hl, _⟩ := h
  cases hl

theorem Lasting.live (h : Lasting k k') (hwf : TablesWf k.objects k.caps)
    (htype : type ≠ ObjType.grant) (hlive : Live k type cap id) : Live k' type cap id := by
  obtain ⟨e, hl, rfl, hid⟩ := hlive
  exact ⟨e, (h.tokens hwf).capLookup hwf hl htype, rfl, hid⟩

theorem NewToken.after (h : NewToken k' k'' type cap id) (hfirst : Lasting k k') :
    NewToken k k'' type cap id := by
  intro hwf
  have hkept := hfirst.tokens hwf
  obtain ⟨hlive, hnew⟩ := h hkept.wf
  exact ⟨hlive, fun ob hob => hnew ob (hkept.objects hob)⟩

theorem NewToken.before (h : NewToken k k' type cap id) (hfirst : Lasting k k')
    (hlast : Lasting k' k'') (htype : type ≠ ObjType.grant) : NewToken k k'' type cap id := by
  intro hwf
  obtain ⟨hlive, hnew⟩ := h hwf
  exact ⟨hlast.live (hfirst.tokens hwf).wf htype hlive, hnew⟩

end tokens

section mint

variable {o o' : ObjectTable} {c c' : CapTable} {t : UInt64}

/-- A token that was minted for a new object. -/
def FreshToken (type : UInt32) (o o' : ObjectTable) (c' : CapTable) (t : UInt64) : Prop :=
  ∃ e, capLookup o' c' t = .ok e ∧ e.objectType = type ∧ ∀ ob, objectLookup o e.objectId ≠ .ok ob

theorem minted_capCreate (hwf : TablesWf o c) {type ownerCore flags : UInt32} {payload : Payload}
    {id rights : UInt64} (hobject : objectCreate o type ownerCore flags payload = (.ok id, o'))
    (hcap : capCreate o' c id rights = (.ok t, c')) : FreshToken type o o' c' t := by
  obtain ⟨g, hlookup⟩ := objectLookup_of_objectCreate hwf.objects hobject
  exact ⟨_, capLookup_created hlookup hcap, rfl, objectLookup_fresh hwf.objects hobject⟩

theorem taskCreate_minted (hwf : TablesWf o c) {tasks tasks' : TaskTable} {ownerCore : UInt32}
    {addressSpace : UInt64}
    (h : taskCreate o c tasks ownerCore addressSpace = (.ok t, o', c', tasks')) :
    FreshToken ObjType.task o o' c' t := by
  unfold taskCreate at h
  split at h
  · cases h
  split at h
  · cases h
  unfold taskCreateSlot at h
  split at h
  · cases h
  next hobject =>
  split at h
  · next hcap =>
    cases h
    exact minted_capCreate hwf hobject hcap
  · cases h

theorem threadCreate_minted (hwf : TablesWf o c) {tasks tasks' : TaskTable}
    {threads threads' : ThreadTable} {task entry arg : UInt64} {stack : Option UInt64}
    (h : threadCreate o c tasks threads task entry arg stack = (.ok t, o', c', tasks', threads')) :
    FreshToken ObjType.thread o o' c' t := by
  unfold threadCreate at h
  split at h
  · cases h
  split at h
  · cases h
  split at h
  · cases h
  unfold threadCreateSlot at h
  split at h
  · cases h
  next hobject =>
  dsimp only at h
  split at h
  · cases h
  split at h
  · cases h
  · next hcap =>
    cases h
    exact minted_capCreate hwf hobject hcap

end mint

/-! ## Steps -/

/-- Steps of the creation of a task before it has a record. -/
structure Making (k k' : Kernel (Host δ)) : Prop where
  tasks : k'.tasks = k.tasks
  syscall : k'.syscall = k.syscall
  pending : k'.devices.run.pending = k.devices.run.pending
  log : k'.devices.run.log = k.devices.run.log
  lasting : Lasting k k'

instance : IsPreorder (Kernel (Host δ)) Making where
  refl := fun k => ⟨rfl, rfl, rfl, rfl, refl k⟩
  trans := fun _ _ _ h h' => ⟨h'.tasks.trans h.tasks, h'.syscall.trans h.syscall,
    h'.pending.trans h.pending, h'.log.trans h.log, IsTrans.trans _ _ _ h.lasting h'.lasting⟩

/-- The same once it may have one. -/
structure Beside (k k' : Kernel (Host δ)) : Prop where
  current : k'.tasks.currentUserTask = k.tasks.currentUserTask
  syscall : k'.syscall = k.syscall
  pending : k'.devices.run.pending = k.devices.run.pending
  log : k'.devices.run.log = k.devices.run.log
  lasting : Lasting k k'

instance : IsPreorder (Kernel (Host δ)) Beside where
  refl := fun k => ⟨rfl, rfl, rfl, rfl, refl k⟩
  trans := fun _ _ _ h h' => ⟨h'.current.trans h.current, h'.syscall.trans h.syscall,
    h'.pending.trans h.pending, h'.log.trans h.log, IsTrans.trans _ _ _ h.lasting h'.lasting⟩

theorem Making.beside {k k' : Kernel (Host δ)} (h : Making k k') : Beside k k' :=
  ⟨by rw [h.tasks], h.syscall, h.pending, h.log, h.lasting⟩

/-- A change of the records alone. -/
theorem beside_setTasks {k : Kernel (Host δ)} {t : UserTasks}
    (h : t.currentUserTask = k.tasks.currentUserTask) : Beside k { k with tasks := t } :=
  ⟨h, rfl, rfl, rfl, .of_eq rfl⟩

theorem making_objectIdFromCap (cap : UInt64) (type : UInt32) :
    Effect.Within Making (objectIdFromCap cap type : K (Host δ) UInt64) := by
  refine .bind (Effect.within_ask _) fun _ => ?_
  exact Effect.within_pure _

theorem making_addressSpaceCreate (storage : Option Nat) (pages : PageSupply) :
    Effect.Within Making (K.addressSpaceCreate storage pages : K (Host δ) UInt64) := by
  intro k
  refine ⟨rfl, rfl, rfl, rfl, fun h => ?_, rfl, rfl, rfl, rfl⟩
  exact (addressSpaceCreate_made h (P := fun _ => True) (fun _ => trivial) k.devices.run.aspaces
    k.vmm storage pages).kept

theorem making_taskCreate (ownerCore : UInt32) (addressSpace : UInt64) :
    Effect.Within Making (K.taskCreate ownerCore addressSpace : K (Host δ) UInt64) := by
  intro k
  refine ⟨rfl, rfl, rfl, rfl, fun h => ?_, rfl, rfl, rfl, rfl⟩
  exact (taskCreate_made h (P := fun _ => True) (fun _ => trivial) k.devices.run.tasks ownerCore
    addressSpace).kept

theorem making_threadCreate (task : UInt64) :
    Effect.Within Making (K.threadCreate task : K (Host δ) UInt64) := by
  intro k
  refine ⟨rfl, rfl, rfl, rfl, fun h => ?_, rfl, rfl, rfl, rfl⟩
  exact (threadCreate_made h (P := fun _ => True) (fun _ => trivial) k.devices.run.tasks
    k.devices.run.threads task 0 0 none).kept

theorem K.taskCreate_minted {k k' : Kernel (Host δ)} {ownerCore : UInt32} {addressSpace t : UInt64}
    (h : K.taskCreate ownerCore addressSpace k = (.ok t, k')) (hwf : TablesWf k.objects k.caps) :
    FreshToken ObjType.task k.objects k'.objects k'.caps t := by
  unfold K.taskCreate at h
  rcases hcreate : Scdk.taskCreate k.objects k.caps k.devices.run.tasks ownerCore addressSpace with
    ⟨r, o, c, tasks⟩
  rw [hcreate] at h
  obtain ⟨rfl, rfl⟩ := Prod.mk.inj h
  exact Scdk.taskCreate_minted hwf hcreate

theorem K.threadCreate_minted {k k' : Kernel (Host δ)} {task t : UInt64}
    (h : K.threadCreate task k = (.ok t, k')) (hwf : TablesWf k.objects k.caps) :
    FreshToken ObjType.thread k.objects k'.objects k'.caps t := by
  unfold K.threadCreate at h
  rcases hcreate : Scdk.threadCreate k.objects k.caps k.devices.run.tasks k.devices.run.threads task
    0 0 none with ⟨r, o, c, tasks, threads⟩
  rw [hcreate] at h
  obtain ⟨rfl, rfl⟩ := Prod.mk.inj h
  exact Scdk.threadCreate_minted hwf hcreate

/-! ## Tokens that are looked up -/

/-- The object behind a token that is minted. -/
theorem newToken_objectIdFromCap {k k₁ k₂ : Kernel (Host δ)} {type : UInt32} {cap id : UInt64}
    (hmint : TablesWf k.objects k.caps → FreshToken type k.objects k₁.objects k₁.caps cap)
    (h : objectIdFromCap cap type k₁ = (.ok id, k₂)) : NewToken k k₂ type cap id := by
  obtain ⟨entry, k', hcheck, hpure⟩ := Effect.bind_eq_ok h
  obtain ⟨hentry, rfl⟩ := Effect.ask_eq_ok hcheck
  cases hpure
  intro hwf
  obtain ⟨e, hl, htype, hnew⟩ := hmint hwf
  obtain ⟨_, hl', _⟩ := capCheck_eq_ok_iff_lookup.mp hentry
  obtain rfl := Except.ok.inj (hl.symm.trans hl')
  exact ⟨⟨e, hl, htype, rfl⟩, hnew⟩

/-- The token zero is that of no object. -/
theorem objectIdFromCap_ne_zero {cap : UInt64} {type : UInt32} {k k' : Kernel (Host δ)}
    {id : UInt64} (h : objectIdFromCap cap type k = (.ok id, k')) : cap ≠ 0 := by
  rintro rfl
  obtain ⟨entry, k₁, hcheck, _⟩ := Effect.bind_eq_ok h
  cases (Effect.ask_eq_ok hcheck).1

/-! ## Threads -/

/-- The thread has its record in slot `j`, and is the main thread of the task in
    slot `i`. -/
def UserTasks.addThread (t : UserTasks) (i : Fin maxTasks) (j : Fin maxThreads)
    (thread threadId : UInt64) : UserTasks :=
  (t.setThread j fun _ =>
    ⟨true, thread, threadId, (t.tasks i).taskId, userTestStackTop, userTestCodeVirt,
      (t.tasks i).ownerCore, .new⟩).setTask i fun slot => { slot with mainThreadCap := thread }

/-- A thread is made for `task`. -/
structure ThreadCreated (task thread id : UInt64) (i : Fin maxTasks) (j : Fin maxThreads)
    (k k' : Kernel (Host δ)) : Prop where
  slot : taskSlotForCap k.tasks task = .ok i
  free : (k.tasks.threads j).inUse = false
  beside : Beside k k'
  token : NewToken k k' ObjType.thread thread id
  tasks : k'.tasks = k.tasks.addThread i j thread id

/-- A thread is not made, or has a record and is the main thread of its task. -/
theorem userThreadCreate_run (task : UInt64) (k : Kernel (Host δ)) :
    (∃ e, (userThreadCreate task k).1 = .error e ∧ Making k (userThreadCreate task k).2) ∨
    ∃ thread id i j, (userThreadCreate task k).1 = .ok thread ∧
      ThreadCreated task thread id i j k (userThreadCreate task k).2 := by
  let Q : Except Err UInt64 → Kernel (Host δ) → Prop := fun r k' =>
    (∃ e, r = .error e ∧ Making k k') ∨
    ∃ thread id i j, r = .ok thread ∧ ThreadCreated task thread id i j k k'
  have hfailed : ∀ e k', Making k k' → Q (.error e) k' := fun e k' h => .inl ⟨e, rfl, h⟩
  show Q _ _
  apply Effect.Within.bind_ends (R := Making) (Q := Q) (Effect.within_ask _) hfailed
  intro i k₁ hask h₁
  have hslot := (Effect.ask_eq_ok hask).1
  apply Effect.Within.bind_ends (R := Making) (Q := Q) (Effect.within_ask _)
  · intro e k' h'
    exact hfailed e k' (IsTrans.trans _ _ _ h₁ h')
  intro j k₂ hask h₂
  replace h₂ := IsTrans.trans _ _ _ h₁ h₂
  have hfree := allocThreadSlot_eq_ok (Effect.ask_eq_ok hask).1
  rw [h₁.tasks] at hfree
  apply Effect.Within.bind_ends (R := Making) (Q := Q) (making_threadCreate task)
  · intro e k' h'
    exact hfailed e k' (IsTrans.trans _ _ _ h₂ h')
  intro thread k₃ hthread h₃
  have hmint := K.threadCreate_minted hthread
  replace h₃ := IsTrans.trans _ _ _ h₂ h₃
  apply Effect.Within.bind_ends (R := Making) (Q := Q) (making_objectIdFromCap thread _)
  · intro e k' h'
    exact hfailed e k' (IsTrans.trans _ _ _ h₃ h')
  intro id k₄ hid h₄
  have htoken := (newToken_objectIdFromCap hmint hid).after h₂.lasting
  replace h₄ := IsTrans.trans _ _ _ h₃ h₄
  -- From here on nothing fails.
  right
  refine ⟨thread, id, i, j, rfl, hslot, hfree, ⟨h₄.beside.current, h₄.syscall, h₄.pending, h₄.log, ?_⟩,
    htoken, ?_⟩
  · exact IsTrans.trans _ _ _ h₄.lasting (.of_eq rfl)
  · rw [← h₄.tasks]
    rfl

/-! ## Tasks -/

/-- The record of a task without a main thread. -/
def newTaskSlot (task taskId addressSpace addressSpaceId : UInt64) : UserTaskSlot :=
  ⟨true, task, taskId, addressSpace, addressSpaceId, 0, bootCore, .new, 0⟩

/-- The ways in which `scdk_user_task_create` can end. -/
inductive TaskCreated (k k' : Kernel (Host δ)) : Except Err NewTask → Prop where
  /-- Nothing has got a record. -/
  | failed {e} (h : Making k k') : TaskCreated k k' (.error e)
  /-- There is no main thread, and the record of the task is free again. -/
  | undone {i s e} (hfree : (k.tasks.tasks i).inUse = false) (huse : s.inUse = false)
      (hbeside : Beside k k') (h : k'.tasks = k.tasks.setTask i fun _ => s) :
      TaskCreated k k' (.error e)
  /-- The task has a record in slot `i`, and then its main thread has one. -/
  | made {i i' j taskId aspaceId id k₁ new} (hfree : (k.tasks.tasks i).inUse = false)
      (hbeside : Beside k k₁) (htoken : NewToken k k₁ ObjType.task new.task taskId)
      (hzero : new.task ≠ 0)
      (hrecord : k₁.tasks = k.tasks.setTask i fun _ =>
        newTaskSlot new.task taskId new.addressSpace aspaceId)
      (hthread : ThreadCreated new.task new.mainThread id i' j k₁ k') : TaskCreated k k' (.ok new)

/-- A record in slot `i` is made free again. -/
theorem setTask_undone (t : UserTasks) (i : Fin maxTasks) (s : UserTaskSlot) :
    ((t.setTask i fun _ => s).setTask i fun slot => { slot with inUse := false }) =
      t.setTask i fun _ => { s with inUse := false } := by
  simp [UserTasks.setTask]

/-- **Creation of a task.** -/
theorem userTaskCreate_run (storage : Option Nat) (pages : PageSupply) (k : Kernel (Host δ)) :
    TaskCreated k (userTaskCreate storage pages k).2 (userTaskCreate storage pages k).1 := by
  let Q : Except Err NewTask → Kernel (Host δ) → Prop := fun r k' => TaskCreated k k' r
  have hfailed : ∀ e k', Making k k' → Q (.error e) k' := fun e k' h => .failed h
  show Q (userTaskCreate storage pages k).1 _
  apply Effect.Within.bind_ends (R := Making) (Q := Q) (Effect.within_ask _) hfailed
  intro i k₁ hask h₁
  have hfree := allocTaskSlot_eq_ok (Effect.ask_eq_ok hask).1
  apply Effect.Within.bind_ends (R := Making) (Q := Q) (making_addressSpaceCreate storage pages)
  · intro e k' h'
    exact hfailed e k' (IsTrans.trans _ _ _ h₁ h')
  intro aspace k₂ _ h₂
  replace h₂ := IsTrans.trans _ _ _ h₁ h₂
  apply Effect.Within.bind_ends (R := Making) (Q := Q) (making_objectIdFromCap aspace _)
  · intro e k' h'
    exact hfailed e k' (IsTrans.trans _ _ _ h₂ h')
  intro aspaceId k₃ _ h₃
  replace h₃ := IsTrans.trans _ _ _ h₂ h₃
  apply Effect.Within.bind_ends (R := Making) (Q := Q) (making_taskCreate bootCore aspaceId)
  · intro e k' h'
    exact hfailed e k' (IsTrans.trans _ _ _ h₃ h')
  intro task k₄ htask h₄
  have hmint := K.taskCreate_minted htask
  replace h₄ := IsTrans.trans _ _ _ h₃ h₄
  apply Effect.Within.bind_ends (R := Making) (Q := Q) (making_objectIdFromCap task _)
  · intro e k' h'
    exact hfailed e k' (IsTrans.trans _ _ _ h₄ h')
  intro taskId k₅ hid h₅
  have htoken := (newToken_objectIdFromCap hmint hid).after h₃.lasting
  have hzero := objectIdFromCap_ne_zero hid
  replace h₅ := IsTrans.trans _ _ _ h₄ h₅
  -- The task has a record, and its main thread is made.
  set s := newTaskSlot task taskId aspace aspaceId with hs
  set k₆ : Kernel (Host δ) := { k₅ with tasks := k₅.tasks.setTask i fun _ => s } with hk₆
  rw [Effect.bind_of_ok (show K.setTasks _ k₅ = (.ok (), k₆) from rfl), Effect.attempt_bind]
  have hrecord : k₆.tasks = k.tasks.setTask i fun _ => s := by rw [hk₆, ← h₅.tasks]
  have hbeside : Beside k k₆ := IsTrans.trans _ _ _ h₅.beside (beside_setTasks rfl)
  have htoken₆ : NewToken k k₆ ObjType.task task taskId :=
    htoken.before h₅.lasting (.of_eq rfl) (by decide)
  rcases userThreadCreate_run task k₆ with ⟨e, hr, hmade⟩ | ⟨thread, id, i', j, hr, hmade⟩
  · rw [hr]
    have htasks := (congrArg (fun t : UserTasks => t.setTask i fun slot =>
      { slot with inUse := false }) (hmade.tasks.trans hrecord)).trans (setTask_undone k.tasks i s)
    refine .undone hfree (s := { s with inUse := false }) rfl ?_ htasks
    exact IsTrans.trans _ _ _ hbeside (IsTrans.trans _ _ _ hmade.beside (beside_setTasks rfl))
  · rw [hr]
    exact .made hfree hbeside htoken₆ hzero hrecord hmade

theorem TaskCreated.beside {k k' : Kernel (Host δ)} {r : Except Err NewTask}
    (h : TaskCreated k k' r) : Beside k k' := by
  cases h with
  | failed h => exact h.beside
  | undone _ _ hbeside _ => exact hbeside
  | made _ hbeside _ _ _ hthread => exact IsTrans.trans _ _ _ hbeside hthread.beside

end Scdk
