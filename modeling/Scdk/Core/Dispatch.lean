import Scdk.Core.Coop
import Scdk.Core.Scheduler
import Scdk.Lib.Fifo
import Scdk.Lib.Run

/-! # Starting and switching threads

    Model of the run queue of `core/scheduler.c` and of the functions that move
    threads through it: `scdk_thread_start`, `scdk_yield`, `thread_trampoline` and
    `scdk_scheduler_run`.

    The queue holds capability tokens, which are looked up again when they are
    taken out.  A context switch suspends a thread in the middle of a function, so
    the state has the point where each thread goes on (`ThreadPc`); the registers
    themselves are left out.  The loop of `scdk_scheduler_run` is a step of its own
    for each time it comes back to its condition. -/

namespace Scdk

/-- The static variables of `scheduler.c`, the tables of objects and capabilities,
    the suspended threads, and what happened so far. -/
structure Sched where
  objects : ObjectTable
  caps : CapTable
  tasks : TaskTable
  threads : ThreadTable
  runQueues : UInt32 → Fifo maxThreads UInt64
  currentThreadSlot : Option (Fin maxThreads)
  schedulerDriverSlot : Option (Fin maxThreads)
  currentTask : UInt64
  currentThread : UInt64
  initialized : Bool
  pcs : Fin maxThreads → ThreadPc
  events : List (SchedEvent (Fin maxThreads))

namespace Sched

def setState (s : Sched) (i : Fin maxThreads) (state : ThreadState) : Sched :=
  { s with threads := Function.update s.threads i { s.threads i with state := state } }

def setQueued (s : Sched) (i : Fin maxThreads) (queued : Bool) : Sched :=
  { s with threads := Function.update s.threads i { s.threads i with queued := queued } }

def setQueue (s : Sched) (ownerCore : UInt32) (q : Fifo maxThreads UInt64) : Sched :=
  { s with runQueues := Function.update s.runQueues ownerCore q }

def setPc (s : Sched) (i : Fin maxThreads) (pc : ThreadPc) : Sched :=
  { s with pcs := Function.update s.pcs i pc }

def emit (s : Sched) (ev : SchedEvent (Fin maxThreads)) : Sched :=
  { s with events := s.events ++ [ev] }

/-- `thread_slot_for_cap` -/
def slotForCap (s : Sched) (thread : UInt64) : Except Err (Fin maxThreads) :=
  threadSlotForCap s.objects s.caps s.threads thread

/-! ## The run queue -/

/-- `enqueue_thread` -/
def enqueueThread (s : Sched) (i : Fin maxThreads) : Except Err Unit × Sched :=
  let slot := s.threads i
  if maxCores ≤ slot.ownerCore then (.error .inval, s)
  else if slot.queued = true ∨ slot.state ≠ .ready then (.error .busy, s)
  else
    let queue := s.runQueues slot.ownerCore
    if maxThreads ≤ queue.count then (.error .busy, s)
    else (.ok (), (s.setQueue slot.ownerCore (queue.push slot.cap)).setQueued i true |>.emit (.queued i))

/-- The loop of `dequeue_thread`, where the queue has `count` entries. -/
def dequeueLoop (ownerCore : UInt32) : (count : Nat) → Sched → Option (Fin maxThreads) × Sched
  | 0, s => (none, s)
  | count + 1, s =>
    let queue := s.runQueues ownerCore
    let cap := queue.front
    let s := s.setQueue ownerCore queue.pop
    match s.slotForCap cap with
    | .error _ => dequeueLoop ownerCore count s
    | .ok i =>
      let s := s.setQueued i false
      if (s.threads i).state = .ready then (some i, s.emit (.dispatched i))
      else dequeueLoop ownerCore count s

/-- `dequeue_thread` -/
def dequeueThread (s : Sched) (ownerCore : UInt32) : Option (Fin maxThreads) × Sched :=
  dequeueLoop ownerCore (s.runQueues ownerCore).count s

/-! ## Changing threads -/

/-- `switch_to_thread` -/
def switchToThread (s : Sched) (next : Fin maxThreads) : Sched :=
  match s.currentThreadSlot with
  | none => s
  | some old =>
    if next = old then s
    else
      let s := s.setState next .running
      { s with
        currentThreadSlot := some next
        currentThread := (s.threads next).cap
        currentTask := (s.threads next).taskCap }

/-- How `scdk_yield` ends: there is no other thread, the current thread cannot be
    queued, or another thread has the processor. -/
inductive YieldEnd where
  | idle
  | refused
  | switched
  deriving DecidableEq, Repr

/-- The end of `scdk_yield`, with the thread that comes next. -/
def handOver (s : Sched) (old next : Fin maxThreads) : YieldEnd × Sched :=
  if (s.threads old).state = .running then
    if s.schedulerDriverSlot = some old then
      (.switched, (s.setState old .blocked).switchToThread next)
    else
      match (s.setState old .ready).enqueueThread old with
      | (.error _, s) => (.refused, s.setState old .running)
      | (.ok _, s) => (.switched, s.switchToThread next)
  else (.switched, s.switchToThread next)

/-- The driver of the scheduler, if it waits for the queue to be empty. -/
def blockedDriver (s : Sched) (old : Fin maxThreads) : Option (Fin maxThreads) :=
  s.schedulerDriverSlot.filter fun d => old ≠ d ∧ (s.threads d).state = .blocked

/-- `scdk_yield` -/
def yield (s : Sched) : YieldEnd × Sched :=
  match s.currentThreadSlot with
  | none => (.idle, s)
  | some old =>
    if s.initialized = false then (.idle, s)
    else
      match s.dequeueThread (s.threads old).ownerCore with
      | (some next, s) => s.handOver old next
      | (none, s) =>
        match s.blockedDriver old with
        | some next => s.handOver old next
        | none => (.idle, s)

/-! ## The calls of a thread -/

/-- `scdk_task_create` -/
def createTask (s : Sched) (ownerCore : UInt32) (addressSpace : UInt64) : Except Err UInt64 × Sched :=
  let (r, objects, caps, tasks) := taskCreate s.objects s.caps s.tasks ownerCore addressSpace
  (r, { s with objects, caps, tasks })

/-- `scdk_thread_create` -/
def createThread (s : Sched) (task entry arg : UInt64) (stack : Option UInt64) :
    Except Err UInt64 × Sched :=
  let (r, objects, caps, tasks, threads) :=
    threadCreate s.objects s.caps s.tasks s.threads task entry arg stack
  (r, { s with objects, caps, tasks, threads })

/-- `scdk_thread_start` -/
def startThread (s : Sched) (thread : UInt64) : Except Err Unit × Sched :=
  match capCheck s.objects s.caps thread Right.exec ObjType.thread with
  | .error e => (.error e, s)
  | .ok _ =>
    match s.slotForCap thread with
    | .error e => (.error e, s)
    | .ok i =>
      if (s.threads i).entry = 0 ∨ (s.threads i).kernelStack = 0 then (.error .inval, s)
      else if (s.threads i).state ≠ .new then (.error .busy, s)
      else
        match (s.setState i .ready).enqueueThread i with
        | (.ok _, s) => (.ok (), s.emit (.started i))
        | (.error e, s) => (.error e, s.setState i .new)

/-- The end of `thread_trampoline`, after the entry function has returned. -/
def exitThread (s : Sched) : YieldEnd × Sched :=
  match s.currentThreadSlot with
  | none => (.idle, s)
  | some i => (((s.setState i .dead).setPc i .exited).emit (.exited i)).yield

/-- The beginning of `scdk_scheduler_run`, up to its loop. -/
def runBegin (s : Sched) : Sched :=
  match s.currentThreadSlot with
  | none => s
  | some i =>
    if s.initialized = false then s
    else { s with schedulerDriverSlot := some i }.setPc i .loop

/-- How the loop of `scdk_scheduler_run` goes on. -/
inductive LoopEnd where
  | fault
  | yielded (e : YieldEnd)
  | returned
  deriving DecidableEq, Repr

/-- The loop of `scdk_scheduler_run` at its condition, and what follows the loop.
    With no driver the condition reads through a null pointer. -/
def runLoop (s : Sched) : LoopEnd × Sched :=
  match s.currentThreadSlot, s.schedulerDriverSlot with
  | some i, some d =>
    if (s.runQueues (s.threads d).ownerCore).count = 0 then
      let s := if (s.threads d).state = .blocked then s.setState d .running else s
      (.returned, { s with schedulerDriverSlot := none }.setPc i .body)
    else
      let (e, s) := s.yield
      (.yielded e, s)
  | _, _ => (.fault, s)

/-- `scdk_cap_revoke` -/
def revoke (s : Sched) (cap : UInt64) : Except Err Unit × Sched :=
  let (r, caps) := capRevoke s.objects s.caps cap
  (r, { s with caps })

/-- `scdk_scheduler_init` -/
def schedulerInit (s : Sched) : Except Err Unit × Sched :=
  if s.initialized = true then (.error .busy, s)
  else
    match s.createTask bootCore 0 with
    | (.error e, s) => (.error e, s)
    | (.ok bootTask, s) =>
      match s.createThread bootTask 0 0 none with
      | (.error e, s) => (.error e, s)
      | (.ok bootThread, s) =>
        match s.slotForCap bootThread with
        | .error e => (.error e, s)
        | .ok i =>
          (.ok (), { s.setState i .running with
            currentTask := bootTask
            currentThread := bootThread
            currentThreadSlot := some i
            initialized := true })

end Sched

/-! ## Steps -/

/-- What the current thread does next. -/
inductive SchedCall where
  | createTask (ownerCore : UInt32) (addressSpace : UInt64)
  | createThread (task entry arg : UInt64) (stack : Option UInt64)
  | startThread (thread : UInt64)
  | yield
  | exit
  | run
  | loop
  | revoke (cap : UInt64)
  deriving DecidableEq, Repr

/-- What it sees of it. -/
inductive SchedAnswer where
  | status (r : Except Err UInt64)
  | yielded (e : Sched.YieldEnd)
  | begun
  | loop (e : Sched.LoopEnd)

def schedStep (s : Sched) : SchedCall → SchedAnswer × Sched
  | .createTask ownerCore addressSpace =>
    let (r, s) := s.createTask ownerCore addressSpace
    (.status r, s)
  | .createThread task entry arg stack =>
    let (r, s) := s.createThread task entry arg stack
    (.status r, s)
  | .startThread thread =>
    let (r, s) := s.startThread thread
    (.status (r.map fun _ => 0), s)
  | .yield =>
    let (e, s) := s.yield
    (.yielded e, s)
  | .exit =>
    let (e, s) := s.exitThread
    (.yielded e, s)
  | .run => (.begun, s.runBegin)
  | .loop =>
    let (e, s) := s.runLoop
    (.loop e, s)
  | .revoke cap =>
    let (r, s) := s.revoke cap
    (.status (r.map fun _ => 0), s)

/-- The calls that the current thread can come to: the loop of `scdk_scheduler_run`
    if it is in it, and any other call if it is in its own code.  All threads but
    the boot thread `boot` run inside `thread_trampoline` and come to its end. -/
def CanCall (boot : Fin maxThreads) (s : Sched) (call : SchedCall) : Prop :=
  ∃ i, s.currentThreadSlot = some i ∧
    match call with
    | .loop => s.pcs i = .loop
    | .exit => s.pcs i = .body ∧ i ≠ boot
    | _ => s.pcs i = .body

/-- A thread slot of the zeroed table. -/
def ThreadSlot.zero : ThreadSlot := ⟨0, 0, 0, 0, 0, 0, 0, 0, 0, .none, false⟩

/-- The state before `scdk_scheduler_init`: the statics of `scheduler.c` are zero,
    and there is no thread. -/
structure SchedStart (s : Sched) : Prop where
  wf : TablesWf s.objects s.caps
  objects : ∀ id ob, objectLookup s.objects id = .ok ob → ob.type ≠ ObjType.thread
  threads : ∀ i, s.threads i = ThreadSlot.zero
  runQueues : ∀ core, (s.runQueues core).head = 0 ∧ (s.runQueues core).tail = 0 ∧
    (s.runQueues core).count = 0
  currentThreadSlot : s.currentThreadSlot = none
  schedulerDriverSlot : s.schedulerDriverSlot = none
  initialized : s.initialized = false
  pcs : ∀ i, s.pcs i = .body
  events : s.events = []

/-- The runs after `scdk_scheduler_init` has made the boot thread `boot`. -/
def schedSystem (boot : Fin maxThreads) : System Sched SchedCall SchedAnswer where
  init := fun s => ∃ s₀, SchedStart s₀ ∧ s₀.schedulerInit = (.ok (), s) ∧
    s.currentThreadSlot = some boot
  step := schedStep

end Scdk
