import Scdk.Core.Task
import Mathlib.Data.List.Nodup
import Mathlib.Logic.Function.Basic

/-! # Cooperative threads

    What the scheduler is for: one of many threads runs until it gives the
    processor up, and the threads that can run wait for it in a queue.  A thread
    that drives the others (`scdk_scheduler_run`) waits outside the queue, and goes
    on when the queue is empty.

    Contents:
    * `Coop`: the threads, over any type of names,
    * `Coop.yield`, `Coop.exit`, `Coop.start`, `Coop.run`, `Coop.finish`,
    * `Coop.Ok`: each thread that is not finished is where it can be found again,
      with one lemma for each operation. -/

namespace Scdk

/-- What happens to threads. -/
inductive SchedEvent (ι : Type) where
  | started (i : ι)
  | queued (i : ι)
  | dispatched (i : ι)
  | exited (i : ι)
  deriving DecidableEq, Repr

/-- The threads that were queued, in order. -/
def queuedOf {ι : Type} (events : List (SchedEvent ι)) : List ι :=
  events.filterMap fun
    | .queued i => some i
    | _ => none

/-- The threads that were taken from the queue, in order. -/
def dispatchedOf {ι : Type} (events : List (SchedEvent ι)) : List ι :=
  events.filterMap fun
    | .dispatched i => some i
    | _ => none

/-- Where a thread goes on when it gets the processor: in its own code, in the loop
    of `scdk_scheduler_run`, or behind the last yield of `thread_trampoline`. -/
inductive ThreadPc where
  | body
  | loop
  | exited
  deriving DecidableEq, Repr

/-- Threads with names in `ι`. -/
structure Coop (ι : Type) where
  status : ι → ThreadState
  queue : List ι
  current : ι
  driver : Option ι
  pc : ι → ThreadPc
  events : List (SchedEvent ι)

namespace Coop

variable {ι : Type} [DecidableEq ι]

/-! ## Operations -/

/-- A thread that can be started. -/
def create (a : Coop ι) (i : ι) : Coop ι :=
  { a with status := Function.update a.status i .new }

def start (a : Coop ι) (i : ι) : Coop ι :=
  { a with
    status := Function.update a.status i .ready
    queue := a.queue ++ [i]
    events := a.events ++ [.queued i, .started i] }

/-- The thread that gets the processor next. -/
def successor (a : Coop ι) : Option ι :=
  match a.queue with
  | next :: _ => some next
  | [] => a.driver.filter fun d => a.current ≠ d ∧ a.status d = .blocked

/-- Take the first thread out of the queue. -/
def take (a : Coop ι) : Coop ι :=
  match a.queue with
  | next :: rest => { a with queue := rest, events := a.events ++ [.dispatched next] }
  | [] => a

/-- Where the current thread waits when it gives the processor up. -/
def leave (a : Coop ι) : Coop ι :=
  if a.status a.current = .running then
    if a.driver = some a.current then
      { a with status := Function.update a.status a.current .blocked }
    else
      { a with
        status := Function.update a.status a.current .ready
        queue := a.queue ++ [a.current]
        events := a.events ++ [.queued a.current] }
  else a

def enter (a : Coop ι) (next : ι) : Coop ι :=
  { a with status := Function.update a.status next .running, current := next }

def yield (a : Coop ι) : Coop ι :=
  match a.successor with
  | none => a
  | some next => a.take.leave.enter next

/-- The current thread is at its end. -/
def die (a : Coop ι) : Coop ι :=
  { a with
    status := Function.update a.status a.current .dead
    pc := Function.update a.pc a.current .exited
    events := a.events ++ [.exited a.current] }

def exit (a : Coop ι) : Coop ι := a.die.yield

/-- The current thread begins to drive the others. -/
def run (a : Coop ι) : Coop ι :=
  { a with driver := some a.current, pc := Function.update a.pc a.current .loop }

/-- The driver finds the queue empty. -/
def finish (a : Coop ι) : Coop ι :=
  { a with driver := none, pc := Function.update a.pc a.current .body }

/-! ## Where the threads are -/

/-- The thread `i` has the processor, or waits in the queue, or is the driver and
    waits for the queue to be empty. -/
def Kept (a : Coop ι) (i : ι) : Prop :=
  i = a.current ∨ i ∈ a.queue ∨ a.driver = some i ∧ a.status i = .blocked

/-- The threads are where their states say, the first thread `boot` is not at its
    end, and the queue is what was put in it and not taken out. -/
structure Ok (boot : ι) (a : Coop ι) : Prop where
  nodup : a.queue.Nodup
  ready : ∀ i, a.status i = .ready ↔ i ∈ a.queue
  running : ∀ i, a.status i = .running ↔ i = a.current
  blocked : ∀ i, a.status i = .blocked ↔ a.driver = some i ∧ i ≠ a.current
  alive : a.status boot = .ready ∨ a.status boot = .running ∨ a.status boot = .blocked
  loop : ∀ i, a.pc i = .loop ↔ a.driver = some i
  exited : ∀ i, a.pc i = .exited ↔ a.status i = .dead
  order : queuedOf a.events = dispatchedOf a.events ++ a.queue
  begun : ∀ i, .started i ∈ a.events → a.status i ≠ .none ∧ a.status i ≠ .new
  unstarted : .started boot ∉ a.events
  finished : ∀ i, .exited i ∈ a.events ↔ a.status i = .dead

variable {boot i next : ι} {a : Coop ι}

omit [DecidableEq ι] in
/-- The current thread is not in the queue. -/
theorem Ok.current_not_mem (h : Ok boot a) : a.current ∉ a.queue := by
  rw [← h.ready, (h.running _).mpr rfl]
  decide

omit [DecidableEq ι] in
/-- A thread that can run, runs or waits for the queue is kept. -/
theorem Ok.kept (h : Ok boot a)
    (hi : a.status i = .ready ∨ a.status i = .running ∨ a.status i = .blocked) : a.Kept i := by
  rcases hi with hi | hi | hi
  · exact .inr (.inl ((h.ready i).mp hi))
  · exact .inl ((h.running i).mp hi)
  · exact .inr (.inr ⟨((h.blocked i).mp hi).1, hi⟩)

omit [DecidableEq ι] in
/-- The threads that have begun and are not at their end. -/
theorem Ok.unfinished (h : Ok boot a) (hbegun : .started i ∈ a.events ∨ i = boot)
    (hnot : .exited i ∉ a.events) :
    a.status i = .ready ∨ a.status i = .running ∨ a.status i = .blocked := by
  rcases hbegun with hstarted | rfl
  · have hbegun := h.begun i hstarted
    have hdead := (h.finished i).not.mp hnot
    cases hs : a.status i <;> simp_all
  · exact h.alive

/-- One thread runs, and no other has begun. -/
theorem ok_first {status : ι → ThreadState} (h : ∀ i, status i = .none ∨ status i = .new) :
    Ok boot ⟨Function.update status boot .running, [], boot, none, fun _ => .body, []⟩ := by
  constructor
  case order => rfl
  all_goals
    simp only [Function.update_apply]
    grind

/-! ## One operation -/

theorem Ok.create (h : Ok boot a) (hi : a.status i = .none ∨ a.status i = .new) :
    Ok boot (a.create i) := by
  have hnot : .started i ∉ a.events := fun hstarted => by
    have := h.begun i hstarted
    grind
  obtain ⟨hnodup, hready, hrunning, hblocked, halive, hloop, hexited, horder, hbegun,
    hunstarted, hfinished⟩ := h
  constructor <;> simp only [Coop.create, Function.update_apply] <;> grind

theorem Ok.start (h : Ok boot a) (hi : a.status i = .new) : Ok boot (a.start i) := by
  obtain ⟨hnodup, hready, hrunning, hblocked, halive, hloop, hexited, horder, hbegun,
    hunstarted, hfinished⟩ := h
  constructor
  case order =>
    simp only [Coop.start, queuedOf, dispatchedOf, List.filterMap_append] at horder ⊢
    rw [horder]
    simp
  all_goals
    simp only [Coop.start, Function.update_apply]
    grind

theorem Ok.run (h : Ok boot a) (hdriver : a.driver = none) : Ok boot a.run := by
  obtain ⟨hnodup, hready, hrunning, hblocked, halive, hloop, hexited, horder, hbegun,
    hunstarted, hfinished⟩ := h
  constructor <;> simp only [Coop.run, Function.update_apply] <;> grind

theorem Ok.finish (h : Ok boot a) (hdriver : a.driver = some a.current) : Ok boot a.finish := by
  obtain ⟨hnodup, hready, hrunning, hblocked, halive, hloop, hexited, horder, hbegun,
    hunstarted, hfinished⟩ := h
  constructor <;> simp only [Coop.finish, Function.update_apply] <;> grind

/-! ### Changing threads -/

/-- The current thread has left, and `next`, which is out of the queue, is about to
    get the processor. -/
structure Leaving (boot next : ι) (a : Coop ι) : Prop where
  nodup : a.queue.Nodup
  chosen : next ∉ a.queue
  begun_next : a.status next = .ready ∨ a.status next = .blocked
  ready : ∀ i, i ≠ next → (a.status i = .ready ↔ i ∈ a.queue)
  running : ∀ i, a.status i ≠ .running
  blocked : ∀ i, i ≠ next → (a.status i = .blocked ↔ a.driver = some i)
  alive : a.status boot = .ready ∨ a.status boot = .running ∨ a.status boot = .blocked
  loop : ∀ i, a.pc i = .loop ↔ a.driver = some i
  exited : ∀ i, a.pc i = .exited ↔ a.status i = .dead
  order : queuedOf a.events = dispatchedOf a.events ++ a.queue
  begun : ∀ i, .started i ∈ a.events → a.status i ≠ .none ∧ a.status i ≠ .new
  unstarted : .started boot ∉ a.events
  finished : ∀ i, .exited i ∈ a.events ↔ a.status i = .dead

theorem Leaving.enter (h : Leaving boot next a) : Ok boot (a.enter next) := by
  obtain ⟨hnodup, hchosen, hnext, hready, hrunning, hblocked, halive, hloop, hexited, horder,
    hbegun, hunstarted, hfinished⟩ := h
  constructor <;> simp only [Coop.enter, Function.update_apply] <;> grind

omit [DecidableEq ι] in
theorem take_cons {rest : List ι} (hq : a.queue = next :: rest) :
    a.take = { a with queue := rest, events := a.events ++ [.dispatched next] } := by
  simp [take, hq]

omit [DecidableEq ι] in
theorem take_nil (hq : a.queue = []) : a.take = a := by
  simp [take, hq]

omit [DecidableEq ι] in
theorem order_cons {events : List (SchedEvent ι)} {rest : List ι}
    (h : queuedOf events = dispatchedOf events ++ next :: rest) :
    queuedOf (events ++ [.dispatched next]) = dispatchedOf (events ++ [.dispatched next]) ++ rest := by
  simp only [queuedOf, dispatchedOf, List.filterMap_append] at h ⊢
  rw [h]
  simp

omit [DecidableEq ι] in
theorem order_snoc {events : List (SchedEvent ι)} {queue : List ι}
    (h : queuedOf events = dispatchedOf events ++ queue) :
    queuedOf (events ++ [.queued i]) = dispatchedOf (events ++ [.queued i]) ++ (queue ++ [i]) := by
  simp only [queuedOf, dispatchedOf, List.filterMap_append] at h ⊢
  rw [h]
  simp

/-- The next thread comes from the queue: the current one goes to the end of the
    queue, or waits outside it if it is the driver. -/
theorem Ok.leave_cons (h : Ok boot a) {rest : List ι} (hq : a.queue = next :: rest) :
    Leaving boot next a.take.leave := by
  obtain ⟨hnodup, hready, hrunning, hblocked, halive, hloop, hexited, horder, hbegun,
    hunstarted, hfinished⟩ := h
  have hcur : a.status a.current = .running := (hrunning _).mpr rfl
  rw [hq] at horder
  have horder' := order_cons horder
  rw [take_cons hq]
  unfold leave
  rw [if_pos hcur]
  split
  · constructor <;> simp only [Function.update_apply] <;> grind
  · constructor
    case order => exact order_snoc horder'
    all_goals
      simp only [Function.update_apply]
      grind

/-- The queue is empty and the driver goes on. -/
theorem Ok.leave_driver (h : Ok boot a) (hq : a.queue = []) (hdriver : a.driver = some next)
    (hne : a.current ≠ next) : Leaving boot next a.take.leave := by
  obtain ⟨hnodup, hready, hrunning, hblocked, halive, hloop, hexited, horder, hbegun,
    hunstarted, hfinished⟩ := h
  have hcur : a.status a.current = .running := (hrunning _).mpr rfl
  have hother : a.driver ≠ some a.current := by
    rw [hdriver]
    exact fun heq => hne (Option.some.inj heq).symm
  rw [take_nil hq]
  unfold leave
  rw [if_pos hcur, if_neg hother]
  constructor
  case order => exact order_snoc horder
  all_goals
    simp only [Function.update_apply]
    grind

theorem successor_eq_some (h : a.successor = some next) :
    (∃ rest, a.queue = next :: rest) ∨
      a.queue = [] ∧ a.driver = some next ∧ a.current ≠ next ∧ a.status next = .blocked := by
  unfold successor at h
  cases hq : a.queue with
  | nil =>
    rw [hq] at h
    obtain ⟨hdriver, hblocked⟩ := Option.filter_eq_some_iff.mp h
    rw [decide_eq_true_eq] at hblocked
    exact .inr ⟨rfl, hdriver, hblocked⟩
  | cons i rest =>
    rw [hq] at h
    obtain rfl := Option.some.inj h
    exact .inl ⟨rest, rfl⟩

theorem Ok.yield (h : Ok boot a) : Ok boot a.yield := by
  unfold Coop.yield
  cases hnext : a.successor with
  | none => exact h
  | some next =>
    rcases successor_eq_some hnext with ⟨rest, hq⟩ | ⟨hq, hdriver, hne, _⟩
    · exact (h.leave_cons hq).enter
    · exact (h.leave_driver hq hdriver hne).enter

omit [DecidableEq ι] in
@[simp] theorem take_driver (a : Coop ι) : a.take.driver = a.driver := by
  unfold take
  split <;> rfl

@[simp] theorem leave_driver (a : Coop ι) : a.leave.driver = a.driver := by
  unfold leave
  split
  · split <;> rfl
  · rfl

theorem yield_driver (a : Coop ι) : a.yield.driver = a.driver := by
  unfold Coop.yield
  split
  · rfl
  · simp [enter]

/-! ### The end of a thread -/

/-- A thread at its end leaves the processor to the next one. -/
theorem Ok.leave_die (h : Ok boot a) (hboot : a.current ≠ boot) (hdriver : a.driver ≠ some a.current)
    (hnext : a.die.successor = some next) : Leaving boot next a.die.take.leave ∧ next ≠ a.current := by
  obtain ⟨hnodup, hready, hrunning, hblocked, halive, hloop, hexited, horder, hbegun,
    hunstarted, hfinished⟩ := h
  have hcur : a.status a.current = .running := (hrunning _).mpr rfl
  have hdead : a.die.status a.die.current = .dead := Function.update_self _ _ _
  have horder' : queuedOf a.die.events = dispatchedOf a.die.events ++ a.die.queue := by
    simp only [die, queuedOf, dispatchedOf, List.filterMap_append] at horder ⊢
    rw [horder]
    simp
  rcases successor_eq_some hnext with ⟨rest, hq⟩ | ⟨hq, hdriver', hne, hstatus⟩
  · rw [hq] at horder'
    have horder := order_cons horder'
    have hqueue : a.queue = next :: rest := hq
    have hleave : a.die.take.leave =
        { a.die with queue := rest, events := a.die.events ++ [.dispatched next] } := by
      rw [take_cons hq]
      unfold leave
      rw [if_neg]
      simp [hdead]
    rw [hleave]
    refine ⟨?_, by grind⟩
    constructor
    case order => exact horder
    all_goals
      simp only [die, Function.update_apply]
      grind
  · have hleave : a.die.take.leave = a.die := by
      rw [take_nil hq]
      unfold leave
      rw [if_neg]
      simp [hdead]
    have hqueue : a.queue = [] := hq
    rw [hleave]
    refine ⟨?_, fun heq => hne heq.symm⟩
    constructor
    case order => exact horder'
    all_goals
      simp only [die, Function.update_apply] at hstatus ⊢
      grind

/-- There always is a next one. -/
theorem Ok.successor_die (h : Ok boot a) (hboot : a.current ≠ boot) :
    ∃ next, a.die.successor = some next := by
  unfold successor
  cases hq : a.die.queue with
  | cons next rest => exact ⟨next, rfl⟩
  | nil =>
    -- The first thread is not in the queue, so it waits for the queue to be empty.
    have hqueue : a.queue = [] := hq
    have hnotready : a.status boot ≠ .ready := by
      rw [ne_eq, h.ready, hqueue]
      exact List.not_mem_nil
    have hnotrunning : a.status boot ≠ .running := by
      rw [ne_eq, h.running]
      exact fun heq => hboot heq.symm
    have hblocked : a.status boot = .blocked := by
      rcases h.alive with hs | hs | hs
      · exact absurd hs hnotready
      · exact absurd hs hnotrunning
      · exact hs
    refine ⟨boot, Option.filter_eq_some_iff.mpr ⟨((h.blocked boot).mp hblocked).1, ?_⟩⟩
    simp only [die, Function.update_of_ne (Ne.symm hboot), decide_eq_true_eq]
    exact ⟨hboot, hblocked⟩

theorem Ok.exit (h : Ok boot a) (hboot : a.current ≠ boot) (hdriver : a.driver ≠ some a.current) :
    Ok boot a.exit ∧ a.exit.current ≠ a.current := by
  obtain ⟨next, hnext⟩ := h.successor_die hboot
  obtain ⟨hleaving, hne⟩ := h.leave_die hboot hdriver hnext
  unfold Coop.exit Coop.yield
  rw [hnext]
  exact ⟨hleaving.enter, hne⟩

/-! ## Steps -/

/-- What one step of a thread does. -/
inductive Step (boot : ι) (a : Coop ι) : Coop ι → Prop where
  | same : Step boot a a
  | create {i : ι} : a.status i = .none ∨ a.status i = .new → Step boot a (a.create i)
  | start {i : ι} : a.status i = .new → Step boot a (a.start i)
  | yield : Step boot a a.yield
  | exit : a.current ≠ boot → a.driver ≠ some a.current → Step boot a a.exit
  | run : a.driver = none → Step boot a a.run
  | finish : a.driver = some a.current → a.queue = [] → Step boot a a.finish

theorem Ok.step (h : Ok boot a) {a' : Coop ι} (hstep : Step boot a a') : Ok boot a' := by
  cases hstep with
  | same => exact h
  | create hi => exact h.create hi
  | start hi => exact h.start hi
  | yield => exact h.yield
  | exit hboot hdriver => exact (h.exit hboot hdriver).1
  | run hdriver => exact h.run hdriver
  | finish hdriver _ => exact h.finish hdriver

omit [DecidableEq ι] in
/-- When a driver finds the queue empty, all others that were started are at their
    end. -/
theorem Ok.finished_others (h : Ok boot a) (hdriver : a.driver = some a.current)
    (hq : a.queue = []) (hcur : a.current = boot) (hi : .started i ∈ a.events) :
    a.status i = .dead := by
  have hbegun := h.begun i hi
  have hne : i ≠ a.current := by
    rintro rfl
    rw [hcur] at hi
    exact h.unstarted hi
  have hready : a.status i ≠ .ready := by
    rw [ne_eq, h.ready, hq]
    exact List.not_mem_nil
  have hrunning : a.status i ≠ .running := by
    rw [ne_eq, h.running]
    exact hne
  have hblocked : a.status i ≠ .blocked := by
    rw [ne_eq, h.blocked, hdriver]
    exact fun hb => hne (Option.some.inj hb.1).symm
  cases hs : a.status i <;> simp_all

end Coop

end Scdk
