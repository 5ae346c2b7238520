import Scdk.Core.CoopRefinement

/-! # What the scheduler keeps

    The threads of a run after `scdk_scheduler_init` stay the cooperative threads of
    `Coop`, as long as the queue has no token that was revoked and
    `scdk_scheduler_run` is not called again before it has returned.

    Contents:
    * `KeepsThreads`: the calls that lose no thread,
    * `Shows.step`: one call does to the cooperative threads what it is for,
    * `scheduler_invariant`: the runs in which only the boot thread drives the
      others and no token of a thread is revoked,
    * `no_thread_lost`: the runs in which any thread may drive the others and
      tokens are revoked. -/

namespace Scdk

open Sched

/-! ## Calls that lose no thread -/

/-- What a call must not do: drive the threads while another thread drives them,
    revoke the token of a thread that is in the queue, and queue the current thread
    after its own token was revoked. -/
def KeepsThreads (s : Sched) : SchedCall → Prop
  | .run => s.schedulerDriverSlot = none
  | .revoke cap => ∀ i, (s.threads i).state = .ready → (s.threads i).cap ≠ cap
  | .yield =>
    (s.runQueues bootCore).count = 0 ∧ s.schedulerDriverSlot = none ∨
      ∃ i, s.currentThreadSlot = some i ∧ s.slotForCap (s.threads i).cap = .ok i
  | _ => True

section step

variable {boot : Fin maxThreads} {s : Sched} {a : Coop (Fin maxThreads)}

/-- The answer of a call that could not queue the current thread. -/
def SchedAnswer.IsRefused : SchedAnswer → Prop
  | .yielded e => e = .refused
  | .loop (.yielded e) => e = .refused
  | _ => False

/-- What a call does to the cooperative threads. -/
structure StepsTo (boot : Fin maxThreads) (a : Coop (Fin maxThreads)) (call : SchedCall)
    (answer : SchedAnswer) (a' : Coop (Fin maxThreads)) : Prop where
  step : Coop.Step boot a a'
  accepted : ¬ answer.IsRefused
  driver : a'.driver = a.driver ∨ a'.driver = none ∨ call = .run ∧ a'.driver = some a.current
  returned : answer = .loop .returned → a.driver = some a.current ∧ a.queue = [] ∧ a' = a.finish

/-- The token of the current thread is in force when another thread comes next. -/
theorem Sched.Shows.live_of_keeps (h : Shows s a) (hkeeps : KeepsThreads s .yield)
    (hnext : a.successor ≠ none) : s.slotForCap (s.threads a.current).cap = .ok a.current := by
  rcases hkeeps with ⟨hcount, hdriver⟩ | ⟨i, hi, hslot⟩
  · rw [h.count_eq, List.length_eq_zero_iff] at hcount
    rw [h.driver] at hdriver
    unfold Coop.successor at hnext
    rw [hcount, hdriver] at hnext
    exact absurd rfl hnext
  · obtain rfl : a.current = i := Option.some.inj (h.current.symm.trans hi)
    exact hslot

theorem Sched.Shows.step (h : Shows s a) (hok : a.Ok boot) {call : SchedCall}
    (hcan : CanCall boot s call) (hkeeps : KeepsThreads s call) :
    ∃ a', Shows (schedStep s call).2 a' ∧ StepsTo boot a call (schedStep s call).1 a' := by
  obtain ⟨i, hi, hcan⟩ := hcan
  obtain rfl : a.current = i := Option.some.inj (h.current.symm.trans hi)
  have hcur := hok.current_not_mem
  rw [h.pc] at hcan
  have hbody : a.pc a.current = .body → a.driver ≠ some a.current := by
    intro hpc hdriver
    rw [(hok.loop _).mpr hdriver] at hpc
    cases hpc
  -- Each call is one step of the abstract scheduler, or leaves it as it is.
  cases call with
  | createTask ownerCore addressSpace =>
    exact ⟨a, h.createTask ownerCore addressSpace, .same, id, .inl rfl, nofun⟩
  | createThread task entry arg stack =>
    obtain ⟨r, s', hrun, _, hs'⟩ := h.createThread (fun i hi => (hok.ready i).mpr hi) task entry arg stack
    simp only [schedStep, hrun]
    rcases hs' with hs' | ⟨i, hi, hs'⟩
    · exact ⟨a, hs', .same, id, .inl rfl, nofun⟩
    · exact ⟨_, hs', .create hi, id, .inl rfl, nofun⟩
  | startThread thread =>
    obtain ⟨r, s', hrun, hs'⟩ := h.startThread hok thread
    simp only [schedStep, hrun]
    rcases hs' with hs' | ⟨i, hi, hs'⟩
    · exact ⟨a, hs', .same, id, .inl rfl, nofun⟩
    · exact ⟨_, hs', .start hi, id, .inl rfl, nofun⟩
  | yield =>
    obtain ⟨e, s', hrun, he, hs'⟩ := h.yield hok.nodup (fun i hi => (hok.ready i).mpr hi) hcur
      fun _ _ => h.live_of_keeps hkeeps
    simp only [schedStep, hrun]
    exact ⟨_, hs', .yield, he, .inl (Coop.yield_driver a), nofun⟩
  | exit =>
    obtain ⟨e, s', hrun, he, hs'⟩ := h.exitThread hok hcur
    simp only [schedStep, hrun]
    exact ⟨_, hs', .exit hcan.2 (hbody hcan.1), he, .inl (Coop.yield_driver a.die), nofun⟩
  | run =>
    exact ⟨_, h.runBegin, .run (h.driver.symm.trans hkeeps), id, .inr (.inr ⟨rfl, rfl⟩), nofun⟩
  | loop =>
    have hdriver := (hok.loop _).mp hcan
    obtain ⟨e, s', hrun, hend⟩ := h.runLoop hok hcur hdriver
    simp only [schedStep, hrun]
    rcases hend with ⟨hq, rfl, hs'⟩ | ⟨hq, ⟨y, rfl, hy⟩, hs'⟩
    · exact ⟨_, hs', .finish hdriver hq, id, .inr (.inl rfl), fun _ => ⟨hdriver, hq, rfl⟩⟩
    · exact ⟨_, hs', .yield, hy, .inl (Coop.yield_driver a), nofun⟩
  | revoke cap =>
    -- The guard keeps the tokens of the queue; a ready thread is in it.
    refine ⟨a, h.revoke ?_, .same, id, .inl rfl, nofun⟩
    intro i hi
    apply hkeeps i
    rw [h.status]
    exact (hok.ready i).mpr hi

/-- One call keeps the tokens in force, if it revokes no token of a thread. -/
theorem Sched.Live.step (hlive : Live s) (h : Shows s a) (hok : a.Ok boot) {call : SchedCall}
    (hrevoke : ∀ cap, call = .revoke cap → ∀ entry, capLookup s.objects s.caps cap = .ok entry →
      entry.objectType ≠ ObjType.thread) : Live (schedStep s call).2 := by
  cases call with
  | createTask ownerCore addressSpace => exact hlive.createTask h.wf ownerCore addressSpace
  | createThread task entry arg stack =>
    obtain ⟨r, s', hrun, hadded, _⟩ :=
      h.createThread (fun i hi => (hok.ready i).mpr hi) task entry arg stack
    simp only [schedStep, hrun]
    exact TokensLive.added hlive h.wf hadded
  | startThread thread => exact (sameRecords_startThread s thread).live hlive
  | yield => exact (sameRecords_yield s).live hlive
  | exit => exact (sameRecords_exitThread s).live hlive
  | run => exact (sameRecords_runBegin s).live hlive
  | loop => exact (sameRecords_runLoop s).live hlive
  | revoke cap => exact hlive.revoke h.wf (hrevoke cap rfl)

end step

/-! ## The state after `scdk_scheduler_init` -/

/-- The statics of `scheduler.c` as the kernel is loaded. -/
def Sched.zero : Sched where
  objects := .zero
  caps := .zero
  tasks := fun _ => ⟨0, 0, 0, 0, 0⟩
  threads := fun _ => .zero
  runQueues := fun _ => ⟨fun _ => 0, 0, 0, 0⟩
  currentThreadSlot := none
  schedulerDriverSlot := none
  currentTask := 0
  currentThread := 0
  initialized := false
  pcs := fun _ => .body
  events := []

/-- What `scdk_scheduler_init` leaves: the boot thread is in slot 0. -/
def Sched.booted : Sched := Sched.zero.schedulerInit.2

theorem schedStart_zero : SchedStart Sched.zero where
  wf := tablesWf_zero
  objects := by
    intro id ob hob
    obtain ⟨j, rfl, htype, _⟩ := (objectLookup_eq_ok tablesWf_zero.objects).mp hob
    exact absurd rfl htype
  threads := fun _ => rfl
  runQueues := fun _ => ⟨rfl, rfl, rfl⟩
  currentThreadSlot := rfl
  schedulerDriverSlot := rfl
  initialized := rfl
  pcs := fun _ => rfl
  events := rfl

theorem schedSystem_booted : (schedSystem 0).init Sched.booted := by
  have hok : Sched.zero.schedulerInit.1 = .ok () := by decide +kernel
  exact ⟨Sched.zero, schedStart_zero, Prod.ext hok rfl, by decide +kernel⟩

/-- The boot thread makes a thread and starts it, and gives it the processor. -/
def driveOne : List SchedCall :=
  [.createThread 0x100000000 1 0 (some 0x1000), .startThread 0x100000002, .run, .loop]

/-! ## No thread is lost -/

/-- The thread `i` was started, or is the boot thread, and is not at its end. -/
def Unfinished (boot : Fin maxThreads) (s : Sched) (i : Fin maxThreads) : Prop :=
  (.started i ∈ s.events ∨ i = boot) ∧ .exited i ∉ s.events

/-- The thread `i` is the current one, or the queue has a token with which
    `dequeue_thread` returns it, or it is the driver and waits for the queue to be
    empty. -/
def ThreadKept (s : Sched) (i : Fin maxThreads) : Prop :=
  s.currentThreadSlot = some i ∨
    (∃ cap ∈ (s.runQueues bootCore).items, s.slotForCap cap = .ok i ∧ (s.threads i).state = .ready) ∨
    s.schedulerDriverSlot = some i ∧ (s.threads i).state = .blocked

/-- What holds in every run that loses no thread. -/
def Scheduled (boot : Fin maxThreads) (s : Sched) : Prop :=
  ∃ a, Shows s a ∧ a.Ok boot

theorem Sched.Shows.kept {s : Sched} {a : Coop (Fin maxThreads)} (h : Shows s a)
    {i : Fin maxThreads} (hi : a.Kept i) (hready : ∀ i ∈ a.queue, a.status i = .ready) :
    ThreadKept s i := by
  rcases hi with rfl | hi | ⟨hdriver, hblocked⟩
  · exact .inl h.current
  · refine .inr (.inl ⟨(s.threads i).cap, ?_, h.resolves i hi, (h.status i).trans (hready i hi)⟩)
    rw [h.items]
    exact List.mem_map_of_mem hi
  · exact .inr (.inr ⟨h.driver.trans hdriver, (h.status i).trans hblocked⟩)

/-- **No thread is lost.**  In every run whose calls satisfy `KeepsThreads`, every
    thread that was started and is not at its end can be found again, and a thread
    that comes to its end leaves the processor to another one. -/
theorem no_thread_lost {boot : Fin maxThreads} {log : List (SchedCall × SchedAnswer)} {s : Sched}
    (hrun : (schedSystem boot).RunWhen (fun s call => CanCall boot s call ∧ KeepsThreads s call) log s) :
    (∀ i, Unfinished boot s i → ThreadKept s i) ∧
      (CanCall boot s .exit → ∃ j, (schedStep s .exit).2.currentThreadSlot = some j ∧
        s.currentThreadSlot ≠ some j ∧ ((schedStep s .exit).2.threads j).state = .running) := by
  obtain ⟨a, h, hok⟩ : Scheduled boot s := by
    apply hrun.invariant (P := Scheduled boot)
    · rintro s ⟨s₀, hstart, hinit, hboot⟩
      obtain ⟨a, h, hok, _⟩ := schedulerInit_shows hstart hinit hboot
      exact ⟨a, h, hok⟩
    · rintro s call ⟨a, h, hok⟩ ⟨hcan, hkeeps⟩
      obtain ⟨a', h', hsteps⟩ := h.step hok hcan hkeeps
      exact ⟨a', h', hok.step hsteps.step⟩
  constructor
  · rintro i ⟨hbegun, hnot⟩
    rw [h.events] at hbegun hnot
    exact h.kept (hok.kept (hok.unfinished hbegun hnot)) fun i hi => (hok.ready i).mpr hi
  · intro hcan
    obtain ⟨i, hi, hpc, hboot⟩ := hcan
    obtain rfl : a.current = i := Option.some.inj (h.current.symm.trans hi)
    obtain ⟨e, s', hexit, _, hs'⟩ := h.exitThread hok hok.current_not_mem
    have hdriver : a.driver ≠ some a.current := by
      intro hdriver
      rw [h.pc, (hok.loop _).mpr hdriver] at hpc
      cases hpc
    obtain ⟨hok', hnext⟩ := hok.exit hboot hdriver
    have hrunning := (hs'.status _).trans ((hok'.running _).mpr rfl)
    simp only [schedStep, hexit]
    rw [h.current]
    exact ⟨_, hs'.current, fun heq => hnext (Option.some.inj heq).symm, hrunning⟩

/-- The boot thread waits for the thread it has made. -/
theorem no_thread_lost_driver :
    ThreadKept ((schedSystem 0).exec Sched.booted driveOne) 0 ∧
      ∃ j, (schedStep ((schedSystem 0).exec Sched.booted driveOne) .exit).2.currentThreadSlot = some j ∧
        ((schedSystem 0).exec Sched.booted driveOne).currentThreadSlot ≠ some j ∧
        ((schedStep ((schedSystem 0).exec Sched.booted driveOne) .exit).2.threads j).state = .running := by
  have hguard : (schedSystem 0).Guarded (fun s call => CanCall 0 s call ∧ KeepsThreads s call)
      Sched.booted driveOne := by
    refine ⟨⟨⟨0, ?_, ?_⟩, trivial⟩, ⟨⟨0, ?_, ?_⟩, trivial⟩, ⟨⟨0, ?_, ?_⟩, ?_⟩,
      ⟨⟨0, ?_, ?_⟩, trivial⟩, trivial⟩
    case refine_7 =>
      show Sched.schedulerDriverSlot _ = none
      decide +kernel
    all_goals decide +kernel
  obtain ⟨log, hrun⟩ := (System.RunWhen.init schedSystem_booted).exec hguard
  obtain ⟨hkept, hexit⟩ := no_thread_lost hrun
  constructor
  · apply hkept 0
    exact ⟨.inr rfl, by decide +kernel⟩
  · apply hexit
    refine ⟨1, ?_, ?_⟩
    all_goals decide +kernel

/-- The thread that the boot thread waits for calls `scdk_scheduler_run` itself, which
    forgets the boot thread. -/
def driveInside : List SchedCall := driveOne ++ [.run, .loop]

theorem no_thread_lost_fails : ¬ ∀ boot log s,
    (schedSystem boot).RunWhen (CanCall boot) log s → ∀ i, Unfinished boot s i → ThreadKept s i := by
  intro hall
  have hguard : (schedSystem 0).Guarded (CanCall 0) Sched.booted driveInside := by
    refine ⟨⟨0, ?_, ?_⟩, ⟨0, ?_, ?_⟩, ⟨0, ?_, ?_⟩, ⟨0, ?_, ?_⟩, ⟨1, ?_, ?_⟩, ⟨1, ?_, ?_⟩, trivial⟩
    all_goals decide +kernel
  obtain ⟨log, hrun⟩ := (System.RunWhen.init schedSystem_booted).exec hguard
  have hkept := hall 0 log _ hrun 0 ⟨.inr rfl, by decide +kernel⟩
  have hnot : ((schedSystem 0).exec Sched.booted driveInside).currentThreadSlot ≠ some 0 ∧
      (((schedSystem 0).exec Sched.booted driveInside).runQueues bootCore).items = [] ∧
      ((schedSystem 0).exec Sched.booted driveInside).schedulerDriverSlot ≠ some 0 := by
    decide +kernel
  rcases hkept with hcurrent | ⟨cap, hcap, _⟩ | ⟨hdriver, _⟩
  · exact hnot.1 hcurrent
  · rw [hnot.2.1] at hcap
    cases hcap
  · exact hnot.2.2 hdriver

/-! ## The boot thread drives the others -/

/-- Only the boot thread calls `scdk_scheduler_run`, and no token of a thread is
    revoked. -/
structure SoloGuard (boot : Fin maxThreads) (s : Sched) (call : SchedCall) : Prop where
  can : CanCall boot s call
  run : call = .run → s.currentThreadSlot = some boot
  revoke : ∀ cap, call = .revoke cap → ∀ entry, capLookup s.objects s.caps cap = .ok entry →
    entry.objectType ≠ ObjType.thread

/-- What holds in these runs: all tokens are in force, and the driver is the boot
    thread. -/
structure Solo (boot : Fin maxThreads) (s : Sched) (a : Coop (Fin maxThreads)) : Prop where
  shows : Shows s a
  ok : a.Ok boot
  live : Live s
  driver : ∀ d, a.driver = some d → d = boot

section solo

variable {boot : Fin maxThreads} {s : Sched} {a : Coop (Fin maxThreads)}

theorem Solo.keeps (h : Solo boot s a) {call : SchedCall} (hguard : SoloGuard boot s call) :
    KeepsThreads s call := by
  obtain ⟨i, hi, hcan⟩ := hguard.can
  obtain rfl : a.current = i := Option.some.inj (h.shows.current.symm.trans hi)
  cases call with
  | run =>
    -- A driver would be the boot thread itself, which is in its own code.
    show s.schedulerDriverSlot = none
    rw [h.shows.driver]
    cases hdriver : a.driver with
    | none => rfl
    | some d =>
      have hcur : a.current = boot := Option.some.inj (hi.symm.trans (hguard.run rfl))
      have hloop := (h.ok.loop a.current).mpr (by rw [hdriver, h.driver d hdriver, hcur])
      rw [h.shows.pc, hloop] at hcan
      cases hcan
  | revoke cap =>
    rintro j hready rfl
    rw [h.shows.status] at hready
    obtain ⟨k, hcap, hk⟩ := h.live j (h.shows.objectId_ne (by simp [hready]))
    have htype := hguard.revoke _ rfl _ ((capLookup_eq_ok h.shows.wf).mpr ⟨k, hk.occupied, hcap, rfl⟩)
    rcases hk.grants.1 with hnone | hthread
    · cases hnone
    · exact htype hthread
  | yield =>
    have hrunning : a.status a.current = .running := (h.ok.running _).mpr rfl
    exact .inr ⟨a.current, h.shows.current,
      h.live.slotForCap h.shows.wf (h.shows.objectId_ne (by simp [hrunning]))⟩
  | _ => trivial

theorem Solo.step (h : Solo boot s a) {call : SchedCall} (hguard : SoloGuard boot s call) :
    ∃ a', Solo boot (schedStep s call).2 a' ∧ StepsTo boot a call (schedStep s call).1 a' := by
  obtain ⟨a', hshows, hsteps⟩ := h.shows.step h.ok hguard.can (h.keeps hguard)
  refine ⟨a', ⟨hshows, h.ok.step hsteps.step, h.live.step h.shows h.ok hguard.revoke, ?_⟩, hsteps⟩
  intro d hd
  rcases hsteps.driver with heq | heq | ⟨hrun, heq⟩
  · exact h.driver d (heq.symm.trans hd)
  · rw [heq] at hd
    cases hd
  · obtain rfl := Option.some.inj (heq.symm.trans hd)
    exact Option.some.inj (h.shows.current.symm.trans (hguard.run hrun))

/-- The states of the threads, the run queue and the current thread agree, and the
    threads were taken from the queue in the order they were put in. -/
structure SchedulerOk (s : Sched) : Prop where
  current : ∃ i, s.currentThreadSlot = some i
  running : ∀ i, (s.threads i).state = .running ↔ s.currentThreadSlot = some i
  once : (s.runQueues bootCore).items.Nodup
  ready : ∀ i, (s.threads i).state = .ready ↔
    (s.threads i).objectId ≠ 0 ∧ (s.threads i).cap ∈ (s.runQueues bootCore).items
  queued : ∀ i, (s.threads i).queued = true ↔ (s.threads i).state = .ready
  order : ∃ waiting, (s.runQueues bootCore).items = waiting.map (fun i => (s.threads i).cap) ∧
    queuedOf s.events = dispatchedOf s.events ++ waiting
  resumed : ∀ i, s.currentThreadSlot = some i → s.pcs i ≠ .exited

theorem Solo.schedulerOk (h : Solo boot s a) : SchedulerOk s := by
  obtain ⟨hshows, hok, hlive, _⟩ := h
  -- A token in the queue leads back to its thread, so no two threads share one.
  have hinj : ∀ i ∈ a.queue, ∀ j, s.slotForCap (s.threads j).cap = .ok j →
      (s.threads i).cap = (s.threads j).cap → i = j := by
    intro i hi j hj heq
    have hslot := hshows.resolves i hi
    rw [heq, hj] at hslot
    exact (Except.ok.inj hslot).symm
  refine ⟨⟨a.current, hshows.current⟩, ?_, ?_, ?_, ?_, ?_, ?_⟩
  · intro i
    rw [hshows.status, hok.running, hshows.current, Option.some.injEq, eq_comm]
  · rw [hshows.items]
    apply hok.nodup.map_on
    intro i hi j hj heq
    exact hinj i hi j (hshows.resolves j hj) heq
  · intro i
    rw [hshows.status, hok.ready, hshows.items]
    constructor
    · intro hi
      have hready := (hok.ready i).mpr hi
      exact ⟨hshows.objectId_ne (by simp [hready]), List.mem_map_of_mem hi⟩
    · rintro ⟨hid, hmem⟩
      obtain ⟨j, hj, heq⟩ := List.mem_map.mp hmem
      obtain rfl := hinj j hj i (hlive.slotForCap hshows.wf hid) heq
      exact hj
  · intro i
    rw [hshows.queued, hshows.status, hok.ready]
  · rw [hshows.events]
    exact ⟨a.queue, hshows.items, hok.order⟩
  · intro i hi hpc
    obtain rfl : a.current = i := Option.some.inj (hshows.current.symm.trans hi)
    rw [hshows.pc, hok.exited, (hok.running _).mpr rfl] at hpc
    cases hpc

end solo

/-- **Scheduler invariant.**  After any calls, the states agree and no thread that
    is at its end was resumed; `scdk_yield` could always queue the current thread;
    and when `scdk_scheduler_run` has just returned, the boot thread is the current
    one and all threads that were started are at their end. -/
theorem scheduler_invariant {boot : Fin maxThreads} {log : List (SchedCall × SchedAnswer)}
    {s : Sched} (hrun : (schedSystem boot).RunWhen (SoloGuard boot) log s) :
    SchedulerOk s ∧ (∀ entry ∈ log, ¬ entry.2.IsRefused) ∧
      (∀ call, log.getLast? = some (call, .loop .returned) →
        s.currentThreadSlot = some boot ∧
          ∀ i, .started i ∈ s.events → (s.threads i).state = .dead) := by
  obtain ⟨⟨a, hsolo⟩, haccepted, hreturned⟩ : (∃ a, Solo boot s a) ∧
      (∀ entry ∈ log, ¬ entry.2.IsRefused) ∧
      (∀ call, log.getLast? = some (call, .loop .returned) →
        s.currentThreadSlot = some boot ∧
          ∀ i, .started i ∈ s.events → (s.threads i).state = .dead) := by
    -- The three parts hold of the same abstract run, so one induction carries them.
    induction hrun with
    | init hinit =>
      obtain ⟨s₀, hstart, hinit, hboot⟩ := hinit
      obtain ⟨a, hshows, hok, hdriver, hlive⟩ := schedulerInit_shows hstart hinit hboot
      refine ⟨⟨a, hshows, hok, hlive, ?_⟩, nofun, nofun⟩
      intro d hd
      rw [hdriver] at hd
      cases hd
    | @step log s call hrun hguard ih =>
      obtain ⟨⟨a, hsolo⟩, haccepted, _⟩ := ih
      obtain ⟨a', hsolo', hsteps⟩ := hsolo.step hguard
      refine ⟨⟨a', hsolo'⟩, ?_, ?_⟩
      · intro entry hentry
        rcases List.mem_append.mp hentry with hold | hlast
        · exact haccepted entry hold
        · rw [List.mem_singleton.mp hlast]
          exact hsteps.accepted
      · intro call' hlast
        rw [List.getLast?_concat] at hlast
        obtain ⟨_, hanswer⟩ := Prod.mk.inj (Option.some.inj hlast)
        -- The loop returns to the driver when its queue is empty.
        obtain ⟨hdriver, hq, rfl⟩ := hsteps.returned hanswer
        have hcur : a.current = boot := hsolo.driver _ hdriver
        refine ⟨hsolo'.shows.current.trans (congrArg some hcur), ?_⟩
        intro i hi
        have hi' : .started i ∈ a.events := by
          have hevents := hsolo'.shows.events
          exact hevents ▸ hi
        exact (hsolo'.shows.status i).trans (hsolo.ok.finished_others hdriver hq hcur hi')
  exact ⟨hsolo.schedulerOk, haccepted, hreturned⟩

/-- The boot thread drives one thread to its end. -/
theorem scheduler_invariant_one :
    ((schedSystem 0).exec Sched.booted (driveOne ++ [.exit, .loop])).currentThreadSlot = some 0 ∧
      (((schedSystem 0).exec Sched.booted (driveOne ++ [.exit, .loop])).threads 1).state = .dead := by
  have hguard : (schedSystem 0).Guarded (SoloGuard 0) Sched.booted (driveOne ++ [.exit]) := by
    refine ⟨⟨⟨0, ?_, ?_⟩, nofun, nofun⟩, ⟨⟨0, ?_, ?_⟩, nofun, nofun⟩,
      ⟨⟨0, ?_, ?_⟩, fun _ => ?_, nofun⟩, ⟨⟨0, ?_, ?_⟩, nofun, nofun⟩,
      ⟨⟨1, ?_, ?_⟩, nofun, nofun⟩, trivial⟩
    all_goals decide +kernel
  obtain ⟨log, hrun⟩ := (System.RunWhen.init schedSystem_booted).exec hguard
  have hlast : SoloGuard 0 ((schedSystem 0).exec Sched.booted (driveOne ++ [.exit])) .loop := by
    refine ⟨⟨0, ?_, ?_⟩, nofun, nofun⟩
    all_goals decide +kernel
  have hanswer : ((schedSystem 0).exec Sched.booted (driveOne ++ [.exit])).runLoop.1 = .returned := by
    decide +kernel
  obtain ⟨_, _, hreturned⟩ := scheduler_invariant (hrun.step .loop hlast)
  obtain ⟨hcurrent, hdead⟩ := hreturned .loop (by
    rw [List.getLast?_concat]
    exact congrArg (fun e => some (SchedCall.loop, SchedAnswer.loop e)) hanswer)
  exact ⟨hcurrent, hdead 1 (by decide +kernel)⟩

end Scdk
