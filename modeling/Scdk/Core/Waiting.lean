import Scdk.Core.SchedulerSafety

/-! # How long a thread waits

    The run queue is first in, first out, so that a thread waits until those before it
    have had the processor, and no longer: each time a thread gives the processor up, all
    that wait come one place forward, and the first one goes on.

    Contents:
    * `Coop.HandedOver`: what giving the processor up does to the queue,
    * `WaitsAt`: the place of a thread in the queue of the code,
    * `Scheduled.handsOver`, `Scheduled.keepsPlaces`: one call,
    * `bounded_waiting`: any calls, in any run that loses no thread. -/

namespace Scdk

open Sched

/-! ## The queue -/

namespace Coop

variable {ι : Type} [DecidableEq ι] {boot next : ι} {a : Coop ι} {rest : List ι}

/-- The first thread goes on, and none of the others is overtaken. -/
structure HandedOver (next : ι) (rest : List ι) (a : Coop ι) : Prop where
  current : a.current = next
  queue : rest <+: a.queue

theorem leave_queue (a : Coop ι) : a.queue <+: a.leave.queue := by
  unfold leave
  split
  · split
    · exact List.prefix_rfl
    · exact List.prefix_append _ _
  · exact List.prefix_rfl

theorem handedOver_yield (hq : a.queue = next :: rest) : HandedOver next rest a.yield := by
  have hnext : a.successor = some next := by
    simp [successor, hq]
  unfold Coop.yield
  rw [hnext]
  constructor
  · rfl
  · have hleave := leave_queue a.take
    rwa [take_cons hq] at hleave ⊢

theorem handedOver_exit (hq : a.queue = next :: rest) : HandedOver next rest a.exit :=
  handedOver_yield (show a.die.queue = next :: rest from hq)

end Coop

/-! ## One call -/

/-- A call with which the current thread gives the processor up. -/
def SchedCall.handsOver : SchedCall → Bool
  | .yield => true
  | .exit => true
  | .loop => true
  | _ => false

/-- How often the processor is given up. -/
def handOvers (calls : List SchedCall) : Nat := calls.countP SchedCall.handsOver

/-- The token at place `k` of the queue is one of the thread `i`. -/
def WaitsAt (s : Sched) (k : Nat) (i : Fin maxThreads) : Prop :=
  ∃ cap, (s.runQueues bootCore).items[k]? = some cap ∧ s.slotForCap cap = .ok i

section calls

variable {boot : Fin maxThreads} {s : Sched} {a : Coop (Fin maxThreads)}

/-- The place of a thread in the queue of the cooperative threads. -/
theorem Sched.Shows.waitsAt_iff (h : Shows s a) {k : Nat} {i : Fin maxThreads} :
    WaitsAt s k i ↔ a.queue[k]? = some i := by
  unfold WaitsAt
  rw [h.items, List.getElem?_map]
  constructor
  · rintro ⟨cap, hcap, hslot⟩
    obtain ⟨j, hj, rfl⟩ := Option.map_eq_some_iff.mp hcap
    have hresolves := h.resolves j (List.mem_of_getElem? hj)
    rw [hresolves] at hslot
    rwa [Except.ok.inj hslot] at hj
  · intro hi
    rw [hi]
    exact ⟨_, rfl, h.resolves i (List.mem_of_getElem? hi)⟩

/-- The processor is given up. -/
theorem Sched.Shows.handsOver (h : Shows s a) (hok : a.Ok boot) {next : Fin maxThreads}
    {rest : List (Fin maxThreads)} (hq : a.queue = next :: rest) {call : SchedCall}
    (hcan : CanCall boot s call) (hkeeps : KeepsThreads s call) (hhands : call.handsOver = true) :
    ∃ a', Shows (schedStep s call).2 a' ∧ a'.HandedOver next rest := by
  obtain ⟨i, hi, hcan⟩ := hcan
  obtain rfl : a.current = i := Option.some.inj (h.current.symm.trans hi)
  have hcur := hok.current_not_mem
  rw [h.pc] at hcan
  cases call with
  | yield =>
    obtain ⟨e, s', hrun, _, hs'⟩ := h.yield hok.nodup (fun i hi => (hok.ready i).mpr hi) hcur
      fun _ _ => h.live_of_keeps hkeeps
    simp only [schedStep, hrun]
    exact ⟨_, hs', Coop.handedOver_yield hq⟩
  | exit =>
    obtain ⟨e, s', hrun, _, hs'⟩ := h.exitThread hok hcur
    simp only [schedStep, hrun]
    exact ⟨_, hs', Coop.handedOver_exit hq⟩
  | loop =>
    obtain ⟨e, s', hrun, hend⟩ := h.runLoop hok hcur ((hok.loop _).mp hcan)
    simp only [schedStep, hrun]
    rcases hend with ⟨hempty, _⟩ | ⟨_, _, hs'⟩
    · -- the queue is not empty
      rw [hq] at hempty
      cases hempty
    · exact ⟨_, hs', Coop.handedOver_yield hq⟩
  | createTask ownerCore addressSpace => cases hhands
  | createThread task entry arg stack => cases hhands
  | startThread thread => cases hhands
  | run => cases hhands
  | revoke cap => cases hhands

/-- Other calls only add to the queue. -/
theorem Sched.Shows.keepsPlaces (h : Shows s a) (hok : a.Ok boot) {call : SchedCall}
    (hkeeps : KeepsThreads s call) (hhands : call.handsOver = false) :
    ∃ a', Shows (schedStep s call).2 a' ∧ a.queue <+: a'.queue := by
  cases call with
  | createTask ownerCore addressSpace =>
    exact ⟨a, h.createTask ownerCore addressSpace, List.prefix_rfl⟩
  | createThread task entry arg stack =>
    obtain ⟨r, s', hrun, _, hs'⟩ :=
      h.createThread (fun i hi => (hok.ready i).mpr hi) task entry arg stack
    simp only [schedStep, hrun]
    rcases hs' with hs' | ⟨i, _, hs'⟩
    · exact ⟨a, hs', List.prefix_rfl⟩
    · exact ⟨_, hs', List.prefix_rfl⟩
  | startThread thread =>
    obtain ⟨r, s', hrun, hs'⟩ := h.startThread hok thread
    simp only [schedStep, hrun]
    rcases hs' with hs' | ⟨i, _, hs'⟩
    · exact ⟨a, hs', List.prefix_rfl⟩
    · exact ⟨_, hs', List.prefix_append _ _⟩
  | run => exact ⟨_, h.runBegin, List.prefix_rfl⟩
  | revoke cap =>
    refine ⟨a, h.revoke ?_, List.prefix_rfl⟩
    intro i hi
    apply hkeeps i
    rw [h.status]
    exact (hok.ready i).mpr hi
  | yield => cases hhands
  | exit => cases hhands
  | loop => cases hhands

/-- A call that is allowed in the runs that lose no thread. -/
def Allowed (boot : Fin maxThreads) (s : Sched) (call : SchedCall) : Prop :=
  CanCall boot s call ∧ KeepsThreads s call

theorem Scheduled.step (h : Scheduled boot s) {call : SchedCall} (hcall : Allowed boot s call) :
    Scheduled boot (schedStep s call).2 := by
  obtain ⟨a, hshows, hok⟩ := h
  obtain ⟨a', hshows', hsteps⟩ := hshows.step hok hcall.1 hcall.2
  exact ⟨a', hshows', hok.step hsteps.step⟩

/-- When the processor is given up, the first thread gets it and the others come forward. -/
theorem Scheduled.handsOver (h : Scheduled boot s) {call : SchedCall} (hcall : Allowed boot s call)
    (hhands : call.handsOver = true) {k : Nat} {i : Fin maxThreads} (hwaits : WaitsAt s k i) :
    if k = 0 then (schedStep s call).2.currentThreadSlot = some i
    else WaitsAt (schedStep s call).2 (k - 1) i := by
  obtain ⟨a, hshows, hok⟩ := h
  rw [hshows.waitsAt_iff] at hwaits
  cases hq : a.queue with
  | nil =>
    rw [hq] at hwaits
    cases hwaits
  | cons next rest =>
    obtain ⟨a', hshows', hover⟩ := hshows.handsOver hok hq hcall.1 hcall.2 hhands
    rw [hq] at hwaits
    cases k with
    | zero =>
      obtain rfl : next = i := by simpa using hwaits
      rw [if_pos rfl, hshows'.current, hover.current]
    | succ k =>
      rw [if_neg (Nat.succ_ne_zero k), hshows'.waitsAt_iff, Nat.add_sub_cancel]
      obtain ⟨added, hadded⟩ := hover.queue
      rw [List.getElem?_cons_succ] at hwaits
      rw [← hadded, List.getElem?_append_left (List.getElem?_eq_some_iff.mp hwaits).1, hwaits]

/-- Other calls leave a thread where it waits. -/
theorem Scheduled.keepsPlaces (h : Scheduled boot s) {call : SchedCall} (hcall : Allowed boot s call)
    (hhands : call.handsOver = false) {k : Nat} {i : Fin maxThreads} (hwaits : WaitsAt s k i) :
    WaitsAt (schedStep s call).2 k i := by
  obtain ⟨a, hshows, hok⟩ := h
  obtain ⟨a', hshows', added, hadded⟩ := hshows.keepsPlaces hok hcall.2 hhands
  rw [hshows.waitsAt_iff] at hwaits
  rw [hshows'.waitsAt_iff, ← hadded,
    List.getElem?_append_left (List.getElem?_eq_some_iff.mp hwaits).1, hwaits]

end calls

/-! ## Runs -/

section runs

variable {boot : Fin maxThreads} {s : Sched}

/-- What holds in the runs that lose no thread. -/
theorem scheduled_of_run {log : List (SchedCall × SchedAnswer)}
    (hrun : (schedSystem boot).RunWhen (Allowed boot) log s) : Scheduled boot s := by
  apply hrun.invariant (P := Scheduled boot)
  · rintro s ⟨s₀, hstart, hinit, hboot⟩
    obtain ⟨a, h, hok, _⟩ := schedulerInit_shows hstart hinit hboot
    exact ⟨a, h, hok⟩
  · intro s call h hcall
    exact h.step hcall

/-- A thread comes forward by one place each time the processor is given up. -/
theorem Scheduled.waits (h : Scheduled boot s) {k : Nat} {i : Fin maxThreads} (hwaits : WaitsAt s k i)
    {calls : List SchedCall} (hcalls : (schedSystem boot).Guarded (Allowed boot) s calls)
    (hle : handOvers calls ≤ k) :
    Scheduled boot ((schedSystem boot).exec s calls) ∧
      WaitsAt ((schedSystem boot).exec s calls) (k - handOvers calls) i := by
  induction calls generalizing s k with
  | nil => exact ⟨h, hwaits⟩
  | cons call calls ih =>
    obtain ⟨hcall, hcalls⟩ := hcalls
    have hcount : handOvers (call :: calls) = handOvers calls + if call.handsOver = true then 1 else 0 :=
      List.countP_cons
    rw [hcount] at hle ⊢
    cases hhands : call.handsOver with
    | true =>
      rw [hhands, if_pos rfl] at hle
      have hstep := h.handsOver hcall hhands hwaits
      rw [if_neg (by omega)] at hstep
      have hrest := ih (h.step hcall) hstep hcalls (by omega)
      rw [if_pos rfl, Nat.add_comm, Nat.sub_add_eq]
      exact hrest
    | false =>
      rw [hhands] at hle
      exact ih (h.step hcall) (h.keepsPlaces hcall hhands hwaits) hcalls hle

/-- **Bounded waiting.**  In every run that loses no thread, a thread at place `k` of the
    queue comes forward by one place each time a thread gives the processor up, whatever
    else is called; it has the processor when this has been done `k + 1` times. -/
theorem bounded_waiting {log : List (SchedCall × SchedAnswer)}
    (hrun : (schedSystem boot).RunWhen (Allowed boot) log s) {k : Nat} {i : Fin maxThreads}
    (hwaits : WaitsAt s k i) {calls : List SchedCall}
    (hcalls : (schedSystem boot).Guarded (Allowed boot) s calls) :
    (handOvers calls ≤ k → WaitsAt ((schedSystem boot).exec s calls) (k - handOvers calls) i) ∧
      ∀ call, handOvers calls = k → call.handsOver = true →
        Allowed boot ((schedSystem boot).exec s calls) call →
        (schedStep ((schedSystem boot).exec s calls) call).2.currentThreadSlot = some i := by
  have h := scheduled_of_run hrun
  constructor
  · intro hle
    exact (h.waits hwaits hcalls hle).2
  · intro call hcount hhands hcall
    obtain ⟨hscheduled, hplace⟩ := h.waits hwaits hcalls (Nat.le_of_eq hcount)
    rw [hcount, Nat.sub_self] at hplace
    have hstep := hscheduled.handsOver hcall hhands hplace
    rwa [if_pos rfl] at hstep

/-- A thread that was started, before the boot thread drives it. -/
theorem bounded_waiting_first :
    (schedStep ((schedSystem 0).exec Sched.booted
      [.createThread 0x100000000 1 0 (some 0x1000), .startThread 0x100000002, .run]) .loop
      ).2.currentThreadSlot = some 1 := by
  have hguard : (schedSystem 0).Guarded (Allowed 0) Sched.booted
      [.createThread 0x100000000 1 0 (some 0x1000), .startThread 0x100000002, .run] := by
    refine ⟨⟨⟨0, ?_, ?_⟩, trivial⟩, ⟨⟨0, ?_, ?_⟩, trivial⟩, ⟨⟨0, ?_, ?_⟩, ?_⟩, trivial⟩
    case refine_7 =>
      show Sched.schedulerDriverSlot _ = none
      decide +kernel
    all_goals decide +kernel
  obtain ⟨log, hrun⟩ := (System.RunWhen.init schedSystem_booted).exec hguard
  refine (@bounded_waiting 0 _ _ hrun 0 _ ⟨0x100000002, ?_, ?_⟩ [] trivial).2 .loop rfl rfl
    ⟨⟨0, ?_, ?_⟩, trivial⟩
  all_goals decide +kernel

end runs

end Scdk
