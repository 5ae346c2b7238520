import Scdk.Core.Dispatch
import Mathlib.Data.Fintype.Card
import Mathlib.Data.Fintype.List

/-! # The scheduler as cooperative threads

    The run queue holds tokens, the records of the threads hold their states, and
    two static pointers name the current thread and the driver.  `Shows s a` says
    that these are the cooperative threads `a`; the functions of the scheduler then
    do to `a` what they are for.

    Contents:
    * `slotForCap_eq_ok`: the thread behind a token,
    * `Shows`: what the state stands for,
    * `Shows.yield`, `Shows.exitThread`, `Shows.startThread`, `Shows.runBegin`,
      `Shows.runLoop`, `Shows.createThread`, `Shows.revoke`: one function each. -/

namespace Scdk

namespace Sched

/-! ## The thread behind a token -/

section tokens

variable {o o' : ObjectTable} {c c' : CapTable} {threads threads' : ThreadTable} {t : UInt64}
  {i : Fin maxThreads}

/-- Slot `j` of the capability table holds a token for the thread `i`. -/
structure IsToken (o : ObjectTable) (c : CapTable) (threads : ThreadTable) (j : Fin maxCaps)
    (i : Fin maxThreads) : Prop where
  occupied : c.occupied j = true
  grants : (c.entry j).grants Right.read ObjType.thread
  object : ∃ ob, objectLookup o (c.entry j).objectId = .ok ob ∧ ob.payload = .thread i
  slot : (threads i).objectId = (c.entry j).objectId

theorem threadSlotForCap_eq_ok (h : TablesWf o c) :
    threadSlotForCap o c threads t = .ok i ↔ ∃ j, t = c.token j ∧ IsToken o c threads j i := by
  unfold threadSlotForCap
  rw [payloadLookup_eq_ok]
  constructor
  · rintro ⟨entry, ob, hcheck, hob, htest⟩
    obtain ⟨_, j, hocc, rfl, rfl, hgrants⟩ := (capCheck_eq_ok h).mp hcheck
    cases hpayload : ob.payload with
    | thread i' =>
      rw [hpayload] at htest
      dsimp only at htest
      split at htest
      · cases htest
      · next hid =>
        obtain rfl := Except.ok.inj htest
        exact ⟨j, rfl, hocc, hgrants, ⟨ob, hob, hpayload⟩, not_not.mp hid⟩
    | _ =>
      rw [hpayload] at htest
      cases htest
  · rintro ⟨j, rfl, hocc, hgrants, ⟨ob, hob, hpayload⟩, hslot⟩
    refine ⟨c.entry j, ob, (capCheck_eq_ok h).mpr ⟨by decide, j, hocc, rfl, rfl, hgrants⟩, hob, ?_⟩
    rw [hpayload]
    dsimp only
    rw [if_neg (not_not.mpr hslot)]

/-- A thread that is found has a record. -/
theorem objectId_ne_of_slot {s : Sched} (h : TablesWf s.objects s.caps)
    (ht : s.slotForCap t = .ok i) : (s.threads i).objectId ≠ 0 := by
  obtain ⟨j, _, hj⟩ := (threadSlotForCap_eq_ok h).mp ht
  rw [hj.slot]
  exact (CapTable.occupied_iff.mp hj.occupied).1

/-- The tokens of a thread are kept where the tables grow. -/
theorem IsToken.grown {type : UInt32} {payload : Payload} {j : Fin maxCaps}
    (h : IsToken o c threads j i) (hwf : TablesWf o c) (hgrown : TablesGrown type payload o c o' c')
    (hslot : (threads' i).objectId = (threads i).objectId) :
    c'.token j = c.token j ∧ IsToken o' c' threads' j i := by
  have hsame := hgrown.sameSlot h.occupied
  obtain ⟨ob, hob, hpayload⟩ := h.object
  refine ⟨hsame.token, hsame.occupied.trans h.occupied, ?_, ?_, ?_⟩
  · rw [hsame.1]
    exact h.grants
  · rw [hsame.1]
    exact ⟨ob, hgrown.lookup hwf hob, hpayload⟩
  · rw [hsame.1, hslot]
    exact h.slot

/-- A token of a thread is an old one, or the tables have grown by a thread. -/
theorem IsToken.grown_cases {type : UInt32} {payload : Payload} {j : Fin maxCaps}
    (h : IsToken o' c' threads' j i) (hwf : TablesWf o c)
    (hgrown : TablesGrown type payload o c o' c') :
    (c'.token j = c.token j ∧
        ∀ {threads}, (threads i).objectId = (threads' i).objectId → IsToken o c threads j i) ∨
      payload = .thread i ∧ ∀ ob, objectLookup o (c'.entry j).objectId ≠ .ok ob := by
  obtain ⟨ob, hob, hpayload⟩ := h.object
  rcases hgrown.occupied_cases hwf h.occupied with hold | ⟨ob', hob', _, hpayload', hfresh⟩
  · left
    have hsame := hgrown.sameSlot hold
    obtain ⟨ob₀, hob₀, _⟩ := hwf.object j hold
    rw [hsame.1] at hob
    obtain rfl := Except.ok.inj ((hgrown.lookup hwf hob₀).symm.trans hob)
    refine ⟨hsame.token, fun hslot => ⟨hold, ?_, ⟨ob₀, hob₀, hpayload⟩, ?_⟩⟩
    · rw [← hsame.1]
      exact h.grants
    · rw [hslot, ← hsame.1]
      exact h.slot
  · right
    obtain rfl := Except.ok.inj (hob.symm.trans hob')
    exact ⟨hpayload'.symm.trans hpayload, hfresh⟩

/-- Revoking a token keeps those of the other slots. -/
theorem IsToken.revoked {j k : Fin maxCaps} (h : IsToken o c threads j i) (hjk : j ≠ k) :
    (c.revokeSlot k).token j = c.token j ∧ IsToken o (c.revokeSlot k) threads j i := by
  refine ⟨CapTable.revokeSlot_token_ne c k hjk, ?_, ?_, ?_, ?_⟩
  · rw [CapTable.revokeSlot_occupied_ne c k hjk]
    exact h.occupied
  · rw [CapTable.revokeSlot_entry_ne c k hjk]
    exact h.grants
  · rw [CapTable.revokeSlot_entry_ne c k hjk]
    exact h.object
  · rw [CapTable.revokeSlot_entry_ne c k hjk]
    exact h.slot

/-- A token of a thread that is left was one before. -/
theorem IsToken.of_revoked {j k : Fin maxCaps} (h : IsToken o (c.revokeSlot k) threads j i) :
    j ≠ k ∧ IsToken o c threads j i := by
  have hjk : j ≠ k := by
    rintro rfl
    have hocc := h.occupied
    rw [CapTable.revokeSlot_occupied_self] at hocc
    cases hocc
  obtain ⟨hocc, hgrants, hob, hslot⟩ := h
  rw [CapTable.revokeSlot_occupied_ne c k hjk] at hocc
  rw [CapTable.revokeSlot_entry_ne c k hjk] at hgrants hob hslot
  exact ⟨hjk, hocc, hgrants, hob, hslot⟩

end tokens

/-! ## What the state stands for -/

/-- The state shows the cooperative threads `a`: the queue of the boot core holds the
    tokens of the queue of `a`, which are looked up to these threads.  A thread has
    no other token than the one in its record. -/
structure Shows (s : Sched) (a : Coop (Fin maxThreads)) : Prop where
  wf : TablesWf s.objects s.caps
  initialized : s.initialized = true
  current : s.currentThreadSlot = some a.current
  driver : s.schedulerDriverSlot = a.driver
  status : ∀ i, (s.threads i).state = a.status i
  pc : s.pcs = a.pc
  events : s.events = a.events
  core : ∀ i, (s.threads i).ownerCore = bootCore
  fifo : (s.runQueues bootCore).Wf
  items : (s.runQueues bootCore).items = a.queue.map fun i => (s.threads i).cap
  queued : ∀ i, (s.threads i).queued = true ↔ i ∈ a.queue
  resolves : ∀ i ∈ a.queue, s.slotForCap (s.threads i).cap = .ok i
  sole : ∀ t i, s.slotForCap t = .ok i → (s.threads i).cap = t
  free : ∀ i, (s.threads i).objectId = 0 → a.status i = .none ∨ a.status i = .new

section shows

variable {s s' : Sched} {a a' : Coop (Fin maxThreads)} {i next : Fin maxThreads}

/-- The states agree in what the lookup of a token reads. -/
structure SameRecords (s s' : Sched) : Prop where
  objects : s'.objects = s.objects
  caps : s'.caps = s.caps
  initialized : s'.initialized = s.initialized
  objectId : ∀ i, (s'.threads i).objectId = (s.threads i).objectId
  cap : ∀ i, (s'.threads i).cap = (s.threads i).cap
  ownerCore : ∀ i, (s'.threads i).ownerCore = (s.threads i).ownerCore

theorem SameRecords.slotForCap (h : SameRecords s s') (t : UInt64) :
    s'.slotForCap t = s.slotForCap t := by
  unfold Sched.slotForCap threadSlotForCap
  rw [h.objects, h.caps]
  congr 1
  funext payload id
  cases payload with
  | thread i =>
    dsimp only
    rw [h.objectId i]
  | _ => rfl

/-- What is left to show of a state with the same records. -/
theorem Shows.of_same (h : Shows s a) (hsame : SameRecords s s')
    (hcurrent : s'.currentThreadSlot = some a'.current) (hdriver : s'.schedulerDriverSlot = a'.driver)
    (hstatus : ∀ i, (s'.threads i).state = a'.status i) (hpc : s'.pcs = a'.pc)
    (hevents : s'.events = a'.events) (hfifo : (s'.runQueues bootCore).Wf)
    (hitems : (s'.runQueues bootCore).items = a'.queue.map fun i => (s.threads i).cap)
    (hqueued : ∀ i, (s'.threads i).queued = true ↔ i ∈ a'.queue)
    (hresolves : ∀ i ∈ a'.queue, s.slotForCap (s.threads i).cap = .ok i)
    (hfree : ∀ i, (s.threads i).objectId = 0 → a'.status i = .none ∨ a'.status i = .new) :
    Shows s' a' where
  wf := by
    rw [hsame.objects, hsame.caps]
    exact h.wf
  initialized := hsame.initialized.trans h.initialized
  current := hcurrent
  driver := hdriver
  status := hstatus
  pc := hpc
  events := hevents
  core := fun i => (hsame.ownerCore i).trans (h.core i)
  fifo := hfifo
  items := by
    rw [hitems]
    exact List.map_congr_left fun i _ => (hsame.cap i).symm
  queued := hqueued
  resolves := by
    intro i hi
    rw [hsame.slotForCap, hsame.cap]
    exact hresolves i hi
  sole := by
    intro t i ht
    rw [hsame.slotForCap] at ht
    rw [hsame.cap]
    exact h.sole t i ht
  free := by
    intro i hi
    rw [hsame.objectId] at hi
    exact hfree i hi

theorem Shows.count_eq (h : Shows s a) : (s.runQueues bootCore).count = a.queue.length := by
  have hlen := congrArg List.length h.items
  rw [Fifo.length_items, List.length_map] at hlen
  exact hlen

/-- A thread that has begun has a record. -/
theorem Shows.objectId_ne (h : Shows s a) (hi : a.status i ≠ .none ∧ a.status i ≠ .new) :
    (s.threads i).objectId ≠ 0 := by
  intro hzero
  rcases h.free i hzero with hs | hs
  · exact hi.1 hs
  · exact hi.2 hs

/-! ### Writing a record -/

theorem setState_thread (s : Sched) (i j : Fin maxThreads) (state : ThreadState) :
    (s.setState i state).threads j =
      { s.threads j with state := if j = i then state else (s.threads j).state } := by
  by_cases hji : j = i
  · subst hji
    simp [setState]
  · simp [setState, hji]

theorem setQueued_thread (s : Sched) (i j : Fin maxThreads) (queued : Bool) :
    (s.setQueued i queued).threads j =
      { s.threads j with queued := if j = i then queued else (s.threads j).queued } := by
  by_cases hji : j = i
  · subst hji
    simp [setQueued]
  · simp [setQueued, hji]

theorem sameRecords_setState (s : Sched) (i : Fin maxThreads) (state : ThreadState) :
    SameRecords s (s.setState i state) :=
  ⟨rfl, rfl, rfl, fun j => by rw [setState_thread], fun j => by rw [setState_thread],
    fun j => by rw [setState_thread]⟩

theorem sameRecords_setQueued (s : Sched) (i : Fin maxThreads) (queued : Bool) :
    SameRecords s (s.setQueued i queued) :=
  ⟨rfl, rfl, rfl, fun j => by rw [setQueued_thread], fun j => by rw [setQueued_thread],
    fun j => by rw [setQueued_thread]⟩

theorem sameRecords_setQueue (s : Sched) (core : UInt32) (q : Fifo maxThreads UInt64) :
    SameRecords s (s.setQueue core q) :=
  ⟨rfl, rfl, rfl, fun _ => rfl, fun _ => rfl, fun _ => rfl⟩

theorem SameRecords.trans {s'' : Sched} (h : SameRecords s s') (h' : SameRecords s' s'') :
    SameRecords s s'' :=
  ⟨h'.objects.trans h.objects, h'.caps.trans h.caps, h'.initialized.trans h.initialized,
    fun j => (h'.objectId j).trans (h.objectId j), fun j => (h'.cap j).trans (h.cap j),
    fun j => (h'.ownerCore j).trans (h.ownerCore j)⟩

theorem SameRecords.emit (h : SameRecords s s') (ev : SchedEvent (Fin maxThreads)) :
    SameRecords s (s'.emit ev) :=
  ⟨h.objects, h.caps, h.initialized, h.objectId, h.cap, h.ownerCore⟩

theorem Shows.setState (h : Shows s a) (i : Fin maxThreads) (state : ThreadState)
    (hfree : (s.threads i).objectId = 0 → state = .none ∨ state = .new) :
    Shows (s.setState i state) { a with status := Function.update a.status i state } := by
  refine h.of_same (sameRecords_setState s i state) h.current h.driver ?_ h.pc h.events h.fifo
    h.items ?_ h.resolves ?_
  · intro j
    rw [setState_thread]
    by_cases hji : j = i
    · simp [hji]
    · simpa [hji] using h.status j
  · intro j
    rw [setState_thread]
    exact h.queued j
  · intro j hj
    by_cases hji : j = i
    · subst hji
      simpa using hfree hj
    · simpa [hji] using h.free j hj

/-! ### The queue -/

/-- `dequeue_thread` with an empty queue -/
theorem Shows.dequeue_nil (h : Shows s a) (hq : a.queue = []) :
    s.dequeueThread bootCore = (none, s) := by
  unfold dequeueThread
  rw [h.count_eq, hq]
  rfl

/-- `dequeue_thread` otherwise: the token at the front is that of the first thread. -/
theorem Shows.dequeue_cons (h : Shows s a) {rest : List (Fin maxThreads)}
    (hq : a.queue = next :: rest) (hnodup : a.queue.Nodup) (hready : a.status next = .ready) :
    ∃ s', s.dequeueThread bootCore = (some next, s') ∧ Shows s' a.take ∧ SameRecords s s' := by
  have hcount : (s.runQueues bootCore).count ≠ 0 := by
    rw [h.count_eq, hq]
    exact Nat.succ_ne_zero _
  -- The queue of the code starts with the token of `next`.
  have hitems := h.items
  rw [Fifo.items_pop hcount, hq, List.map_cons] at hitems
  obtain ⟨hfront, hrest⟩ := List.cons.inj hitems
  obtain ⟨hnot, _⟩ := List.nodup_cons.mp (hq ▸ hnodup)
  let popped := s.setQueue bootCore (s.runQueues bootCore).pop
  have hsame : SameRecords s ((popped.setQueued next false).emit (.dispatched next)) :=
    ((sameRecords_setQueue s _ _).trans (sameRecords_setQueued popped next false)).emit _
  refine ⟨(popped.setQueued next false).emit (.dispatched next), ?_, ?_, hsame⟩
  · obtain ⟨n, hn⟩ := Nat.exists_eq_succ_of_ne_zero hcount
    have hslot : popped.slotForCap (s.runQueues bootCore).front = .ok next := by
      rw [hfront]
      exact h.resolves next (by rw [hq]; exact List.mem_cons_self)
    unfold dequeueThread
    rw [hn, Nat.succ_eq_add_one, dequeueLoop]
    dsimp only
    rw [hslot]
    dsimp only
    rw [setQueued_thread, if_pos]
    exact (h.status next).trans hready
  · rw [Coop.take_cons hq]
    have hqueue : popped.runQueues bootCore = (s.runQueues bootCore).pop := by
      simp [popped, setQueue]
    refine h.of_same hsame h.current h.driver ?_ h.pc ?_ ?_ ?_ ?_ ?_ h.free
    · intro j
      rw [emit, setQueued_thread]
      exact h.status j
    · exact congrArg (· ++ [SchedEvent.dispatched next]) h.events
    · exact hqueue ▸ h.fifo.pop hcount
    · exact (congrArg Fifo.items hqueue).trans hrest
    · intro j
      rw [emit, setQueued_thread]
      by_cases hj : j = next
      · subst hj
        simpa using hnot
      · simpa [hj, hq, popped, setQueue] using h.queued j
    · intro j hj
      exact h.resolves j (by rw [hq]; exact List.mem_cons_of_mem _ hj)

/-- `enqueue_thread` -/
theorem Shows.enqueue (h : Shows s a) (hready : a.status i = .ready) (hnot : i ∉ a.queue)
    (hroom : a.queue.length < maxThreads) (hresolves : s.slotForCap (s.threads i).cap = .ok i) :
    ∃ s', s.enqueueThread i = (.ok (), s') ∧
      Shows s' { a with queue := a.queue ++ [i], events := a.events ++ [.queued i] } := by
  have hcount : (s.runQueues bootCore).count < maxThreads := h.count_eq ▸ hroom
  have hqueued : (s.threads i).queued = false := by
    rw [← Bool.not_eq_true, h.queued]
    exact hnot
  let pushed := s.setQueue bootCore ((s.runQueues bootCore).push (s.threads i).cap)
  refine ⟨(pushed.setQueued i true).emit (.queued i), ?_, ?_⟩
  · -- None of the refusals of `enqueue_thread` applies.
    unfold enqueueThread
    dsimp only
    rw [h.core i, if_neg (by decide), if_neg (by simp [hqueued, h.status, hready]),
      if_neg (Nat.not_le.mpr hcount)]
  · have hqueue : pushed.runQueues bootCore = (s.runQueues bootCore).push (s.threads i).cap := by
      simp [pushed, setQueue]
    refine h.of_same ?_ h.current h.driver ?_ h.pc ?_ ?_ ?_ ?_ ?_ h.free
    · exact ((sameRecords_setQueue s _ _).trans (sameRecords_setQueued pushed i true)).emit _
    · intro j
      rw [emit, setQueued_thread]
      exact h.status j
    · exact congrArg (· ++ [SchedEvent.queued i]) h.events
    · exact hqueue ▸ h.fifo.push hcount _
    · refine (congrArg Fifo.items hqueue).trans ?_
      rw [Fifo.items_push h.fifo hcount, h.items, List.map_append]
      rfl
    · intro j
      rw [emit, setQueued_thread]
      by_cases hj : j = i
      · simp [hj]
      · simpa [hj, pushed, setQueue] using h.queued j
    · intro j hj
      rcases List.mem_append.mp hj with hj | hj
      · exact h.resolves j hj
      · rw [List.mem_singleton.mp hj]
        exact hresolves

/-! ### Changing threads -/

/-- `switch_to_thread` -/
theorem Shows.switchToThread (h : Shows s a) (hne : next ≠ a.current)
    (hbegun : a.status next ≠ .none ∧ a.status next ≠ .new) :
    Shows (s.switchToThread next) (a.enter next) := by
  have hset := h.setState next .running fun hzero => absurd hzero (h.objectId_ne hbegun)
  unfold Sched.switchToThread
  rw [h.current]
  dsimp only
  rw [if_neg hne]
  exact { hset with current := rfl }

/-- The end of `scdk_yield`: the current thread leaves, and the next one enters. -/
theorem Shows.handOver (h : Shows s a) (hne : next ≠ a.current)
    (hbegun : a.status next ≠ .none ∧ a.status next ≠ .new)
    (hqueue : a.status a.current = .running → a.driver ≠ some a.current →
      a.current ∉ a.queue ∧ a.queue.length < maxThreads ∧
        s.slotForCap (s.threads a.current).cap = .ok a.current) :
    ∃ s', s.handOver a.current next = (.switched, s') ∧ Shows s' (a.leave.enter next) := by
  unfold Sched.handOver Coop.leave
  rw [h.status, h.driver]
  by_cases hrunning : a.status a.current = .running
  · have hcur : a.status a.current ≠ .none ∧ a.status a.current ≠ .new := by
      simp [hrunning]
    have hset : ∀ state, Shows (s.setState a.current state)
        { a with status := Function.update a.status a.current state } :=
      fun state => h.setState _ _ fun hzero => absurd hzero (h.objectId_ne hcur)
    have hnext : ∀ state, Function.update a.status a.current state next ≠ .none ∧
        Function.update a.status a.current state next ≠ .new := by
      intro state
      rw [Function.update_of_ne hne]
      exact hbegun
    rw [if_pos hrunning, if_pos hrunning]
    by_cases hdriver : a.driver = some a.current
    · rw [if_pos hdriver, if_pos hdriver]
      exact ⟨_, rfl, (hset .blocked).switchToThread hne (hnext .blocked)⟩
    · obtain ⟨hnot, hroom, hresolves⟩ := hqueue hrunning hdriver
      have hsame := sameRecords_setState s a.current .ready
      obtain ⟨s', hrun, hs'⟩ := (hset .ready).enqueue (i := a.current) (Function.update_self _ _ _)
        hnot hroom (by rw [hsame.slotForCap, hsame.cap]; exact hresolves)
      rw [if_neg hdriver, if_neg hdriver, hrun]
      exact ⟨_, rfl, hs'.switchToThread hne (hnext .ready)⟩
  · rw [if_neg hrunning, if_neg hrunning]
    exact ⟨_, rfl, h.switchToThread hne hbegun⟩

/-- The queue has a place for a thread that is not in it. -/
theorem length_lt_of_not_mem {l : List (Fin maxThreads)} (hnodup : l.Nodup) (hi : i ∉ l) :
    l.length < maxThreads := by
  have hle := (List.nodup_cons.mpr ⟨hi, hnodup⟩).length_le_card
  rw [Fintype.card_fin, List.length_cons] at hle
  exact hle

/-- `scdk_yield` -/
theorem Shows.yield (h : Shows s a) (hnodup : a.queue.Nodup)
    (hready : ∀ i ∈ a.queue, a.status i = .ready) (hcur : a.current ∉ a.queue)
    (hlive : a.status a.current = .running → a.driver ≠ some a.current → a.successor ≠ none →
      s.slotForCap (s.threads a.current).cap = .ok a.current) :
    ∃ e s', s.yield = (e, s') ∧ e ≠ .refused ∧ Shows s' a.yield := by
  unfold Sched.yield Coop.yield
  rw [h.current]
  dsimp only
  rw [h.initialized, if_neg (by decide), h.core]
  cases hq : a.queue with
  | nil =>
    -- Nobody waits: only the blocked driver may go on.
    have hsucc : a.successor = s.blockedDriver a.current := by
      unfold Coop.successor blockedDriver
      rw [hq, h.driver]
      simp only [h.status]
    rw [h.dequeue_nil hq, hsucc]
    dsimp only
    cases hnext : s.blockedDriver a.current with
    | none => exact ⟨_, _, rfl, by decide, h⟩
    | some next =>
      rcases Coop.successor_eq_some (hsucc.trans hnext) with ⟨rest, hcons⟩ | ⟨_, _, hne, hblocked⟩
      · rw [hq] at hcons
        cases hcons
      · have hover := h.handOver (Ne.symm hne) (by simp [hblocked]) fun hrunning hdriver =>
          ⟨hcur, length_lt_of_not_mem hnodup hcur,
            hlive hrunning hdriver (by rw [hsucc, hnext]; simp)⟩
        obtain ⟨s', hrun, hs'⟩ := hover
        rw [Coop.take_nil hq]
        exact ⟨_, _, hrun, by decide, hs'⟩
  | cons next rest =>
    -- The head of the queue goes on, and the current thread is queued behind.
    have hmem : next ∈ a.queue := by
      rw [hq]
      exact List.mem_cons_self
    have hsucc : a.successor = some next := by
      simp [Coop.successor, hq]
    obtain ⟨s₁, hdequeue, hs₁, hsame⟩ := h.dequeue_cons hq hnodup (hready next hmem)
    rw [hdequeue, hsucc]
    rw [Coop.take_cons hq] at hs₁ ⊢
    have hnot : a.current ∉ rest := fun hrest => hcur (by rw [hq]; exact List.mem_cons_of_mem _ hrest)
    have hrest := (List.nodup_cons.mp (hq ▸ hnodup)).2
    have hover := hs₁.handOver (fun heq : next = a.current => hcur (heq ▸ hmem))
      (by simp [hready next hmem]) fun hrunning hdriver =>
        ⟨hnot, length_lt_of_not_mem hrest hnot, by
          rw [hsame.slotForCap, hsame.cap]
          exact hlive hrunning hdriver (by rw [hsucc]; simp)⟩
    obtain ⟨s', hrun, hs'⟩ := hover
    exact ⟨_, _, hrun, by decide, hs'⟩

/-! ### The calls of a thread -/

theorem Shows.setPc (h : Shows s a) (i : Fin maxThreads) (pc : ThreadPc) :
    Shows (s.setPc i pc) { a with pc := Function.update a.pc i pc } := by
  refine { h with pc := ?_ }
  show Function.update s.pcs i pc = _
  rw [h.pc]

theorem Shows.emit (h : Shows s a) (ev : SchedEvent (Fin maxThreads)) :
    Shows (s.emit ev) { a with events := a.events ++ [ev] } :=
  { h with events := congrArg (· ++ [ev]) h.events }

/-- The end of a thread. -/
theorem Shows.exitThread (h : Shows s a) {boot : Fin maxThreads} (hok : a.Ok boot)
    (hcur : a.current ∉ a.queue) :
    ∃ e s', s.exitThread = (e, s') ∧ e ≠ .refused ∧ Shows s' a.exit := by
  have hrunning : a.status a.current = .running := (hok.running _).mpr rfl
  have hdie : Shows (((s.setState a.current .dead).setPc a.current .exited).emit
      (.exited a.current)) a.die :=
    ((h.setState _ _ fun hzero => absurd hzero (h.objectId_ne (by simp [hrunning]))).setPc _ _).emit _
  have hdead : a.die.status a.die.current = .dead := Function.update_self _ _ _
  unfold Sched.exitThread
  rw [h.current]
  refine hdie.yield hok.nodup ?_ hcur ?_
  · intro i hi
    have hne : i ≠ a.current := fun heq => hcur (heq ▸ hi)
    have hready : a.status i = .ready := (hok.ready i).mpr hi
    simpa [Coop.die, hne] using hready
  · intro hrunning'
    rw [hdead] at hrunning'
    cases hrunning'

/-- The beginning of `scdk_scheduler_run` -/
theorem Shows.runBegin (h : Shows s a) : Shows s.runBegin a.run := by
  have hdriver : Shows { s with schedulerDriverSlot := some a.current }
      { a with driver := some a.current } := { h with driver := rfl }
  have hrun : s.runBegin =
      Sched.setPc { s with schedulerDriverSlot := some a.current } a.current .loop := by
    simp [Sched.runBegin, h.current, h.initialized]
  rw [hrun]
  exact hdriver.setPc a.current .loop

/-- The loop of `scdk_scheduler_run`, in the driver: it ends when the queue is empty. -/
theorem Shows.runLoop (h : Shows s a) {boot : Fin maxThreads} (hok : a.Ok boot)
    (hcur : a.current ∉ a.queue) (hdriver : a.driver = some a.current) :
    ∃ e s', s.runLoop = (e, s') ∧
      ((a.queue = [] ∧ e = .returned ∧ Shows s' a.finish) ∨
        (a.queue ≠ [] ∧ (∃ y, e = .yielded y ∧ y ≠ .refused) ∧ Shows s' a.yield)) := by
  have hrunning : a.status a.current = .running := (hok.running _).mpr rfl
  unfold Sched.runLoop
  rw [h.current, h.driver, hdriver]
  dsimp only
  rw [h.core, h.count_eq]
  by_cases hq : a.queue = []
  · have hnone : Shows { s with schedulerDriverSlot := none } { a with driver := none } :=
      { h with driver := rfl }
    rw [if_pos (by rw [hq]; rfl), h.status, if_neg (by simp [hrunning])]
    exact ⟨_, _, rfl, .inl ⟨hq, rfl, hnone.setPc a.current .body⟩⟩
  · have hlen : a.queue.length ≠ 0 := fun hzero => hq (List.eq_nil_of_length_eq_zero hzero)
    obtain ⟨e, s', hyield, he, hs'⟩ := h.yield hok.nodup (fun i hi => (hok.ready i).mpr hi) hcur
      fun _ hnot => absurd hdriver hnot
    rw [if_neg hlen, hyield]
    exact ⟨_, _, rfl, .inr ⟨hq, ⟨e, rfl, he⟩, hs'⟩⟩

/-- `scdk_thread_start` -/
theorem Shows.startThread (h : Shows s a) {boot : Fin maxThreads} (hok : a.Ok boot) (t : UInt64) :
    ∃ r s', s.startThread t = (r, s') ∧
      (Shows s' a ∨ ∃ i, a.status i = .new ∧ Shows s' (a.start i)) := by
  unfold Sched.startThread
  split
  · exact ⟨_, _, rfl, .inl h⟩
  split
  · exact ⟨_, _, rfl, .inl h⟩
  next i hslot =>
  split
  · exact ⟨_, _, rfl, .inl h⟩
  split
  · exact ⟨_, _, rfl, .inl h⟩
  next hnew =>
  rw [not_not, h.status] at hnew
  have hnot : i ∉ a.queue := by
    rw [← hok.ready, hnew]
    decide
  have hcap := h.sole t i hslot
  have hsame := sameRecords_setState s i .ready
  have hset := h.setState i .ready fun hzero =>
    absurd hzero (objectId_ne_of_slot h.wf hslot)
  obtain ⟨s', hrun, hs'⟩ := hset.enqueue (i := i) (Function.update_self _ _ _) hnot
    (length_lt_of_not_mem hok.nodup hnot) (by rw [hsame.slotForCap, hsame.cap, hcap]; exact hslot)
  rw [hrun]
  have hstarted := hs'.emit (.started i)
  rw [List.append_assoc] at hstarted
  exact ⟨_, _, rfl, .inr ⟨i, hnew, hstarted⟩⟩

/-! ### New threads -/

/-- The tables have grown by something else than a thread. -/
theorem Shows.grown (h : Shows s a) {type : UInt32} {payload : Payload} {o : ObjectTable}
    {c : CapTable} {tasks : TaskTable} (hgrown : TablesGrown type payload s.objects s.caps o c)
    (hpayload : ∀ i, payload ≠ .thread i) :
    Shows { s with objects := o, caps := c, tasks := tasks } a := by
  have hwf := hgrown.wf h.wf
  refine { h with wf := hwf, resolves := ?_, sole := ?_ }
  · intro i hi
    obtain ⟨j, ht, hj⟩ := (threadSlotForCap_eq_ok h.wf).mp (h.resolves i hi)
    obtain ⟨htoken, hj'⟩ := hj.grown h.wf hgrown rfl
    exact (threadSlotForCap_eq_ok hwf).mpr ⟨j, ht.trans htoken.symm, hj'⟩
  · intro t i ht
    obtain ⟨j, rfl, hj⟩ := (threadSlotForCap_eq_ok hwf).mp ht
    rcases hj.grown_cases h.wf hgrown with ⟨htoken, hold⟩ | ⟨hthread, _⟩
    · have := h.sole _ i ((threadSlotForCap_eq_ok h.wf).mpr ⟨j, rfl, hold rfl⟩)
      exact this.trans htoken.symm
    · exact absurd hthread (hpayload i)

/-- `scdk_task_create` -/
theorem Shows.createTask (h : Shows s a) (ownerCore : UInt32) (addressSpace : UInt64) :
    Shows (s.createTask ownerCore addressSpace).2 a := by
  unfold Sched.createTask
  rcases hrun : taskCreate s.objects s.caps s.tasks ownerCore addressSpace with ⟨r, o, c, tasks⟩
  obtain ⟨i, hgrown⟩ := taskCreate_grown hrun
  exact h.grown hgrown nofun

/-- What a creation leaves of the tables, in terms of what they were before. -/
theorem added_grown {o o' : ObjectTable} {c c' : CapTable} {threads threads' : ThreadTable}
    (h : ThreadAdded o c threads o' c' threads') :
    threads' = threads ∧ o' = o ∧ c' = c ∨
      ∃ i slot, threads' = Function.update threads i slot ∧ (threads i).objectId = 0 ∧
        slot.IsNew ∧ TablesGrown ObjType.thread (.thread i) o c o' c' := by
  cases h with
  | same => exact .inl ⟨rfl, rfl, rfl⟩
  | undone hfree hnew _ hobject => exact .inr ⟨_, _, rfl, hfree, hnew, .object hobject⟩
  | made hfree hnew _ hobject hob hocc _ =>
    exact .inr ⟨_, _, rfl, hfree, hnew, .token hobject hob (by decide) hocc⟩

/-- In the new tables too, a thread has only the token of its record. -/
theorem added_sole {o o' : ObjectTable} {c c' : CapTable} {threads threads' : ThreadTable}
    (hadded : ThreadAdded o c threads o' c' threads') (hwf : TablesWf o c)
    (hsole : ∀ t i, threadSlotForCap o c threads t = .ok i → (threads i).cap = t) {j : Fin maxCaps}
    {i : Fin maxThreads} (hj : IsToken o' c' threads' j i) : (threads' i).cap = c'.token j := by
  have hold : ∀ {j i}, IsToken o c threads j i → (threads i).cap = c.token j :=
    fun hj => hsole _ _ ((threadSlotForCap_eq_ok hwf).mpr ⟨_, rfl, hj⟩)
  cases hadded with
  | same => exact hold hj
  | @undone _ _ i₀ id _ slot hfree hnew hid hobject =>
    rcases hj.grown_cases hwf (.object hobject) with ⟨_, hbefore⟩ | ⟨_, hfresh⟩
    · by_cases hi : i = i₀
      · -- The record was freed again, so no token is for it.
        subst hi
        have hslot := hj.slot
        rw [Function.update_self, hid] at hslot
        exact absurd hslot.symm (CapTable.occupied_iff.mp hj.occupied).1
      · rw [Function.update_of_ne hi]
        exact hold (hbefore (by rw [Function.update_of_ne hi]))
    · obtain ⟨ob, hob, _⟩ := hwf.object j hj.occupied
      exact absurd hob (hfresh ob)
  | @made _ _ i₀ id _ slot ob j₀ hfree hnew hid hobject hob hocc hcap =>
    by_cases hjj : j = j₀
    · -- The new token is for the new object, which has the new record.
      obtain ⟨_, hob'⟩ := objectLookup_of_objectCreate hwf.objects hobject
      obtain rfl := Except.ok.inj (hob'.symm.trans hob)
      obtain ⟨ob', hob', hpayload⟩ := hj.object
      rw [hjj, CapTable.mintSlot_entry_self, hob] at hob'
      obtain rfl := Except.ok.inj hob'
      obtain rfl : i₀ = i := Payload.thread.inj hpayload
      rw [Function.update_self, hjj]
      exact hcap
    · -- An older token is for an older object, and its record is in another slot.
      have hbefore : c.occupied j = true := by
        rw [← CapTable.mintSlot_occupied_ne c j₀ ob threadRights hjj]
        exact hj.occupied
      obtain ⟨ob₁, hob₁, _⟩ := hwf.object j hbefore
      have hslot := hj.slot
      rw [CapTable.mintSlot_entry_ne _ _ _ _ hjj] at hslot
      have hi : i ≠ i₀ := by
        rintro rfl
        rw [Function.update_self, hid] at hslot
        exact objectLookup_fresh hwf.objects hobject ob₁ (hslot ▸ hob₁)
      rcases hj.grown_cases hwf (.token hobject hob (by decide) hocc) with ⟨htoken, htok⟩ | ⟨hpayload, _⟩
      · rw [Function.update_of_ne hi, htoken]
        exact hold (htok (by rw [Function.update_of_ne hi]))
      · exact absurd (Payload.thread.inj hpayload).symm hi

/-- `scdk_thread_create` -/
theorem Shows.createThread (h : Shows s a) (hready : ∀ i ∈ a.queue, a.status i = .ready)
    (task entry arg : UInt64) (stack : Option UInt64) :
    ∃ r s', s.createThread task entry arg stack = (r, s') ∧
      ThreadAdded s.objects s.caps s.threads s'.objects s'.caps s'.threads ∧
      (Shows s' a ∨ ∃ i, (a.status i = .none ∨ a.status i = .new) ∧ Shows s' (a.create i)) := by
  unfold Sched.createThread
  rcases hrun : threadCreate s.objects s.caps s.tasks s.threads task entry arg stack with
    ⟨r, o, c, tasks, threads⟩
  have hadded := threadCreate_added hrun
  refine ⟨_, _, rfl, hadded, ?_⟩
  have hsole := fun j i => added_sole (j := j) (i := i) hadded h.wf h.sole
  -- A creation that fails may leave an object behind, but no record.
  rcases added_grown hadded with ⟨rfl, rfl, rfl⟩ | ⟨i, slot, rfl, hzero, hnew, hgrown⟩
  · left
    exact { h with }
  · right
    have hwf := hgrown.wf h.wf
    have hfree := h.free i hzero
    -- The slot was free, so no thread of the queue is in it.
    have hnot : i ∉ a.queue := by
      intro hi
      rw [hready i hi] at hfree
      rcases hfree with hs | hs <;> cases hs
    have hne : ∀ {j}, j ∈ a.queue → j ≠ i := fun hj heq => hnot (heq ▸ hj)
    refine ⟨i, hfree, { h with
      wf := hwf
      status := ?_
      core := ?_
      items := ?_
      queued := ?_
      resolves := ?_
      sole := ?_
      free := ?_ }⟩
    · intro j
      by_cases hji : j = i
      · simp [hji, Coop.create, hnew.state]
      · simpa [hji, Coop.create] using h.status j
    · intro j
      by_cases hji : j = i
      · simp [hji, hnew.ownerCore]
      · simpa [hji] using h.core j
    · refine h.items.trans (List.map_congr_left fun j hj => ?_)
      simp [hne hj]
    · intro j
      by_cases hji : j = i
      · simp [hji, Coop.create, hnew.queued, hnot]
      · simpa [hji, Coop.create] using h.queued j
    · intro j hj
      obtain ⟨k, ht, hk⟩ := (threadSlotForCap_eq_ok h.wf).mp (h.resolves j hj)
      have hsame : Function.update s.threads i slot j = s.threads j :=
        Function.update_of_ne (hne hj) _ _
      obtain ⟨htoken, hk'⟩ : c.token k = s.caps.token k ∧
          IsToken o c (Function.update s.threads i slot) k j := hk.grown h.wf hgrown (by rw [hsame])
      refine (threadSlotForCap_eq_ok hwf).mpr ⟨k, ?_, hk'⟩
      dsimp only
      rw [hsame, htoken]
      exact ht
    · intro t j ht
      obtain ⟨k, rfl, hk⟩ := (threadSlotForCap_eq_ok hwf).mp ht
      exact hsole k j hk
    · intro j hj
      by_cases hji : j = i
      · simp [hji, Coop.create]
      · simpa [hji, Coop.create] using h.free j (by simpa [hji] using hj)

/-! ### Revoking a token -/

/-- `scdk_cap_revoke`, of a token that is not in the queue -/
theorem Shows.revoke (h : Shows s a) {cap : UInt64}
    (hcap : ∀ i ∈ a.queue, (s.threads i).cap ≠ cap) : Shows (s.revoke cap).2 a := by
  unfold Sched.revoke
  rcases capRevoke_cases h.wf cap with ⟨e, _, hrun⟩ | ⟨k, hocc, rfl, hrun⟩
  · rw [hrun]
    exact { h with }
  · rw [hrun]
    have hwf := tablesWf_revokeSlot h.wf k
    refine { h with wf := hwf, resolves := ?_, sole := ?_ }
    · intro i hi
      obtain ⟨j, ht, hj⟩ := (threadSlotForCap_eq_ok h.wf).mp (h.resolves i hi)
      have hjk : j ≠ k := fun heq => hcap i hi (heq ▸ ht)
      obtain ⟨htoken, hj'⟩ := hj.revoked hjk
      exact (threadSlotForCap_eq_ok hwf).mpr ⟨j, ht.trans htoken.symm, hj'⟩
    · intro t i ht
      obtain ⟨j, rfl, hj⟩ := (threadSlotForCap_eq_ok hwf).mp ht
      obtain ⟨hjk, hj'⟩ := hj.of_revoked
      rw [CapTable.revokeSlot_token_ne _ _ hjk]
      exact h.sole _ i ((threadSlotForCap_eq_ok h.wf).mpr ⟨j, rfl, hj'⟩)

end shows

/-! ## Tokens in force -/

section live

variable {s s' : Sched} {a : Coop (Fin maxThreads)} {i : Fin maxThreads}

/-- No token of a thread was revoked. -/
def TokensLive (o : ObjectTable) (c : CapTable) (threads : ThreadTable) : Prop :=
  ∀ i, (threads i).objectId ≠ 0 → ∃ j, (threads i).cap = c.token j ∧ IsToken o c threads j i

def Live (s : Sched) : Prop := TokensLive s.objects s.caps s.threads

theorem Live.slotForCap (h : Live s) (hwf : TablesWf s.objects s.caps)
    (hi : (s.threads i).objectId ≠ 0) : s.slotForCap (s.threads i).cap = .ok i :=
  (threadSlotForCap_eq_ok hwf).mpr (h i hi)

theorem SameRecords.refl (s : Sched) : SameRecords s s :=
  ⟨rfl, rfl, rfl, fun _ => rfl, fun _ => rfl, fun _ => rfl⟩

theorem SameRecords.live (h : SameRecords s s') (hlive : Live s) : Live s' := by
  intro i hi
  rw [h.objectId] at hi
  obtain ⟨j, hcap, hj⟩ := hlive i hi
  rw [h.objects, h.caps, h.cap]
  exact ⟨j, hcap, hj.occupied, hj.grants, hj.object, (h.objectId i).trans hj.slot⟩

theorem sameRecords_setPc (s : Sched) (i : Fin maxThreads) (pc : ThreadPc) :
    SameRecords s (s.setPc i pc) :=
  ⟨rfl, rfl, rfl, fun _ => rfl, fun _ => rfl, fun _ => rfl⟩

theorem sameRecords_enqueueThread (s : Sched) (i : Fin maxThreads) :
    SameRecords s (s.enqueueThread i).2 := by
  unfold enqueueThread
  dsimp only
  split
  · exact .refl s
  split
  · exact .refl s
  split
  · exact .refl s
  · exact ((sameRecords_setQueue s _ _).trans (sameRecords_setQueued _ i true)).emit _

theorem sameRecords_dequeueLoop (core : UInt32) (count : Nat) (s : Sched) :
    SameRecords s (dequeueLoop core count s).2 := by
  induction count generalizing s with
  | zero => exact .refl s
  | succ count ih =>
    unfold dequeueLoop
    dsimp only
    have hpop := sameRecords_setQueue s core (s.runQueues core).pop
    split
    · exact hpop.trans (ih _)
    · next i _ =>
      have htaken := hpop.trans (sameRecords_setQueued _ i false)
      split
      · exact htaken.emit _
      · exact htaken.trans (ih _)

theorem sameRecords_switchToThread (s : Sched) (next : Fin maxThreads) :
    SameRecords s (s.switchToThread next) := by
  unfold switchToThread
  split
  · exact .refl s
  split
  · exact .refl s
  · have h := sameRecords_setState s next .running
    exact ⟨h.objects, h.caps, h.initialized, h.objectId, h.cap, h.ownerCore⟩

theorem sameRecords_handOver (s : Sched) (old next : Fin maxThreads) :
    SameRecords s (s.handOver old next).2 := by
  unfold handOver
  split
  · split
    · exact (sameRecords_setState s old .blocked).trans (sameRecords_switchToThread _ next)
    · have hready := sameRecords_setState s old .ready
      have henqueue := hready.trans (sameRecords_enqueueThread _ old)
      split
      · next hrun =>
        rw [hrun] at henqueue
        exact henqueue.trans (sameRecords_setState _ old .running)
      · next hrun =>
        rw [hrun] at henqueue
        exact henqueue.trans (sameRecords_switchToThread _ next)
  · exact sameRecords_switchToThread s next

theorem sameRecords_yield (s : Sched) : SameRecords s s.yield.2 := by
  unfold Sched.yield
  split
  · exact .refl s
  split
  · exact .refl s
  next old _ _ =>
  have hdequeue : SameRecords s (s.dequeueThread (s.threads old).ownerCore).2 :=
    sameRecords_dequeueLoop _ _ s
  split
  · next hrun =>
    rw [hrun] at hdequeue
    exact hdequeue.trans (sameRecords_handOver _ _ _)
  · next hrun =>
    rw [hrun] at hdequeue
    split
    · exact hdequeue.trans (sameRecords_handOver _ _ _)
    · exact hdequeue

theorem sameRecords_startThread (s : Sched) (thread : UInt64) :
    SameRecords s (s.startThread thread).2 := by
  unfold Sched.startThread
  split
  · exact .refl s
  split
  · exact .refl s
  split
  · exact .refl s
  split
  · exact .refl s
  next i _ _ _ =>
  have henqueue := (sameRecords_setState s i .ready).trans (sameRecords_enqueueThread _ i)
  split
  · next hrun =>
    rw [hrun] at henqueue
    exact henqueue.emit _
  · next hrun =>
    rw [hrun] at henqueue
    exact henqueue.trans (sameRecords_setState _ i .new)

theorem sameRecords_exitThread (s : Sched) : SameRecords s s.exitThread.2 := by
  unfold Sched.exitThread
  split
  · exact .refl s
  · next i _ =>
    have hdie := (((sameRecords_setState s i .dead).trans (sameRecords_setPc _ i .exited)).emit
      (.exited i))
    exact hdie.trans (sameRecords_yield _)

theorem sameRecords_driver (s : Sched) (driver : Option (Fin maxThreads)) :
    SameRecords s { s with schedulerDriverSlot := driver } :=
  ⟨rfl, rfl, rfl, fun _ => rfl, fun _ => rfl, fun _ => rfl⟩

theorem sameRecords_runBegin (s : Sched) : SameRecords s s.runBegin := by
  unfold Sched.runBegin
  split
  · exact .refl s
  split
  · exact .refl s
  · exact (sameRecords_driver s _).trans (sameRecords_setPc _ _ _)

theorem sameRecords_runLoop (s : Sched) : SameRecords s s.runLoop.2 := by
  unfold Sched.runLoop
  split
  · next i d _ _ =>
    split
    · have hstate : SameRecords s
          (if (s.threads d).state = .blocked then s.setState d .running else s) := by
        split
        · exact sameRecords_setState s d .running
        · exact .refl s
      exact (hstate.trans (sameRecords_driver _ none)).trans (sameRecords_setPc _ i .body)
    · exact sameRecords_yield s
  · exact .refl s

/-- The tokens of the threads whose records stay are in force in larger tables. -/
theorem TokensLive.grown {o o' : ObjectTable} {c c' : CapTable} {threads threads' : ThreadTable}
    (h : TokensLive o c threads) (hwf : TablesWf o c) {type : UInt32} {payload : Payload}
    (hgrown : TablesGrown type payload o c o' c') (hsame : threads' i = threads i)
    (hi : (threads' i).objectId ≠ 0) :
    ∃ j, (threads' i).cap = c'.token j ∧ IsToken o' c' threads' j i := by
  rw [hsame] at hi ⊢
  obtain ⟨j, hcap, hj⟩ := h i hi
  obtain ⟨htoken, hj'⟩ : c'.token j = c.token j ∧ IsToken o' c' threads' j i :=
    hj.grown hwf hgrown (by rw [hsame])
  exact ⟨j, hcap.trans htoken.symm, hj'⟩

theorem Live.createTask (hlive : Live s) (hwf : TablesWf s.objects s.caps) (ownerCore : UInt32)
    (addressSpace : UInt64) : Live (s.createTask ownerCore addressSpace).2 := by
  unfold Sched.createTask
  rcases hrun : taskCreate s.objects s.caps s.tasks ownerCore addressSpace with ⟨r, o, c, tasks⟩
  obtain ⟨_, hgrown⟩ := taskCreate_grown hrun
  exact fun i hi => TokensLive.grown hlive hwf hgrown rfl hi

/-- The token of a new thread is in force. -/
theorem TokensLive.added {o o' : ObjectTable} {c c' : CapTable} {threads threads' : ThreadTable}
    (h : TokensLive o c threads) (hwf : TablesWf o c)
    (hadded : ThreadAdded o c threads o' c' threads') : TokensLive o' c' threads' := by
  intro i hi
  cases hadded with
  | same => exact h i hi
  | @undone _ _ i₀ _ _ slot _ _ hid hobject =>
    have hne : i ≠ i₀ := by
      rintro rfl
      rw [Function.update_self] at hi
      exact hi hid
    exact h.grown hwf (.object hobject) (Function.update_of_ne hne _ _) hi
  | @made _ _ i₀ id _ slot ob j _ _ hid hobject hob hocc hcap =>
    have hgrown : TablesGrown ObjType.thread (.thread i₀) o c o' (c.mintSlot j ob threadRights) :=
      .token hobject hob (by decide) hocc
    by_cases hne : i = i₀
    · subst hne
      obtain ⟨g, hob'⟩ := objectLookup_of_objectCreate hwf.objects hobject
      obtain rfl := Except.ok.inj (hob'.symm.trans hob)
      have hwf' : TablesWf o' c := TablesGrown.wf (.object hobject) hwf
      refine ⟨j, by rw [Function.update_self]; exact hcap, ?_, ?_, ?_, ?_⟩
      · exact CapTable.mintSlot_occupied_self hwf'.objects c j threadRights hob
      · rw [CapTable.mintSlot_entry_self]
        exact ⟨.inr rfl, show threadRights &&& Right.read = Right.read by decide⟩
      · rw [CapTable.mintSlot_entry_self]
        exact ⟨_, hob, rfl⟩
      · rw [CapTable.mintSlot_entry_self, Function.update_self]
        exact hid
    · exact h.grown hwf hgrown (Function.update_of_ne hne _ _) hi

/-- Revoking a token of something else than a thread. -/
theorem Live.revoke (hlive : Live s) (hwf : TablesWf s.objects s.caps) {cap : UInt64}
    (hcap : ∀ entry, capLookup s.objects s.caps cap = .ok entry →
      entry.objectType ≠ ObjType.thread) : Live (s.revoke cap).2 := by
  unfold Sched.revoke
  rcases capRevoke_cases hwf cap with ⟨e, _, hrun⟩ | ⟨k, hocc, rfl, hrun⟩
  · rw [hrun]
    exact hlive
  · rw [hrun]
    have htype := hcap _ ((capLookup_eq_ok hwf).mpr ⟨k, hocc, rfl, rfl⟩)
    intro i hi
    obtain ⟨j, hjcap, hj⟩ := hlive i hi
    have hjk : j ≠ k := by
      rintro rfl
      rcases hj.grants.1 with hnone | hthread
      · cases hnone
      · exact htype hthread
    obtain ⟨htoken, hj'⟩ := hj.revoked hjk
    exact ⟨j, hjcap.trans htoken.symm, hj'⟩

/-! ## The first thread -/

/-- No thread has begun. -/
def noThread (boot : Fin maxThreads) : Coop (Fin maxThreads) :=
  ⟨fun _ => .none, [], boot, none, fun _ => .body, []⟩

/-- Before the first thread is made, the tables show no thread that has begun. -/
theorem shows_noThread {s₀ : Sched} (h : SchedStart s₀) (boot : Fin maxThreads) :
    Shows { s₀ with currentThreadSlot := some boot, initialized := true } (noThread boot) where
  wf := h.wf
  initialized := rfl
  current := rfl
  driver := h.schedulerDriverSlot
  status := fun i => by rw [h.threads]; rfl
  pc := funext h.pcs
  events := h.events
  core := fun i => by rw [h.threads]; rfl
  fifo := by
    obtain ⟨hhead, htail, hcount⟩ := h.runQueues bootCore
    refine ⟨?_, by simp [hcount]⟩
    rw [hcount, Fifo.cell_zero, hhead]
    exact htail
  items := by
    apply List.eq_nil_of_length_eq_zero
    rw [Fifo.length_items]
    exact (h.runQueues bootCore).2.2
  queued := fun i => by
    rw [h.threads]
    exact ⟨nofun, nofun⟩
  resolves := nofun
  sole := fun t i ht => absurd (by rw [h.threads]; rfl) (objectId_ne_of_slot h.wf ht)
  free := fun _ _ => .inl rfl

/-- `scdk_scheduler_init`: there is one thread, and it runs. -/
theorem schedulerInit_shows {s₀ : Sched} {boot : Fin maxThreads} (hstart : SchedStart s₀)
    (hrun : s₀.schedulerInit = (.ok (), s)) (hboot : s.currentThreadSlot = some boot) :
    ∃ a, Shows s a ∧ a.Ok boot ∧ a.driver = none ∧ Live s := by
  have h₀ := shows_noThread hstart boot
  have hlive₀ : TokensLive s₀.objects s₀.caps s₀.threads := by
    intro i hi
    exact absurd (by rw [hstart.threads]; rfl) hi
  -- The task of the kernel comes first, then its thread, then the state of the thread.
  unfold schedulerInit Sched.createTask at hrun
  rw [if_neg (by rw [hstart.initialized]; decide)] at hrun
  rcases htask : taskCreate s₀.objects s₀.caps s₀.tasks bootCore 0 with ⟨r₁, o₁, c₁, tasks₁⟩
  rw [htask] at hrun
  obtain ⟨_, hgrown⟩ := taskCreate_grown htask
  have h₁ : Shows { s₀ with
      currentThreadSlot := some boot
      initialized := true
      objects := o₁
      caps := c₁
      tasks := tasks₁ } (noThread boot) :=
    h₀.grown hgrown nofun
  have hlive₁ : TokensLive o₁ c₁ s₀.threads :=
    fun i hi => hlive₀.grown hstart.wf hgrown rfl hi
  cases r₁ with
  | error e => cases hrun
  | ok bootTask =>
    dsimp only [Sched.createThread] at hrun
    rcases hthread : threadCreate o₁ c₁ tasks₁ s₀.threads bootTask 0 0 none with
      ⟨r₂, o₂, c₂, tasks₂, threads₂⟩
    obtain ⟨r₂', s₂, hcreate, hadded, h₂⟩ := h₁.createThread nofun bootTask 0 0 none
    unfold Sched.createThread at hcreate
    dsimp only at hcreate
    rw [hthread] at hrun hcreate
    obtain ⟨_, rfl⟩ := Prod.mk.inj hcreate
    have hlive₂ := hlive₁.added h₁.wf hadded
    cases r₂ with
    | error e => cases hrun
    | ok bootThread =>
      dsimp only at hrun
      split at hrun
      · cases hrun
      next i hslot =>
      obtain ⟨_, rfl⟩ := Prod.mk.inj hrun
      obtain rfl : i = boot := Option.some.inj hboot
      -- The thread table shows the new thread, or none yet.
      obtain ⟨status, hstatus, h₂⟩ : ∃ status, (∀ j, status j = .none ∨ status j = .new) ∧
          Shows _ { noThread i with status := status } := by
        rcases h₂ with h₂ | ⟨j, _, h₂⟩
        · exact ⟨_, fun _ => .inl rfl, h₂⟩
        · refine ⟨_, fun k => ?_, h₂⟩
          by_cases hk : k = j
          · simp [hk]
          · exact .inl (Function.update_of_ne hk _ _)
      have hset := h₂.setState i .running fun hzero => absurd hzero (objectId_ne_of_slot h₂.wf hslot)
      refine ⟨_, { hset with }, Coop.ok_first hstatus, rfl, ?_⟩
      exact (sameRecords_setState _ i .running).live hlive₂

end live

end Sched

end Scdk
