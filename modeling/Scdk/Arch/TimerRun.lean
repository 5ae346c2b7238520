import Scdk.Arch.Tables

/-! # Ticks of the timer

    What the devices and the tables do together once the timer is set up.

    * `outbAll_remapWrites`, `outbAll_loadWrites`: what `scdk_timer_init` sets the devices to,
      whatever state they were left in,
    * `Tally`: the ticks and the calls of the scheduler that a run should see, counted from
      its edges and its interrupts,
    * `Ticking.perform`: what one event does,
    * `ticks_exact`: the kernel counts every tick once, in every run. -/

namespace Scdk

/-! ## The devices -/

/-- The first controller as the timer leaves it: only line 0 gets through, as vector 32. -/
def Pic.forTimer (requested : Fin 8 → Bool) : Pic :=
  ⟨.mask, true, false, 0x20, 4, 1, 0xfe, requested, fun _ => false⟩

/-- The initialisation depends on nothing that was in the controller. -/
theorem outbAll_remapWrites (d : Devices) :
    (d.outbAll CpuTables.remapWrites).pic1 = .forTimer fun _ => false := by
  have hstart : ∀ p : Pic,
      ((((p.writeCommand 0x11).writeData 0x20).writeData 4).writeData 1).writeData 0xfe =
        .forTimer fun _ => false := fun _ => rfl
  exact hstart (d.pic1.writeData 0xff)

/-- The channel counts down from the divisor. -/
theorem outbAll_loadWrites (d : Devices) {divisor : UInt32} (hpos : 0 < divisor.toNat)
    (hword : divisor.toNat < 2 ^ 16) :
    (d.outbAll (CpuTables.loadWrites divisor)).pit = ⟨2, none, some divisor.toNat⟩ ∧
      (d.outbAll (CpuTables.loadWrites divisor)).pic1 = d.pic1 := by
  have hlow : (divisor &&& 0xff).toUInt8.toNat = divisor.toNat % 256 := by
    rw [UInt32.toNat_toUInt8, UInt32.toNat_and]
    show (divisor.toNat &&& (2 ^ 8 - 1)) % 256 = _
    rw [Nat.and_two_pow_sub_one_eq_mod]
    omega
  have hhigh : (divisor >>> 8 &&& 0xff).toUInt8.toNat = divisor.toNat / 256 := by
    rw [UInt32.toNat_toUInt8, UInt32.toNat_and, UInt32.toNat_shiftRight]
    show ((divisor.toNat >>> 8) &&& (2 ^ 8 - 1)) % 256 = _
    rw [Nat.and_two_pow_sub_one_eq_mod, Nat.shiftRight_eq_div_pow]
    omega
  refine ⟨?_, rfl⟩
  have hsum : (divisor &&& 0xff).toUInt8.toNat + 256 * (divisor >>> 8 &&& 0xff).toUInt8.toNat =
      divisor.toNat := by
    rw [hlow, hhigh]
    exact Nat.mod_add_div _ _
  have hpit : (d.outbAll (CpuTables.loadWrites divisor)).pit =
      ((Pit.mk 2 none none).writeChannel0 (divisor &&& 0xff).toUInt8).writeChannel0
        (divisor >>> 8 &&& 0xff).toUInt8 := rfl
  rw [hpit]
  simp only [Pit.writeChannel0, hsum, if_neg (Nat.ne_of_gt hpos)]

/-- The other lines are masked. -/
theorem Pic.offered_forTimer (requested : Fin 8 → Bool) :
    (Pic.forTimer requested).offered = if requested 0 = true then some 0 else none := by
  have hmasked : ∀ n : Fin 8, n ≠ 0 → (0xfe : UInt8).toNat.testBit n = true := by decide
  cases hzero : requested 0 with
  | true =>
    have hfirst : (List.finRange 8).find? (fun n => (Pic.forTimer requested).inService n ||
        (Pic.forTimer requested).requests n) = some 0 := by
      simp [List.finRange_succ, Pic.requests, Pic.forTimer, hzero]
    unfold Pic.offered
    rw [hfirst]
    rfl
  | false =>
    have hnone : ∀ n, (Pic.forTimer requested).requests n = false := by
      intro n
      by_cases hn : n = 0
      · simp [Pic.requests, Pic.forTimer, hn, hzero]
      · simp only [Pic.requests, Pic.forTimer, hmasked n hn, Bool.not_true, Bool.and_false]
    have hall : (List.finRange 8).find? (fun n => (Pic.forTimer requested).inService n ||
        (Pic.forTimer requested).requests n) = none := by
      simp only [hnone, List.find?_eq_none]
      simp [Pic.forTimer]
    unfold Pic.offered
    rw [hall]
    rfl

/-- An interrupt of the timer that was taken and ended leaves no trace but its request. -/
theorem Pic.endOfInterrupt_forTimer (requested : Fin 8 → Bool) :
    ((Pic.forTimer requested).acknowledge 0).writeCommand 0x20 =
      .forTimer (Function.update requested 0 false) := by
  have hserved : ((Pic.forTimer requested).acknowledge 0).served = some 0 := by
    simp [Pic.served, Pic.acknowledge, List.finRange_succ]
  have hcleared : Function.update (Function.update (fun _ : Fin 8 => false) 0 true) 0 false =
      fun _ => false := by
    simp
  have hcommand : ((Pic.forTimer requested).acknowledge 0).writeCommand 0x20 =
      ((Pic.forTimer requested).acknowledge 0).endOfInterrupt := rfl
  rw [hcommand]
  unfold Pic.endOfInterrupt
  rw [hserved]
  simp only [Pic.acknowledge, Pic.forTimer, hcleared]

/-! ## Runs -/

/-- What a run should see: whether a tick waits, whether the scheduler is asked, the ticks
    that were taken, and the calls of the scheduler. -/
structure Tally where
  pending : Bool
  enabled : Bool
  ticks : Nat
  yields : Nat
  deriving DecidableEq, Repr

/-- After an event. -/
def Tally.next (s : Tally) : TableEvent → Tally
  | .pulse line => if line = 0 then { s with pending := true } else s
  | .accept =>
    if s.pending = true then
      { s with
        pending := false
        ticks := s.ticks + 1
        yields := if s.enabled = true then s.yields + 1 else s.yields }
    else s
  | .enablePreemption => { s with enabled := true }
  | .disablePreemption => { s with enabled := false }
  | _ => s

/-- Counted from the start of the timer. -/
def tally (events : List TableEvent) : Tally := events.foldl Tally.next ⟨false, false, 0, 0⟩

/-- Nothing but the entry of the timer is installed for its vector. -/
def TableEvent.KeepsTimer (σ : Symbols) (e : TableEvent) : Prop :=
  ∀ handler, e = .installGate 32 handler → handler = 0 ∨ handler = σ.timerIrqEntry

/-- The timer runs at the frequency, and has seen what the tally says. -/
structure Ticking (σ : Symbols) (hz : UInt32) (yields : Nat) (s : Tally) (t : CpuTables) : Prop where
  initialized : t.timerInitialized = true
  faults : t.faultInitialized = true
  gate : (t.idt 32).handler = some σ.timerIrqEntry.toNat
  channel : t.devices.pit = ⟨2, none, some (1193182 / hz.toNat)⟩
  controller : ∃ requested, t.devices.pic1 = .forTimer requested ∧ requested 0 = s.pending
  enabled : t.preemptionEnabled = s.enabled
  ticks : t.ticks.toNat = s.ticks % 2 ^ 64
  yields : t.yields = yields + s.yields

section run

variable {σ : Symbols} {hz : UInt32} {y : Nat} {s : Tally} {t t' : CpuTables}

/-- Other parts of the tables do not matter. -/
theorem Ticking.of_same (h : Ticking σ hz y s t) (htimer : t'.timerInitialized = t.timerInitialized)
    (hfaults : t'.faultInitialized = t.faultInitialized)
    (hgate : (t'.idt 32).handler = (t.idt 32).handler) (hdevices : t'.devices = t.devices)
    (henabled : t'.preemptionEnabled = t.preemptionEnabled) (hticks : t'.ticks = t.ticks)
    (hyields : t'.yields = t.yields) : Ticking σ hz y s t' where
  initialized := htimer.trans h.initialized
  faults := hfaults.trans h.faults
  gate := hgate.trans h.gate
  channel := by rw [hdevices]; exact h.channel
  controller := by rw [hdevices]; exact h.controller
  enabled := henabled.trans h.enabled
  ticks := by rw [hticks]; exact h.ticks
  yields := hyields.trans h.yields

theorem Ticking.faultInit (h : Ticking σ hz y s t) : CpuTables.faultInit σ t = (.ok (), t) := by
  unfold CpuTables.faultInit Effect.modify
  dsimp only
  rw [if_pos h.faults]

theorem Ticking.pulse (h : Ticking σ hz y s t) (line : Fin 8) :
    Ticking σ hz y (s.next (.pulse line)) (CpuTables.pulse line t) := by
  obtain ⟨requested, hpic, hpending⟩ := h.controller
  have hpulse : (CpuTables.pulse line t).devices.pic1 =
      .forTimer (Function.update requested line true) := by
    unfold CpuTables.pulse
    rw [hpic]
    rfl
  by_cases hline : line = 0
  · subst hline
    exact { h with controller := ⟨_, hpulse, by simp [Tally.next]⟩ }
  · have hnext : s.next (.pulse line) = s := if_neg hline
    rw [hnext]
    exact { h with controller := ⟨_, hpulse, by simp [Ne.symm hline, hpending]⟩ }

/-- A tick that waits is taken and counted, and the next one can come. -/
theorem Ticking.accept (h : Ticking σ hz y s t) : Ticking σ hz y (s.next .accept) (t.accept σ) := by
  obtain ⟨requested, hpic, hpending⟩ := h.controller
  have hoffered : t.devices.pic1.offered = if s.pending = true then some 0 else none := by
    rw [hpic, Pic.offered_forTimer, hpending]
  cases hwaits : s.pending with
  | false =>
    have hnext : s.next .accept = s := by simp [Tally.next, hwaits]
    have hnone : t.devices.pic1.offered = none := by simpa [hwaits] using hoffered
    have hsame : t.accept σ = t := by
      unfold CpuTables.accept
      rw [hnone]
    rw [hnext, hsame]
    exact h
  | true =>
    have hsome : t.devices.pic1.offered = some 0 := by simpa [hwaits] using hoffered
    have hvector : t.devices.pic1.vector 0 = 32 := by
      have hplace : (0x20 ||| (0 : Fin 8).val.toUInt8 : UInt8) = 32 := by decide
      rw [hpic]
      exact hplace
    have hrun : t.accept σ = ({ t with devices :=
        { t.devices with pic1 := t.devices.pic1.acknowledge 0 } } : CpuTables).timerInterrupt := by
      unfold CpuTables.accept
      rw [hsome]
      dsimp only
      rw [hvector, if_pos h.gate]
    -- The handler ends the interrupt before it asks the scheduler.
    have hpic' : (t.devices.pic1.acknowledge 0).writeCommand 0x20 =
        .forTimer (Function.update requested 0 false) := by
      rw [hpic]
      exact Pic.endOfInterrupt_forTimer requested
    have hticks : (t.ticks + 1).toNat = (s.ticks + 1) % 2 ^ 64 := by
      rw [UInt64.toNat_add, h.ticks]
      exact (Nat.add_mod _ _ _).symm
    have henabled := h.enabled
    have hyields := h.yields
    rw [hrun]
    unfold CpuTables.timerInterrupt Tally.next
    rw [if_pos hwaits]
    dsimp only
    by_cases hon : t.preemptionEnabled = true
    · rw [if_pos hon, if_pos (henabled.symm.trans hon)]
      exact
        { initialized := h.initialized
          faults := h.faults
          gate := h.gate
          channel := h.channel
          controller := ⟨_, hpic', by simp⟩
          enabled := henabled
          ticks := hticks
          yields := by
            show t.yields + 1 = y + (s.yields + 1)
            omega }
    · rw [if_neg hon, if_neg (by rw [← henabled]; exact hon)]
      exact
        { initialized := h.initialized
          faults := h.faults
          gate := h.gate
          channel := h.channel
          controller := ⟨_, hpic', by simp⟩
          enabled := henabled
          ticks := hticks
          yields := hyields }

/-- **One event.** -/
theorem Ticking.perform (h : Ticking σ hz y s t) {e : TableEvent} (he : e.KeepsTimer σ) :
    Ticking σ hz y (s.next e) (t.perform σ e) := by
  cases e with
  | faultInit =>
    simp only [CpuTables.perform, h.faultInit]
    exact h
  | installGate vector handler =>
    simp only [CpuTables.perform]
    by_cases hzero : handler = 0
    · rw [hzero, CpuTables.faultInstallGate_zero]
      exact h
    · rw [CpuTables.faultInstallGate_run hzero, h.faultInit]
      have hgate : ((t.setGate vector handler).idt 32).handler = (t.idt 32).handler := by
        by_cases hvector : vector = 32
        · -- the same entry again
          subst hvector
          obtain rfl := (he handler rfl).resolve_left hzero
          simp only [CpuTables.setGate, Function.update_self, handler_gate, h.gate]
        · simp [CpuTables.setGate, Ne.symm hvector]
      have hset : Ticking σ hz y s (t.setGate vector handler) :=
        h.of_same rfl rfl hgate rfl rfl rfl rfl
      exact hset
  | usermodeInit top =>
    simp only [CpuTables.perform, CpuTables.usermodeInit_run]
    split
    · unfold CpuTables.withUser
      rw [h.faultInit]
      exact h.of_same rfl rfl rfl rfl rfl rfl rfl
    · exact h
  | timerInit hz' =>
    simp only [CpuTables.perform, CpuTables.timerInit]
    rw [if_pos h.initialized]
    exact h
  | enablePreemption => exact { h with enabled := rfl }
  | disablePreemption => exact { h with enabled := rfl }
  | pulse line => exact h.pulse line
  | accept => exact h.accept

theorem Ticking.performAll (h : Ticking σ hz y s t) {events : List TableEvent}
    (he : ∀ e ∈ events, e.KeepsTimer σ) :
    Ticking σ hz y (events.foldl Tally.next s) (t.performAll σ events) := by
  induction events generalizing s t with
  | nil => exact h
  | cons e events ih =>
    apply ih (h.perform (he e List.mem_cons_self))
    exact fun e' he' => he e' (List.mem_cons_of_mem _ he')

/-- The timer starts at nothing, whatever the devices were doing. -/
theorem Ticking.start (hnew : t.timerInitialized = false)
    (hrange : 19 ≤ hz.toNat ∧ hz.toNat ≤ 1193182) :
    Ticking σ hz t.yields ⟨false, false, 0, 0⟩ (CpuTables.timerInit σ hz t).2 := by
  have hdivisor : (CpuTables.pitBaseHz / hz).toNat = 1193182 / hz.toNat := UInt32.toNat_div _ _
  have hpos : 0 < 1193182 / hz.toNat := Nat.div_pos hrange.2 (by omega)
  have hword : 1193182 / hz.toNat < 2 ^ 16 := by
    rw [Nat.div_lt_iff_lt_mul (by omega)]
    omega
  obtain ⟨hpit, hpic⟩ := outbAll_loadWrites (t.withTimerGate σ).devices
    (by rw [hdivisor]; exact hpos) (by rw [hdivisor]; exact hword)
  have hyields : (CpuTables.faultInit σ t).2.yields = t.yields := by
    unfold CpuTables.faultInit Effect.modify
    dsimp only
    split <;> rfl
  have hfaults : (CpuTables.faultInit σ t).2.faultInitialized = true := by
    unfold CpuTables.faultInit Effect.modify
    dsimp only
    split
    · assumption
    · rfl
  unfold CpuTables.timerInit
  rw [if_neg (by simp [hnew]), CpuTables.timerSetup_run, if_pos hrange]
  exact
    { initialized := rfl
      faults := hfaults
      gate := by simp [CpuTables.withTimerGate, CpuTables.setGate, handler_gate]
      channel := by rw [← hdivisor]; exact hpit
      controller := ⟨_, hpic.trans (outbAll_remapWrites t.devices), rfl⟩
      enabled := rfl
      ticks := rfl
      yields := hyields }

end run

/-- **Every tick is counted once.**  The timer can be started at the frequencies from 19 to
    1193182, and from then on, in whatever order the kernel is called, other lines are raised
    and interrupts are taken: each edge of the timer is offered until it is taken as vector
    32, its handler counts it, and asks the scheduler if that is enabled. -/
theorem ticks_exact (σ : Symbols) {t : CpuTables} (hnew : t.timerInitialized = false) (hz : UInt32) :
    ((CpuTables.timerInit σ hz t).1 = .ok () ↔ 19 ≤ hz.toNat ∧ hz.toNat ≤ 1193182) ∧
      (19 ≤ hz.toNat ∧ hz.toNat ≤ 1193182 →
        ∀ events : List TableEvent, (∀ e ∈ events, e.KeepsTimer σ) →
        Ticking σ hz t.yields (tally events) (t.performAll σ (.timerInit hz :: events)) ∧
          ((t.performAll σ (.timerInit hz :: events)).devices.pic1.offered =
            if (tally events).pending = true then some 0 else none)) := by
  refine ⟨CpuTables.timerInit_ok_iff hnew, fun hrange events hevents => ?_⟩
  have hrun := (Ticking.start (σ := σ) hnew hrange).performAll hevents
  refine ⟨hrun, ?_⟩
  obtain ⟨requested, hpic, hpending⟩ := hrun.controller
  show (CpuTables.performAll σ (CpuTables.timerInit σ hz t).2 events).devices.pic1.offered = _
  rw [hpic, Pic.offered_forTimer, hpending]
  rfl

/-- Two ticks, the second of which waits behind the edge of another line. -/
theorem ticks_exact_two :
    (CpuTables.zeroed.performAll ⟨1, 2, 3, 4, 5, 6, by decide⟩
      [.timerInit 1000, .pulse 0, .accept, .accept, .pulse 3, .pulse 0]).ticks.toNat = 1 ∧
    (CpuTables.zeroed.performAll ⟨1, 2, 3, 4, 5, 6, by decide⟩
      [.timerInit 1000, .pulse 0, .accept, .accept, .pulse 3, .pulse 0]).devices.pic1.offered = some 0 := by
  have hkeeps : ∀ e ∈ [TableEvent.pulse 0, .accept, .accept, .pulse 3, .pulse 0],
      e.KeepsTimer ⟨1, 2, 3, 4, 5, 6, by decide⟩ := by
    simp [TableEvent.KeepsTimer]
  have hnew : CpuTables.zeroed.timerInitialized = false := rfl
  obtain ⟨hticking, hoffered⟩ :=
    (ticks_exact ⟨1, 2, 3, 4, 5, 6, by decide⟩ hnew 1000).2 (by decide) _ hkeeps
  exact ⟨hticking.ticks, hoffered⟩

end Scdk
