import Mathlib.Data.List.Induction
import Scdk.Arch.Tables

/-! # Ways into the kernel

    What the processor finds in the tables after any run of the functions that write them.

    * `Gates`: which vectors have a handler, by itself,
    * `HasGates.perform`, `handler_exact`: the interrupt table gives every interrupt to the
      handler that was installed for it last, and to none before that,
    * `Entered`, `entries_privileged`: once user mode is set up, interrupts and system calls
      come in with the code segment of the kernel, on the stack that was given last, and
      the return goes to the segments of the user. -/

namespace Scdk

open Bits

/-! ## Handlers -/

/-- The handlers of the vectors, whether there are any yet, and whether the timer has one. -/
structure Gates where
  ready : Bool
  timer : Bool
  handler : UInt8 → Option UInt64

namespace Gates

variable (σ : Symbols)

/-- No handlers. -/
def none : Gates := ⟨false, false, fun _ => .none⟩

/-- The handlers of exceptions, if there are no handlers yet. -/
def init (g : Gates) : Gates :=
  if g.ready = true then g
  else
    { g with
      ready := true
      handler := fun vector =>
        if vector = 14 then some σ.isrPageFault
        else if vector = 13 then some σ.isrGeneralProtection
        else if vector = 6 then some σ.isrInvalidOpcode
        else .none }

/-- A handler for a vector. -/
def install (vector : UInt8) (handler : UInt64) (g : Gates) : Gates :=
  let g := g.init σ
  { g with handler := Function.update g.handler vector (some handler) }

/-- The handlers after an event. -/
def perform (g : Gates) : TableEvent → Gates
  | .faultInit => g.init σ
  | .installGate vector handler => if handler = 0 then g else g.install σ vector handler
  | .usermodeInit top => if CpuTables.StackTopOk top then g.init σ else g
  | .timerInit hz =>
    if g.timer = true then g
    else
      { g.install σ 32 σ.timerIrqEntry with
        timer := decide (19 ≤ hz.toNat ∧ hz.toNat ≤ 1193182) }
  | _ => g

/-- The handlers after some events. -/
def performAll (g : Gates) (events : List TableEvent) : Gates := events.foldl (perform σ) g

end Gates

/-- The table entry of a vector. -/
def entryOf : Option UInt64 → IdtEntry
  | none => .empty
  | some address => .gate address

theorem handler_entryOf (h : Option UInt64) : (entryOf h).handler = h.map UInt64.toNat := by
  cases h with
  | none => exact handler_empty
  | some address => exact handler_gate address

/-- The tables have the handlers. -/
structure HasGates (g : Gates) (t : CpuTables) : Prop where
  ready : t.faultInitialized = g.ready
  timer : t.timerInitialized = g.timer
  entries : ∀ vector, t.idt vector = entryOf (g.handler vector)

section tracks

variable {σ : Symbols} {g : Gates} {t t' : CpuTables}

/-- Other parts of the tables do not matter. -/
theorem HasGates.of_same (h : HasGates g t) (hready : t'.faultInitialized = t.faultInitialized)
    (htimer : t'.timerInitialized = t.timerInitialized) (hidt : t'.idt = t.idt) : HasGates g t' where
  ready := hready.trans h.ready
  timer := htimer.trans h.timer
  entries := fun vector => by rw [hidt, h.entries vector]

theorem HasGates.init (h : HasGates g t) : HasGates (g.init σ) (CpuTables.faultInit σ t).2 := by
  have hready := h.ready
  unfold Gates.init CpuTables.faultInit Effect.modify
  dsimp only
  by_cases hg : g.ready = true
  · rw [if_pos hg, if_pos (hready.trans hg)]
    exact h
  · rw [if_neg hg, if_neg (by rw [hready]; exact hg)]
    refine ⟨rfl, h.timer, fun vector => ?_⟩
    -- The last of the three gates that has the vector is what it has.
    by_cases h14 : vector = 14
    · subst h14
      rfl
    by_cases h13 : vector = 13
    · subst h13
      rfl
    by_cases h6 : vector = 6
    · subst h6
      rfl
    simp [CpuTables.withFaults, CpuTables.setGate, entryOf, h14, h13, h6]

theorem HasGates.install (h : HasGates g t) (vector : UInt8) (handler : UInt64) :
    HasGates (g.install σ vector handler) ((CpuTables.faultInit σ t).2.setGate vector handler) := by
  obtain ⟨hready, htimer, hentries⟩ := h.init (σ := σ)
  refine ⟨hready, htimer, fun v => ?_⟩
  by_cases hv : v = vector
  · subst hv
    simp [CpuTables.setGate, Gates.install, entryOf]
  · simp [CpuTables.setGate, Gates.install, hv, hentries v]

/-- An interrupt changes no entry. -/
theorem HasGates.accept (h : HasGates g t) : HasGates g (t.accept σ) := by
  unfold CpuTables.accept
  split
  · exact h
  · dsimp only
    split
    · unfold CpuTables.timerInterrupt
      dsimp only
      split <;> exact h.of_same rfl rfl rfl
    · exact h.of_same rfl rfl rfl

/-- **One event.** -/
theorem HasGates.perform (h : HasGates g t) (e : TableEvent) :
    HasGates (g.perform σ e) (t.perform σ e) := by
  cases e with
  | faultInit => exact h.init
  | installGate vector handler =>
    simp only [Gates.perform, CpuTables.perform]
    by_cases hzero : handler = 0
    · rw [if_pos hzero, hzero, CpuTables.faultInstallGate_zero]
      exact h
    · rw [if_neg hzero, CpuTables.faultInstallGate_run hzero]
      exact h.install vector handler
  | usermodeInit top =>
    simp only [Gates.perform, CpuTables.perform, CpuTables.usermodeInit_run]
    split
    · exact (h.init (σ := σ)).of_same rfl rfl rfl
    · exact h
  | timerInit hz =>
    simp only [Gates.perform, CpuTables.perform, CpuTables.timerInit, h.timer]
    split
    · exact h
    · next hnew =>
      have hgate := h.install (σ := σ) 32 σ.timerIrqEntry
      rw [CpuTables.timerSetup_run]
      by_cases hrange : 19 ≤ hz.toNat ∧ hz.toNat ≤ 1193182
      · rw [if_pos hrange]
        exact ⟨hgate.ready, by simp [hrange], hgate.entries⟩
      · rw [if_neg hrange]
        refine ⟨hgate.ready, ?_, hgate.entries⟩
        have hkept := (h.init (σ := σ)).timer
        have hg : (g.init σ).timer = g.timer := by
          unfold Gates.init
          split <;> rfl
        simp only [hrange, decide_false]
        exact hkept.trans (hg.trans (Bool.not_eq_true _ ▸ hnew))
  | enablePreemption => exact h.of_same rfl rfl rfl
  | disablePreemption => exact h.of_same rfl rfl rfl
  | pulse line => exact h.of_same rfl rfl rfl
  | accept => exact h.accept

theorem HasGates.performAll (h : HasGates g t) (events : List TableEvent) :
    HasGates (g.performAll σ events) (t.performAll σ events) := by
  induction events generalizing g t with
  | nil => exact h
  | cons e events ih => exact ih (h.perform e)

end tracks

/-- The tables before the kernel has set up any of them. -/
structure CpuTables.Fresh (t : CpuTables) : Prop where
  idt : t.idt = fun _ => .empty
  faultInitialized : t.faultInitialized = false
  timerInitialized : t.timerInitialized = false

theorem CpuTables.Fresh.tracks {t : CpuTables} (h : t.Fresh) : HasGates .none t :=
  ⟨h.faultInitialized, h.timerInitialized, fun _ => by rw [h.idt]; rfl⟩

/-- **Every interrupt goes to the handler that was installed for it last**, whatever was
    called in which order, and vectors without a handler are not delivered. -/
theorem handler_exact (σ : Symbols) {t : CpuTables} (h : t.Fresh) (events : List TableEvent)
    (vector : UInt8) :
    ((t.performAll σ events).idt vector).handler =
      ((Gates.none.performAll σ events).handler vector).map UInt64.toNat := by
  rw [(h.tracks.performAll events).entries vector, handler_entryOf]

/-- The timer did not start at 18 ticks a second, and its entry was overwritten and put back. -/
theorem handler_exact_restored :
    ((CpuTables.zeroed.performAll ⟨1, 2, 3, 4, 5, 6, by decide⟩
        [.timerInit 18, .installGate 32 7, .installGate 32 0, .timerInit 1000]).idt 32).handler = some 6 :=
  (handler_exact ⟨1, 2, 3, 4, 5, 6, by decide⟩ ⟨rfl, rfl, rfl⟩ _ 32).trans (by decide)

/-! ## Privilege -/

/-- A present segment with 64-bit code, for a ring. -/
structure Segment.Code (ring : Nat) (s : Segment) : Prop where
  present : bits s.access 7 1 = 1
  ring : bits s.access 5 2 = ring
  code : bits s.access 3 2 = 3
  long : bits s.flags 1 1 = 1

/-- A present segment with data that can be written, for a ring. -/
structure Segment.Data (ring : Nat) (s : Segment) : Prop where
  present : bits s.access 7 1 = 1
  ring : bits s.access 5 2 = ring
  data : bits s.access 3 2 = 2
  writable : bits s.access 1 1 = 1

namespace CpuTables

/-- The segment that a selector names, if it is within the limit of the table. -/
def segmentAt (t : CpuTables) (selector : Nat) : Option Segment :=
  if h : selector / 8 < 8 then some (.ofWord (t.gdt ⟨selector / 8, h⟩)) else none

/-- The selector that the register of the system calls has for the way in. -/
def syscallSelector (t : CpuTables) : Nat := bits t.star.toNat 32 16

/-- The selector that it has for the way back. -/
def sysretSelector (t : CpuTables) : Nat := bits t.star.toNat 48 16

/-- The ways into the kernel, on a stack.  A system call takes the segments at its
    selector and after it, the return the second and the third at its own. -/
structure Privileged (σ : Symbols) (top : UInt64) (t : CpuTables) : Prop where
  loaded : t.loaded = true
  interrupts : ∀ vector, (t.idt vector).Present →
    ∃ s ∈ t.segmentAt (t.idt vector).selector.toNat, s.Code 0
  syscallCode : ∃ s ∈ t.segmentAt t.syscallSelector, s.Code 0
  syscallData : ∃ s ∈ t.segmentAt (t.syscallSelector + 8), s.Data 0
  sysretData : ∃ s ∈ t.segmentAt (t.sysretSelector + 8), s.Data 3
  sysretCode : ∃ s ∈ t.segmentAt (t.sysretSelector + 16), s.Code 3
  enabled : t.efer.toNat.testBit 0 = true
  entry : t.lstar = σ.syscallEntry
  interruptsOff : t.fmask.toNat.testBit 9 = true
  taskState : systemBase (t.gdt 6) (t.gdt 7) = σ.tss.toNat
  taskStateLimit : ∃ s ∈ t.segmentAt 0x30, s.limit = 103 ∧ s.access = 0x8b
  interruptStack : t.rsp0 = top
  syscallStack : t.kernelStackTop = top
  aligned : StackTopOk top

/-- What `scdk_usermode_init` has set up. -/
structure UserReady (σ : Symbols) (top : UInt64) (t : CpuTables) : Prop where
  gdt : t.gdt = loadedSegments σ
  loaded : t.loaded = true
  rsp0 : t.rsp0 = top
  kernelStackTop : t.kernelStackTop = top
  star : t.star = (0x18 : UInt64) <<< 48 ||| (0x08 : UInt64) <<< 32
  lstar : t.lstar = σ.syscallEntry
  fmask : t.fmask = syscallFlagsMask
  efer : t.efer.toNat.testBit 0 = true
  aligned : StackTopOk top

/-- The stack after an event. -/
def nextStack (stack : Option UInt64) : TableEvent → Option UInt64
  | .usermodeInit top => if StackTopOk top then some top else stack
  | _ => stack

/-- The stack that was given last. -/
def lastStack (events : List TableEvent) : Option UInt64 := events.foldl nextStack none

section privilege

variable {σ : Symbols} {t t' : CpuTables} {top : UInt64}

theorem UserReady.of_same (h : UserReady σ top t) (hgdt : t'.gdt = t.gdt) (hloaded : t'.loaded = t.loaded)
    (hrsp0 : t'.rsp0 = t.rsp0) (hstack : t'.kernelStackTop = t.kernelStackTop) (hstar : t'.star = t.star)
    (hlstar : t'.lstar = t.lstar) (hfmask : t'.fmask = t.fmask) (hefer : t'.efer = t.efer) :
    UserReady σ top t' where
  gdt := hgdt.trans h.gdt
  loaded := hloaded.trans h.loaded
  rsp0 := hrsp0.trans h.rsp0
  kernelStackTop := hstack.trans h.kernelStackTop
  star := hstar.trans h.star
  lstar := hlstar.trans h.lstar
  fmask := hfmask.trans h.fmask
  efer := by rw [hefer]; exact h.efer
  aligned := h.aligned

theorem UserReady.faultInit (h : UserReady σ top t) : UserReady σ top (CpuTables.faultInit σ t).2 := by
  unfold CpuTables.faultInit Effect.modify
  dsimp only
  split
  · exact h
  · exact h.of_same rfl rfl rfl rfl rfl rfl rfl rfl

theorem UserReady.withUser (htop : StackTopOk top) (t : CpuTables) :
    UserReady σ top (t.withUser σ top) where
  gdt := rfl
  loaded := rfl
  rsp0 := rfl
  kernelStackTop := rfl
  star := rfl
  lstar := rfl
  fmask := rfl
  efer := by simp [CpuTables.withUser]
  aligned := htop

/-- **One event.**  Only another initialisation writes any of it. -/
theorem UserReady.perform (h : UserReady σ top t) {e : TableEvent}
    (he : ∀ top, e = .usermodeInit top → ¬ StackTopOk top) : UserReady σ top (t.perform σ e) := by
  cases e with
  | faultInit => exact h.faultInit
  | installGate vector handler =>
    simp only [CpuTables.perform]
    by_cases hzero : handler = 0
    · rw [hzero, faultInstallGate_zero]
      exact h
    · rw [faultInstallGate_run hzero]
      exact h.faultInit.of_same rfl rfl rfl rfl rfl rfl rfl rfl
  | usermodeInit top' =>
    simp only [CpuTables.perform]
    rw [usermodeInit_run, if_neg (he top' rfl)]
    exact h
  | timerInit hz =>
    simp only [CpuTables.perform, timerInit]
    split
    · exact h
    · have hgate : UserReady σ top (t.withTimerGate σ) :=
        h.faultInit.of_same rfl rfl rfl rfl rfl rfl rfl rfl
      rw [timerSetup_run]
      split
      · exact hgate.of_same rfl rfl rfl rfl rfl rfl rfl rfl
      · exact hgate
  | enablePreemption => exact h.of_same rfl rfl rfl rfl rfl rfl rfl rfl
  | disablePreemption => exact h.of_same rfl rfl rfl rfl rfl rfl rfl rfl
  | pulse line => exact h.of_same rfl rfl rfl rfl rfl rfl rfl rfl
  | accept =>
    simp only [CpuTables.perform, accept]
    split
    · exact h
    · split
      · unfold timerInterrupt
        dsimp only
        split <;> exact h.of_same rfl rfl rfl rfl rfl rfl rfl rfl
      · exact h.of_same rfl rfl rfl rfl rfl rfl rfl rfl

/-- A run sets up user mode with the stack that it was given last. -/
theorem UserReady.performAll (t : CpuTables) (events : List TableEvent)
    (htop : lastStack events = some top) : UserReady σ top (t.performAll σ events) := by
  induction events using List.reverseRecOn generalizing top with
  | nil => cases htop
  | append_singleton events e ih =>
    have hrun : t.performAll σ (events ++ [e]) = (t.performAll σ events).perform σ e := by
      simp [CpuTables.performAll]
    have hlast : lastStack (events ++ [e]) = nextStack (lastStack events) e := by
      simp [lastStack]
    rw [hlast] at htop
    rw [hrun]
    by_cases he : ∃ top, e = .usermodeInit top ∧ StackTopOk top
    · obtain ⟨top', rfl, hok⟩ := he
      obtain rfl : top' = top := by simpa [nextStack, hok] using htop
      simp only [CpuTables.perform, usermodeInit_run, if_pos hok]
      exact .withUser hok _
    · have hnot : ∀ top, e = .usermodeInit top → ¬ StackTopOk top :=
        fun top hok htop => he ⟨top, hok, htop⟩
      -- The stack is the one from before.
      apply UserReady.perform _ hnot
      apply ih
      cases e with
      | usermodeInit top' => simpa [nextStack, hnot top' rfl] using htop
      | _ => exact htop

/-- The segments of the kernel and of the user. -/
theorem UserReady.privileged (h : UserReady σ top t)
    (hidt : ∀ vector, (t.idt vector).Present → (t.idt vector).selector = 0x08) :
    Privileged σ top t := by
  have hat : ∀ (i : Fin 8) (w : UInt64), loadedSegments σ i = w →
      t.segmentAt (8 * i.val) = some (.ofWord w) := by
    intro i w hw
    unfold segmentAt
    have hi : 8 * i.val / 8 = i.val := Nat.mul_div_cancel_left _ (by decide)
    rw [dif_pos (by rw [hi]; exact i.isLt), h.gdt]
    simp only [hi, hw]
  -- the segments that were put there, as the processor reads them
  have hkernelCode : ∃ s ∈ t.segmentAt 0x08, s.Code 0 := by
    refine ⟨_, hat 1 (segmentDescriptor 0x9a 0xa) rfl, ?_⟩
    rw [ofWord_segmentDescriptor _ _ (by decide)]
    exact ⟨by decide, by decide, by decide, by decide⟩
  have hkernelData : ∃ s ∈ t.segmentAt 0x10, s.Data 0 := by
    refine ⟨_, hat 2 (segmentDescriptor 0x92 0xc) rfl, ?_⟩
    rw [ofWord_segmentDescriptor _ _ (by decide)]
    exact ⟨by decide, by decide, by decide, by decide⟩
  have huserData : ∃ s ∈ t.segmentAt 0x20, s.Data 3 := by
    refine ⟨_, hat 4 (segmentDescriptor 0xf2 0xc) rfl, ?_⟩
    rw [ofWord_segmentDescriptor _ _ (by decide)]
    exact ⟨by decide, by decide, by decide, by decide⟩
  have huserCode : ∃ s ∈ t.segmentAt 0x28, s.Code 3 := by
    refine ⟨_, hat 5 (segmentDescriptor 0xfa 0xa) rfl, ?_⟩
    rw [ofWord_segmentDescriptor _ _ (by decide)]
    exact ⟨by decide, by decide, by decide, by decide⟩
  -- the processor has marked the segment of the task state
  obtain ⟨hlow, hbase⟩ := @ofWord_busyDescriptor σ.tss (104 - 1) (by decide)
  have htss : ∃ s ∈ t.segmentAt 0x30, s.limit = 103 ∧ s.access = 0x8b := by
    refine ⟨_, hat 6 (busyDescriptor (tssDescriptorLow σ.tss (104 - 1))) rfl, ?_⟩
    rw [hlow]
    exact ⟨rfl, rfl⟩
  have hin : t.syscallSelector = 0x08 := by
    unfold syscallSelector
    rw [h.star]
    decide
  have hout : t.sysretSelector = 0x18 := by
    unfold sysretSelector
    rw [h.star]
    decide
  exact
    { loaded := h.loaded
      interrupts := fun vector hpresent => by
        rw [hidt vector hpresent]
        exact hkernelCode
      syscallCode := by rw [hin]; exact hkernelCode
      syscallData := by rw [hin]; exact hkernelData
      sysretData := by rw [hout]; exact huserData
      sysretCode := by rw [hout]; exact huserCode
      enabled := h.efer
      entry := h.lstar
      interruptsOff := by rw [h.fmask]; decide
      taskState := by rw [h.gdt]; exact hbase
      taskStateLimit := htss
      interruptStack := h.rsp0
      syscallStack := h.kernelStackTop
      aligned := h.aligned }

end privilege

end CpuTables

/-- **The kernel is entered with its own segments**, on the stack that was given last, and
    left for the segments of the user: after every run in which user mode was set up. -/
theorem entries_privileged (σ : Symbols) {t : CpuTables} (h : t.Fresh) {events : List TableEvent}
    {top : UInt64} (htop : CpuTables.lastStack events = some top) :
    CpuTables.Privileged σ top (t.performAll σ events) := by
  apply (CpuTables.UserReady.performAll t events htop).privileged
  intro vector hpresent
  have hentry := (h.tracks.performAll (σ := σ) events).entries vector
  rw [hentry] at hpresent ⊢
  -- An entry without a handler is not present.
  cases hhandler : (Gates.none.performAll σ events).handler vector with
  | none =>
    rw [hhandler] at hpresent
    exact absurd hpresent (by decide)
  | some address => rfl

/-- The second of three calls is refused. -/
theorem entries_privileged_twice :
    CpuTables.Privileged ⟨1, 2, 3, 4, 5, 6, by decide⟩ 0x2000
      (CpuTables.zeroed.performAll ⟨1, 2, 3, 4, 5, 6, by decide⟩
        [.usermodeInit 0x1000, .usermodeInit 0x3008, .usermodeInit 0x2000, .timerInit 1000]) :=
  entries_privileged _ ⟨rfl, rfl, rfl⟩ (by decide)

end Scdk
