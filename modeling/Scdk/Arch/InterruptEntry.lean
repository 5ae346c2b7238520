import Scdk.Arch.ContextSwitch
import Scdk.Lib.X86

/-! # Interrupts

    Model of `arch/x86_64/timer_entry.S` and `arch/x86_64/fault_entry.S`, over the registers and
    the stack of the processor.

    * `timerIrqEntry`, `timerIrqReturn`, `isrCommon`, `isrReturn`: the code before and behind
      its call of the handler,
    * `Framed`: all registers and the frame of the interrupt are on the stack,
    * `preemption_invisible`: the interrupted code goes on as if nothing had happened, also
      when the handler has let other threads run,
    * `fault_frame_exact`: the handler of a fault reads what the fault has interrupted. -/

namespace Scdk

open X86

/-! ## Functions -/

/-- The registers as the entries push them. -/
def entryRegs : List Reg :=
  [.r15, .r14, .r13, .r12, .r11, .r10, .r9, .r8, .rdi, .rsi, .rbp, .rbx, .rdx, .rcx, .rax]

/-- The registers as the entries pop them. -/
def exitRegs : List Reg :=
  [.rax, .rcx, .rdx, .rbx, .rbp, .rsi, .rdi, .r8, .r9, .r10, .r11, .r12, .r13, .r14, .r15]

/-- `scdk_timer_irq_entry`, up to its call of `scdk_timer_interrupt`. -/
def timerIrqEntry (c : Cpu) : Cpu := c.pushAll entryRegs

/-- `scdk_timer_irq_entry`, behind the call. -/
def timerIrqReturn (c : Cpu) : Cpu := (c.popAll exitRegs).iretq

/-- The exceptions that have an entry. -/
inductive FaultVector where
  | invalidOpcode
  | generalProtection
  | page
  deriving DecidableEq, Repr

/-- `enum scdk_fault_vector` -/
def FaultVector.number : FaultVector → UInt64
  | .invalidOpcode => 6
  | .generalProtection => 13
  | .page => 14

/-- The processor pushes an error code for some exceptions only. -/
def FaultVector.pushesError : FaultVector → Bool
  | .invalidOpcode => false
  | .generalProtection => true
  | .page => true

/-- An exception through the gate to `handler`. -/
def FaultVector.raise (vector : FaultVector) (rsp0 selector handler error : UInt64) (c : Cpu) : Cpu :=
  let c := c.interrupt rsp0 selector handler
  if vector.pushesError = true then c.push error else c

/-- `scdk_isr_common`, up to its call of `scdk_fault_dispatch`, whose argument is in `rdi`. -/
def isrCommon (c : Cpu) : Cpu :=
  let c := c.pushAll entryRegs
  c.set .rdi (c.reg .rsp + 120)

/-- `scdk_isr_invalid_opcode`, `scdk_isr_general_protection`, `scdk_isr_page_fault` -/
def FaultVector.isr : FaultVector → Cpu → Cpu
  | .invalidOpcode, c => isrCommon ((c.push 0).push 6)
  | .generalProtection, c => isrCommon (c.push 13)
  | .page, c => isrCommon (c.push 14)

/-- From the exception up to the call of `scdk_fault_dispatch`. -/
def FaultVector.enter (vector : FaultVector) (rsp0 selector handler error : UInt64) (c : Cpu) : Cpu :=
  vector.isr (vector.raise rsp0 selector handler error c)

/-- `scdk_isr_common`, behind the call, where `returnRsp` and `returnRip` are the values of
    `scdk_user_return_rsp` and `scdk_user_return_rip`. -/
def isrReturn (returnRsp returnRip : UInt64) (c : Cpu) : Cpu :=
  if c.reg .rax = 1 then { c.set .rsp returnRsp with rip := returnRip }
  else
    let c := c.popAll exitRegs
    let c := c.set .rsp (c.reg .rsp + 16)
    c.iretq

/-- `struct scdk_fault_frame` -/
structure FaultFrame where
  vector : UInt64
  errorCode : UInt64
  rip : UInt64
  cs : UInt64
  rflags : UInt64
  rsp : UInt64
  ss : UInt64
  deriving DecidableEq, Repr

/-- The frame at `a`. -/
def faultFrame (m : Memory) (a : Nat) : FaultFrame where
  vector := m.word a
  errorCode := m.word (a + 8)
  rip := m.word (a + 16)
  cs := m.word (a + 24)
  rflags := m.word (a + 32)
  rsp := m.word (a + 40)
  ss := m.word (a + 48)

/-- `frame_from_user` -/
def frameFromUser (frame : FaultFrame) : Bool := frame.cs &&& 3 = 3

/-! ## The stack of an entry -/

theorem rsp_not_mem_entryRegs : Reg.rsp ∉ entryRegs := by decide

theorem rsp_not_mem_exitRegs : Reg.rsp ∉ exitRegs := by decide

theorem mem_exitRegs {r : Reg} (h : r ≠ .rsp) : r ∈ exitRegs := by
  cases r with
  | rsp => exact absurd rfl h
  | _ => decide

/-- The words on the stack when `c` was interrupted: its registers, what the entry has pushed
    before them, and the frame of the processor. -/
def entryWords (c : Cpu) (ws : List UInt64) : List UInt64 :=
  exitRegs.map c.reg ++ (ws ++ [c.rip, c.cs, c.rflags, c.reg .rsp, c.ss])

/-- At `c'`, all of `c` is on the stack. -/
structure Framed (c : Cpu) (ws : List UInt64) (c' : Cpu) : Prop where
  words : c'.mem.words c'.sp (entryWords c ws).length = entryWords c ws
  room : c'.sp + 8 * (entryWords c ws).length < 2 ^ 64

section framed

variable {c c' c'' : Cpu} {ws : List UInt64} {rsp0 selector handler : UInt64}

/-- The entry has pushed all registers on the stack of the interrupt. -/
theorem framed_pushAll (h : Cpu.Pushed (ws ++ [c.rip, c.cs, c.rflags, c.reg .rsp, c.ss])
    (c.set .rsp (c.interruptStack rsp0)) c') (hroom : 120 ≤ c'.sp) :
    Framed c ws (c'.pushAll entryRegs) := by
  have hpushed := h.pushAll rsp_not_mem_entryRegs hroom
  have hregs : (entryRegs.map (c.set .rsp (c.interruptStack rsp0)).reg).reverse =
      exitRegs.map c.reg := rfl
  rw [hregs] at hpushed
  refine ⟨hpushed.words, ?_⟩
  have hsp := hpushed.sp
  have htop := (c.interruptStack rsp0).toNat_lt
  have hstart := Cpu.sp_set c (c.interruptStack rsp0)
  unfold entryWords
  omega

/-- The handler has left the stack alone. -/
theorem Framed.congr (h : Framed c ws c') (hsp : c''.sp = c'.sp)
    (hmem : ∀ a, c'.sp ≤ a → a < c'.sp + 8 * (entryWords c ws).length → c''.mem a = c'.mem a) :
    Framed c ws c'' where
  words := by
    rw [hsp, Memory.words_congr hmem]
    exact h.words
  room := by
    rw [hsp]
    exact h.room

/-- The registers are popped. -/
theorem Framed.popAll (h : Framed c ws c') :
    (∀ r ≠ .rsp, (c'.popAll exitRegs).reg r = c.reg r) ∧
      (c'.popAll exitRegs).sp = c'.sp + 120 ∧ (c'.popAll exitRegs).mem = c'.mem ∧
      c'.mem.words (c'.sp + 120) (ws.length + 5) =
        ws ++ [c.rip, c.cs, c.rflags, c.reg .rsp, c.ss] := by
  have hwords := h.words
  have hroom := h.room
  have hlength : (entryWords c ws).length =
      exitRegs.length + (ws ++ [c.rip, c.cs, c.rflags, c.reg .rsp, c.ss]).length := by
    unfold entryWords
    rw [List.length_append, List.length_map]
  rw [hlength] at hwords hroom
  obtain ⟨hregs, hsp, hmem, hrest⟩ := Cpu.popAll_spec rsp_not_mem_exitRegs hwords (by omega)
  refine ⟨fun r hr => hregs r (mem_exitRegs hr), hsp, hmem, ?_⟩
  rw [List.length_append] at hrest
  exact hrest

/-- The end of the timer interrupt. -/
theorem Framed.timerIrqReturn (h : Framed c [] c') :
    Scdk.timerIrqReturn c' = { c with mem := c'.mem } := by
  obtain ⟨hregs, hsp, hmem, hwords⟩ := h.popAll
  unfold Scdk.timerIrqReturn
  rw [Cpu.iretq_eq hregs (by rw [hsp, hmem]; exact hwords), hmem]

/-- The frame of a fault. -/
theorem Framed.faultFrame {vector error : UInt64} (h : Framed c [vector, error] c') :
    Scdk.faultFrame c'.mem (c'.sp + 120) =
      ⟨vector, error, c.rip, c.cs, c.rflags, c.reg .rsp, c.ss⟩ := by
  obtain ⟨_, _, _, hwords⟩ := h.popAll
  simp only [List.length_cons, List.length_nil, Nat.zero_add, Nat.reduceAdd, Memory.words,
    Nat.add_assoc, List.cons_append, List.nil_append, List.cons.injEq] at hwords
  obtain ⟨hvector, herror, hrip, hcs, hrflags, hrsp, hss, _⟩ := hwords
  simp only [Scdk.faultFrame, Nat.add_assoc, Nat.reduceAdd, hvector, herror, hrip, hcs, hrflags, hrsp, hss]

/-- The end of a fault that is not the end of user mode. -/
theorem Framed.isrReturn {vector error returnRsp returnRip : UInt64}
    (h : Framed c [vector, error] c') (hrax : c'.reg .rax ≠ 1) :
    Scdk.isrReturn returnRsp returnRip c' = { c with mem := c'.mem } := by
  obtain ⟨hregs, hsp, hmem, hwords⟩ := h.popAll
  have hroom := h.room
  have hlength : (entryWords c [vector, error]).length = 22 := rfl
  rw [hlength] at hroom
  have hskip : ((c'.popAll exitRegs).set .rsp ((c'.popAll exitRegs).reg .rsp + 16)).sp =
      c'.sp + 120 + 8 * [vector, error].length := by
    unfold Cpu.sp at hsp hroom ⊢
    rw [Cpu.set_self, UInt64.toNat_add, hsp]
    show (_ + 16) % 2 ^ 64 = _ + 120 + 16
    omega
  rw [Memory.words_add] at hwords
  have hframe := (List.append_inj hwords (Memory.length_words _ _ _)).2
  have hkept : ∀ r ≠ .rsp,
      ((c'.popAll exitRegs).set .rsp ((c'.popAll exitRegs).reg .rsp + 16)).reg r = c.reg r :=
    fun r hr => (Cpu.set_of_ne _ _ hr).trans (hregs r hr)
  unfold Scdk.isrReturn
  rw [if_neg hrax]
  dsimp only
  rw [Cpu.iretq_eq hkept (by rw [hskip, Cpu.set_mem, hmem]; exact hframe), Cpu.set_mem, hmem]

end framed

/-! ## The timer -/

/-- The handler of an interrupt that was entered at `c` has come to its switch to another
    thread: it is below the frame, in the stack of its thread, and has left the frame alone. -/
structure AtSwitch (c : Cpu) (s : Switching) (v : ThreadView) : Prop where
  below : s.regs.rsp.toNat ≤ c.sp
  inside : c.sp + 160 ≤ v.top
  frame : ∀ a, c.sp ≤ a → a < c.sp + 160 → s.mem a = c.mem a

section timer

variable {c c' : Cpu} {rsp0 selector handler : UInt64}

theorem framed_timer (hroom : 160 ≤ (c.interruptStack rsp0).toNat) :
    Framed c [] (timerIrqEntry (c.interrupt rsp0 selector handler)) := by
  have hframe : 40 ≤ (c.interruptStack rsp0).toNat := by omega
  have hpushed := Cpu.pushed_interrupt c selector handler hframe
  have hsp := hpushed.sp
  have hstart := Cpu.sp_set c (c.interruptStack rsp0)
  simp only [hstart, List.length_cons, List.length_nil] at hsp
  exact framed_pushAll hpushed (by omega)

/-- A handler that has left the frame alone. -/
theorem timer_returns (hroom : 160 ≤ (c.interruptStack rsp0).toNat)
    (hrsp : c'.reg .rsp = (timerIrqEntry (c.interrupt rsp0 selector handler)).reg .rsp)
    (hmem : ∀ a, (timerIrqEntry (c.interrupt rsp0 selector handler)).sp ≤ a →
      a < (timerIrqEntry (c.interrupt rsp0 selector handler)).sp + 160 →
      c'.mem a = (timerIrqEntry (c.interrupt rsp0 selector handler)).mem a) :
    timerIrqReturn c' = { c with mem := c'.mem } :=
  ((framed_timer hroom).congr (congrArg UInt64.toNat hrsp) hmem).timerIrqReturn

end timer

/-- **Preemption is invisible.**  The timer interrupts whatever runs, and its handler switches
    to another thread.  Whatever the threads do until one of them switches back, the code that
    was interrupted goes on with all its registers, its flags and its stack pointer. -/
theorem preemption_invisible {σ : ThreadSymbols} {s s' : Switching} (h : s.Reaches σ)
    {i : Fin maxThreads} {ret ret' : UInt64} (haway : s.Allows σ (.switchTo i ret))
    (hrun : (s.step σ (.switchTo i ret)).Meanwhile σ s.current s')
    (hback : s'.Allows σ (.switchTo s.current ret')) {v : ThreadView} (hv : s.view s.current = some v)
    {c c' : Cpu} {rsp0 selector handler : UInt64} (hroom : 160 ≤ (c.interruptStack rsp0).toNat)
    (hdown : AtSwitch (timerIrqEntry (c.interrupt rsp0 selector handler)) s v)
    (hrsp : c'.reg .rsp = (timerIrqEntry (c.interrupt rsp0 selector handler)).reg .rsp)
    (hup : ∀ a, (timerIrqEntry (c.interrupt rsp0 selector handler)).sp ≤ a →
      a < (timerIrqEntry (c.interrupt rsp0 selector handler)).sp + 160 →
      c'.mem a = (s'.step σ (.switchTo s.current ret')).mem a) :
    timerIrqReturn c' = { c with mem := c'.mem } := by
  apply timer_returns hroom hrsp
  intro a hlo hhi
  have hbelow := hdown.below
  have hinside := hdown.inside
  rw [hup a hlo hhi, stack_back h haway hrun hback hv (by omega) (by omega), hdown.frame a hlo hhi]

/-- A thread that is interrupted while there is a second one. -/
def interrupted : Cpu :=
  ⟨fun r => if r = .rsp then 0x9800 else 7, 0x1234, 0x202, 8, 0x10, twoThreads.mem⟩

/-- The handler of the timer is called. -/
def enteredTimer : Cpu := timerIrqEntry (interrupted.interrupt 0 8 0x300)

theorem enteredTimer_sp : enteredTimer.sp = 0x9760 := by decide

/-- It has come to the switch. -/
def atSwitch : Switching :=
  twoThreads.step ⟨0x100000, 0x400⟩ (.compute ⟨1, 2, 3, 4, 5, 6, 0x9700, 7⟩ enteredTimer.mem)

theorem atSwitch_reaches : atSwitch.Reaches ⟨0x100000, 0x400⟩ := by
  refine ((Switching.Reaches.start oneThread_start).step _ oneThread_create).step _ ⟨?_, ?_⟩
  · intro i a hi hview howns
    -- The interrupt has written to the stack of the first thread only.
    have hroom : 40 ≤ (interrupted.interruptStack 0).toNat := by decide
    have hpushed := Cpu.pushed_interrupt interrupted 8 0x300 hroom
    have hall := hpushed.pushAll rsp_not_mem_entryRegs (by decide)
    refine (hall.mem a ?_).trans rfl
    have hlow : (Cpu.pushAll entryRegs (interrupted.interrupt 0 8 0x300)).sp = 0x9760 := enteredTimer_sp
    have hhigh : (interrupted.set .rsp (interrupted.interruptStack 0)).sp = 0x9800 := by decide
    rw [hlow, hhigh]
    by_cases h1 : i = 1
    · subst h1
      rcases howns with ⟨v, hv, hlo, _⟩ | ⟨hlo, _⟩
      · obtain rfl := Option.some.inj hv
        have : 0x20000 ≤ a := hlo
        omega
      · have : 0x100000 + 136 ≤ a := hlo
        omega
    · exact absurd ((Function.update_of_ne h1 _ _).trans (if_neg hi)) hview
  · intro v hv
    obtain rfl := Option.some.inj hv
    exact ⟨by decide, by decide⟩

/-- The second thread runs. -/
def secondRuns : Switching := atSwitch.step ⟨0x100000, 0x400⟩ (.switchTo 1 0x500)

/-- It has switched back, and the handler returns. -/
def leavesTimer : Cpu :=
  { enteredTimer with mem := (secondRuns.step ⟨0x100000, 0x400⟩ (.switchTo 0 0x600)).mem }

/-- The thread goes on. -/
theorem preemption_invisible_twice :
    (timerIrqReturn leavesTimer).reg .rbx = 7 ∧ (timerIrqReturn leavesTimer).rip = 0x1234 := by
  have haway : atSwitch.Allows ⟨0x100000, 0x400⟩ (.switchTo 1 0x500) := ⟨nofun, by decide⟩
  have hback : secondRuns.Allows ⟨0x100000, 0x400⟩ (.switchTo 0 0x600) := ⟨nofun, by decide⟩
  have hdown : AtSwitch enteredTimer atSwitch ⟨⟨1, 2, 3, 4, 5, 6, 0x9700, 7⟩, enteredTimer.mem,
      0x8000, 0xa000, 0xa000⟩ := by
    refine ⟨?_, ?_, fun _ _ _ => rfl⟩
    · rw [enteredTimer_sp]
      decide
    · rw [enteredTimer_sp]
      decide
  have hsame : timerIrqReturn leavesTimer = { interrupted with mem := leavesTimer.mem } :=
    preemption_invisible atSwitch_reaches haway .refl hback rfl (by decide) hdown rfl fun _ _ _ => rfl
  rw [hsame]
  exact ⟨rfl, rfl⟩

/-! ## Faults -/

/-- The entry of an exception. -/
theorem framed_isr {c : Cpu} (vector : FaultVector) {rsp0 : UInt64} (selector handler error : UInt64)
    (hroom : 176 ≤ (c.interruptStack rsp0).toNat) :
    ∃ c₀, vector.enter rsp0 selector handler error c = c₀.set .rdi (c₀.reg .rsp + 120) ∧
      Framed c [vector.number, if vector.pushesError = true then error else 0] c₀ := by
  have hframe : 40 ≤ (c.interruptStack rsp0).toNat := by omega
  have hpushed := Cpu.pushed_interrupt c selector handler hframe
  have hstart := Cpu.sp_set c (c.interruptStack rsp0)
  have hsp := hpushed.sp
  rw [hstart] at hsp
  simp only [List.length_cons, List.length_nil] at hsp
  -- Two more words: the error code, pushed by the processor or by the entry, and the vector.
  have htwo : ∀ code number : UInt64,
      Framed c [number, code]
        ((((c.interrupt rsp0 selector handler).push code).push number).pushAll entryRegs) := by
    intro code number
    have hcode := hpushed.push code (by omega)
    have hcodeSp := hcode.sp
    rw [hstart] at hcodeSp
    simp only [List.length_cons, List.length_nil] at hcodeSp
    have hnumber := hcode.push number (by omega)
    have hnumberSp := hnumber.sp
    rw [hstart] at hnumberSp
    simp only [List.length_cons, List.length_nil] at hnumberSp
    exact framed_pushAll hnumber (by omega)
  cases vector with
  | invalidOpcode => exact ⟨_, rfl, htwo 0 6⟩
  | generalProtection => exact ⟨_, rfl, htwo error 13⟩
  | page => exact ⟨_, rfl, htwo error 14⟩

/-- **The frame of a fault.**  Whatever was interrupted, `scdk_fault_dispatch` is called with
    the address of a frame that has the vector, the error code of the processor or zero, and
    the state that was interrupted; so it tells faults of user mode from those of the kernel.
    If it returns another value than 1, and has kept what its caller has, exactly the
    interrupted state goes on. -/
theorem fault_frame_exact (c : Cpu) (vector : FaultVector) {rsp0 : UInt64}
    (selector handler error returnRsp returnRip : UInt64)
    (hroom : 176 ≤ (c.interruptStack rsp0).toNat) :
    faultFrame (vector.enter rsp0 selector handler error c).mem
        ((vector.enter rsp0 selector handler error c).reg .rdi).toNat =
      ⟨vector.number, if vector.pushesError = true then error else 0, c.rip, c.cs, c.rflags,
        c.reg .rsp, c.ss⟩ ∧
    (frameFromUser (faultFrame (vector.enter rsp0 selector handler error c).mem
        ((vector.enter rsp0 selector handler error c).reg .rdi).toNat) = true ↔ c.cs &&& 3 = 3) ∧
    ∀ c', (vector.enter rsp0 selector handler error c).Returns 176 c' → c'.reg .rax ≠ 1 →
      isrReturn returnRsp returnRip c' = { c with mem := c'.mem } := by
  obtain ⟨c₀, henter, hframed⟩ := framed_isr vector selector handler error hroom
  have hlength : (entryWords c
      [vector.number, if vector.pushesError = true then error else 0]).length = 22 := rfl
  have hroom' := hframed.room
  rw [hlength] at hroom'
  have hrdi : ((c₀.set .rdi (c₀.reg .rsp + 120)).reg .rdi).toNat = c₀.sp + 120 := by
    rw [Cpu.set_self, UInt64.toNat_add]
    exact Nat.mod_eq_of_lt (by show c₀.sp + 120 < _; omega)
  rw [henter, hrdi, Cpu.set_mem, hframed.faultFrame]
  refine ⟨rfl, decide_eq_true_iff, ?_⟩
  intro c' hreturns hrax
  have hrsp : c'.reg .rsp = c₀.reg .rsp := hreturns.kept .rsp (by decide)
  have hsp : c'.sp = c₀.sp := congrArg UInt64.toNat hrsp
  exact (hframed.congr hsp hreturns.stack).isrReturn hrax

/-- A processor in user mode. -/
def userCpu : Cpu := ⟨fun _ => 0x7000, 0x400000, 0x202, 0x2b, 0x23, fun _ => 0⟩

/-- It reads an address that is not mapped. -/
theorem fault_frame_exact_page :
    faultFrame (FaultVector.page.enter 0x9000 8 0x100 4 userCpu).mem
        ((FaultVector.page.enter 0x9000 8 0x100 4 userCpu).reg .rdi).toNat =
      ⟨14, 4, 0x400000, 0x2b, 0x202, 0x7000, 0x23⟩ :=
  (fault_frame_exact userCpu .page 8 0x100 4 0 0 (by decide)).1

end Scdk
