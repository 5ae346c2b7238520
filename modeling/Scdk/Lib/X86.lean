import Mathlib.Data.List.Induction
import Mathlib.Logic.Function.Basic
import Scdk.Lib.Bits
import Scdk.Lib.Words

/-! # A processor with a stack

    The part of the x86-64 processor that code at the entries of a kernel uses.

    * `Cpu`: the general registers, the instruction pointer, the flags, the selectors and
      memory,
    * `push`, `pop`, `pushAll`, `popAll`, `ret`: the stack,
    * `interrupt`, `iretq`, `syscall`, `sysretq`: into the kernel and back,
    * `Pushed`: words were pushed, with one lemma for each way of pushing,
    * `popAll_spec`, `iretq_eq`: what is popped is what was pushed,
    * `Returns`: what a function keeps that follows the calling convention. -/

namespace X86

/-! ## The processor -/

/-- The general registers. -/
inductive Reg where
  | rax | rbx | rcx | rdx | rsi | rdi | rbp | rsp
  | r8 | r9 | r10 | r11 | r12 | r13 | r14 | r15
  deriving DecidableEq, Repr

/-- The state of the processor; a selector is a word, as it is pushed. -/
@[ext] structure Cpu where
  reg : Reg → UInt64
  rip : UInt64
  rflags : UInt64
  cs : UInt64
  ss : UInt64
  mem : Memory

namespace Cpu

/-- The stack pointer. -/
def sp (c : Cpu) : Nat := (c.reg .rsp).toNat

def set (c : Cpu) (r : Reg) (w : UInt64) : Cpu := { c with reg := Function.update c.reg r w }

/-! ### The stack -/

def push (c : Cpu) (w : UInt64) : Cpu :=
  { c.set .rsp (c.reg .rsp - 8) with mem := c.mem.setWord (c.reg .rsp - 8).toNat w }

def pop (c : Cpu) (r : Reg) : Cpu := (c.set .rsp (c.reg .rsp + 8)).set r (c.mem.word c.sp)

/-- Push registers, the first one first. -/
def pushAll (rs : List Reg) (c : Cpu) : Cpu := rs.foldl (fun c r => c.push (c.reg r)) c

/-- Pop registers, the first one first. -/
def popAll (rs : List Reg) (c : Cpu) : Cpu := rs.foldl pop c

/-- Back to the caller. -/
def ret (c : Cpu) : Cpu := { c.set .rsp (c.reg .rsp + 8) with rip := c.mem.word c.sp }

/-! ### Into the kernel and back -/

/-- The processor is in ring 0. -/
def InKernel (c : Cpu) : Prop := c.cs &&& 3 = 0

instance (c : Cpu) : Decidable c.InKernel := inferInstanceAs (Decidable (_ = _))

/-- Where an interrupt puts its frame: on the current stack, or on the stack `rsp0` when it
    comes from another ring; at a multiple of 16. -/
def interruptStack (rsp0 : UInt64) (c : Cpu) : UInt64 :=
  (if c.InKernel then c.reg .rsp else rsp0) &&& ~~~0xf

/-- The flags that an interrupt gate clears: `TF`, `IF`, `NT`, `RF` and `VM`. -/
def gateFlags : UInt64 := 0x34300

/-- An interrupt through a gate to `handler`. -/
def interrupt (rsp0 selector handler : UInt64) (c : Cpu) : Cpu :=
  let c' := c.set .rsp (c.interruptStack rsp0)
  let c' := c'.push c.ss
  let c' := c'.push (c.reg .rsp)
  let c' := c'.push c.rflags
  let c' := c'.push c.cs
  let c' := c'.push c.rip
  { c' with
    rip := handler
    rflags := c.rflags &&& ~~~gateFlags
    cs := selector
    ss := if c.InKernel then c.ss else 0 }

/-- Back from an interrupt. -/
def iretq (c : Cpu) : Cpu :=
  { reg := Function.update c.reg .rsp (c.mem.word (c.sp + 8 + 8 + 8))
    rip := c.mem.word c.sp
    cs := c.mem.word (c.sp + 8)
    rflags := c.mem.word (c.sp + 8 + 8)
    ss := c.mem.word (c.sp + 8 + 8 + 8 + 8)
    mem := c.mem }

/-- The instruction `syscall`; `rip` is that of the next instruction. -/
def syscall (lstar fmask kernelCs kernelSs : UInt64) (c : Cpu) : Cpu :=
  { (c.set .rcx c.rip).set .r11 c.rflags with
    rip := lstar
    rflags := c.rflags &&& ~~~fmask
    cs := kernelCs
    ss := kernelSs }

/-- The flags that come back from a system call. -/
def sysretFlags (w : UInt64) : UInt64 := w &&& 0x3c7fd7 ||| 2

/-- The instruction `sysretq`. -/
def sysretq (userCs userSs : UInt64) (c : Cpu) : Cpu :=
  { c with
    rip := c.reg .rcx
    rflags := sysretFlags (c.reg .r11)
    cs := userCs
    ss := userSs }

/-- The registers that a function keeps for its caller. -/
def calleeSaved : List Reg := [.rbx, .rbp, .rsp, .r12, .r13, .r14, .r15]

/-- A function that was called at `c` has returned at `c'`: it has kept the registers of its
    caller, and the `n` bytes on the stack. -/
structure Returns (n : Nat) (c c' : Cpu) : Prop where
  kept : ∀ r ∈ calleeSaved, c'.reg r = c.reg r
  stack : ∀ a, c.sp ≤ a → a < c.sp + n → c'.mem a = c.mem a

/-! ## Pushing -/

/-- The words `ws` were pushed, the last of them first. -/
structure Pushed (ws : List UInt64) (c c' : Cpu) : Prop where
  sp : c'.sp + 8 * ws.length = c.sp
  reg : ∀ r, r ≠ .rsp → c'.reg r = c.reg r
  words : c'.mem.words c'.sp ws.length = ws
  mem : ∀ a, a < c'.sp ∨ c.sp ≤ a → c'.mem a = c.mem a

section push

variable {c c' : Cpu} {ws : List UInt64}

@[simp] theorem set_self (c : Cpu) (r : Reg) (w : UInt64) : (c.set r w).reg r = w :=
  Function.update_self _ _ _

theorem set_of_ne (c : Cpu) {r q : Reg} (w : UInt64) (h : q ≠ r) : (c.set r w).reg q = c.reg q :=
  Function.update_of_ne h _ _

theorem sp_set (c : Cpu) (w : UInt64) : (c.set .rsp w).sp = w.toNat := by
  unfold sp
  rw [set_self]

@[simp] theorem set_mem (c : Cpu) (r : Reg) (w : UInt64) : (c.set r w).mem = c.mem := rfl

theorem toNat_rsp_sub (h : 8 ≤ c.sp) : (c.reg .rsp - 8).toNat = c.sp - 8 := by
  unfold sp at h ⊢
  rw [UInt64.toNat_sub_of_le]
  · rfl
  · rw [UInt64.le_iff_toNat_le]
    exact h

theorem sp_push (w : UInt64) (h : 8 ≤ c.sp) : (c.push w).sp = c.sp - 8 := by
  unfold sp push
  rw [set_self]
  exact toNat_rsp_sub h

theorem reg_push (c : Cpu) (w : UInt64) {r : Reg} (hr : r ≠ .rsp) : (c.push w).reg r = c.reg r :=
  set_of_ne c _ hr

theorem reg_ret (c : Cpu) {r : Reg} (hr : r ≠ .rsp) : c.ret.reg r = c.reg r := set_of_ne c _ hr

theorem rsp_ret (c : Cpu) : c.ret.reg .rsp = c.reg .rsp + 8 := by
  show (c.set .rsp (c.reg .rsp + 8)).reg .rsp = _
  rw [set_self]

theorem reg_iretq (c : Cpu) {r : Reg} (hr : r ≠ .rsp) : c.iretq.reg r = c.reg r := by
  show Function.update c.reg .rsp (c.mem.word (c.sp + 8 + 8 + 8)) r = c.reg r
  rw [Function.update_of_ne hr]

theorem rsp_iretq (c : Cpu) : c.iretq.reg .rsp = c.mem.word (c.sp + 8 + 8 + 8) := by
  show Function.update c.reg .rsp (c.mem.word (c.sp + 8 + 8 + 8)) .rsp = _
  rw [Function.update_self]

theorem Pushed.refl (c : Cpu) : Pushed [] c c := ⟨rfl, fun _ _ => rfl, rfl, fun _ _ => rfl⟩

theorem Pushed.push (h : Pushed ws c c') (w : UInt64) (hroom : 8 ≤ c'.sp) :
    Pushed (w :: ws) c (c'.push w) := by
  have hsp := sp_push w hroom
  have hmem : (c'.push w).mem = c'.mem.setWord (c'.sp - 8) w := by
    rw [← toNat_rsp_sub hroom]
    rfl
  refine ⟨?_, ?_, ?_, ?_⟩
  · have := h.sp
    rw [List.length_cons]
    omega
  · intro r hr
    exact (reg_push c' w hr).trans (h.reg r hr)
  · have hnext : c'.sp - 8 + 8 = c'.sp := by omega
    rw [List.length_cons, Memory.words, hsp, hmem, Memory.word_setWord, hnext,
      Memory.words_setWord_of_disjoint (by omega), h.words]
  · intro a ha
    rw [hsp] at ha
    rw [hmem, Memory.setWord_of_not_mem (by have := h.sp; omega)]
    exact h.mem a (by omega)

theorem Pushed.pushAll (h : Pushed ws c c') {rs : List Reg} (hrs : .rsp ∉ rs)
    (hroom : 8 * rs.length ≤ c'.sp) :
    Pushed ((rs.map c.reg).reverse ++ ws) c (c'.pushAll rs) := by
  induction rs using List.reverseRecOn with
  | nil => exact h
  | append_singleton rs r ih =>
    rw [List.length_append, List.length_singleton] at hroom
    -- The last register is pushed below the others, with the value that it had before.
    have hbefore := ih (fun hmem => hrs (List.mem_append_left _ hmem)) (by omega)
    have hr : r ≠ .rsp := by
      rintro rfl
      exact hrs (List.mem_append_right _ (List.mem_singleton.mpr rfl))
    have hlength := hbefore.sp
    have hlength₀ := h.sp
    rw [List.length_append, List.length_reverse, List.length_map] at hlength
    have hpush := hbefore.push ((c'.pushAll rs).reg r) (by omega)
    rw [hbefore.reg r hr] at hpush
    have hlast : Cpu.pushAll (rs ++ [r]) c' = (c'.pushAll rs).push ((c'.pushAll rs).reg r) := by
      unfold Cpu.pushAll
      rw [List.foldl_append]
      rfl
    rw [hlast, hbefore.reg r hr, List.map_append, List.reverse_append]
    exact hpush

/-- Only the registers and memory matter. -/
theorem Pushed.congr {c'' : Cpu} (h : Pushed ws c c') (hreg : c''.reg = c'.reg)
    (hmem : c''.mem = c'.mem) : Pushed ws c c'' := by
  have hsp : c''.sp = c'.sp := congrArg (fun reg => (reg .rsp).toNat) hreg
  constructor
  · rw [hsp]
    exact h.sp
  · rw [hreg]
    exact h.reg
  · rw [hsp, hmem]
    exact h.words
  · rw [hsp, hmem]
    exact h.mem

/-- The five words that `iretq` takes. -/
theorem pushed_frame (c : Cpu) (ss rsp rflags cs rip : UInt64) (hroom : 40 ≤ c.sp) :
    Pushed [rip, cs, rflags, rsp, ss] c
      (((((c.push ss).push rsp).push rflags).push cs).push rip) := by
  have step : ∀ {ws : List UInt64} {c' : Cpu} (w : UInt64), Pushed ws c c' → ws.length < 5 →
      Pushed (w :: ws) c (c'.push w) := by
    intro ws c' w h hlength
    have hsp := h.sp
    exact h.push w (by omega)
  have h1 := step ss (Pushed.refl c) (by simp)
  have h2 := step rsp h1 (by simp)
  have h3 := step rflags h2 (by simp)
  have h4 := step cs h3 (by simp)
  exact step rip h4 (by simp)

/-- What an interrupt pushes, on the stack that it takes. -/
theorem pushed_interrupt (c : Cpu) {rsp0 : UInt64} (selector handler : UInt64)
    (hroom : 40 ≤ (c.interruptStack rsp0).toNat) :
    Pushed [c.rip, c.cs, c.rflags, c.reg .rsp, c.ss] (c.set .rsp (c.interruptStack rsp0))
      (c.interrupt rsp0 selector handler) := by
  rw [← sp_set c (c.interruptStack rsp0)] at hroom
  exact (pushed_frame _ c.ss (c.reg .rsp) c.rflags c.cs c.rip hroom).congr rfl rfl

end push

/-! ## Popping -/

section pop

variable {c : Cpu} {rs : List Reg} {f : Reg → UInt64}

theorem sp_pop {r : Reg} (hr : r ≠ .rsp) (hroom : c.sp + 8 < 2 ^ 64) : (c.pop r).sp = c.sp + 8 := by
  have hreg : (c.pop r).reg .rsp = c.reg .rsp + 8 := by
    unfold pop
    rw [set_of_ne _ _ (Ne.symm hr), set_self]
  unfold sp at hroom ⊢
  rw [hreg, UInt64.toNat_add]
  exact Nat.mod_eq_of_lt hroom

/-- The registers get the words on the stack. -/
theorem popAll_eq (hrs : .rsp ∉ rs) (hwords : c.mem.words c.sp rs.length = rs.map f)
    (hroom : c.sp + 8 * rs.length < 2 ^ 64) :
    c.popAll rs =
      { c with
        reg := fun r =>
          if r = .rsp then UInt64.ofNat (c.sp + 8 * rs.length)
          else if r ∈ rs then f r else c.reg r } := by
  induction rs generalizing c with
  | nil =>
    refine Cpu.ext (funext fun r => ?_) rfl rfl rfl rfl rfl
    by_cases hr : r = .rsp
    · subst hr
      simp [popAll, sp]
    · simp [popAll, hr]
  | cons r rs ih =>
    rw [List.length_cons] at hwords hroom
    rw [Memory.words, List.map_cons, List.cons.injEq] at hwords
    obtain ⟨hfirst, hrest⟩ := hwords
    have hr : r ≠ .rsp := fun heq => hrs (heq ▸ List.mem_cons_self)
    have hsp := sp_pop hr (c := c) (by omega)
    have hpop : c.popAll (r :: rs) = (c.pop r).popAll rs := rfl
    rw [hpop, ih (fun hmem => hrs (List.mem_cons_of_mem _ hmem)) (by rw [hsp]; exact hrest)
      (by rw [hsp]; omega)]
    refine Cpu.ext (funext fun q => ?_) rfl rfl rfl rfl rfl
    have hnext : c.sp + 8 + 8 * rs.length = c.sp + 8 * (rs.length + 1) := by omega
    simp only [hsp, hnext, List.length_cons, List.mem_cons]
    -- The stack pointer, a register that is popped later, the one popped first, and the rest.
    by_cases hq : q = .rsp
    · rw [if_pos hq, if_pos hq]
    rw [if_neg hq, if_neg hq]
    by_cases hmem : q ∈ rs
    · rw [if_pos hmem, if_pos (.inr hmem)]
    rw [if_neg hmem]
    unfold pop
    by_cases hqr : q = r
    · subst hqr
      rw [if_pos (.inl rfl), set_self, hfirst]
    · rw [if_neg (by tauto), set_of_ne _ _ hqr, set_of_ne _ _ hq]

/-- What is left after registers were popped, with further words behind them. -/
theorem popAll_spec {ws : List UInt64} (hrs : .rsp ∉ rs)
    (hwords : c.mem.words c.sp (rs.length + ws.length) = rs.map f ++ ws)
    (hroom : c.sp + 8 * rs.length < 2 ^ 64) :
    (∀ r ∈ rs, (c.popAll rs).reg r = f r) ∧ (c.popAll rs).sp = c.sp + 8 * rs.length ∧
      (c.popAll rs).mem = c.mem ∧ c.mem.words (c.sp + 8 * rs.length) ws.length = ws := by
  rw [Memory.words_add] at hwords
  obtain ⟨hregs, hrest⟩ := List.append_inj hwords (by rw [Memory.length_words, List.length_map])
  have hpop := popAll_eq hrs hregs hroom
  refine ⟨?_, ?_, by rw [hpop], hrest⟩
  · intro r hr
    have hne : r ≠ .rsp := fun heq => hrs (heq ▸ hr)
    rw [hpop]
    simp only [if_neg hne, if_pos hr]
  · unfold sp
    rw [hpop]
    simp only [if_true]
    exact UInt64.toNat_ofNat_of_lt' hroom

/-- **Back from an interrupt**: when the registers are as they were, and the frame is on the
    stack, the processor is as it was. -/
theorem iretq_eq {c₀ : Cpu} (hregs : ∀ r, r ≠ .rsp → c.reg r = c₀.reg r)
    (hwords : c.mem.words c.sp 5 = [c₀.rip, c₀.cs, c₀.rflags, c₀.reg .rsp, c₀.ss]) :
    c.iretq = { c₀ with mem := c.mem } := by
  simp only [Memory.words, List.cons.injEq] at hwords
  obtain ⟨hrip, hcs, hrflags, hrsp, hss, _⟩ := hwords
  refine Cpu.ext (funext fun r => ?_) hrip hrflags hcs hss rfl
  by_cases hr : r = .rsp
  · rw [hr, rsp_iretq]
    exact hrsp
  · rw [reg_iretq c hr]
    exact hregs r hr

end pop

end Cpu

end X86
