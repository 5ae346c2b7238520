import Mathlib.Logic.Function.Basic
import Scdk.Core.Scheduler
import Scdk.Lib.Bits
import Scdk.Lib.Words

/-! # Switching between threads

    Model of `arch/x86_64/context_switch.S`, and of the functions of `core/scheduler.c` that
    make the first context of a thread and switch to another one.

    * `contextSwitch`, `makeKernelThreadContext`, `switchToThread`: the code, over registers
      and memory,
    * `Threads`: threads that each have registers and a stack of their own,
    * `Switching`: the processor between the threads, next to that view of it,
    * `Matches.compute`, `Matches.create`, `Matches.switchTo`: one step,
    * `switch_returns`, `thread_starts`: over every run, a thread finds its registers and the
      part of its stack that is in use as it left them, and a new one finds its first. -/

namespace Scdk

/-! ## Functions -/

/-- The registers that a call keeps, the stack pointer, and the next instruction. -/
structure Registers where
  r15 : UInt64
  r14 : UInt64
  r13 : UInt64
  r12 : UInt64
  rbx : UInt64
  rbp : UInt64
  rsp : UInt64
  rip : UInt64
  deriving DecidableEq, Repr

/-- `scdk_context_switch`, with the addresses of the two contexts. -/
def contextSwitch (old new : Nat) (r : Registers) (m : Memory) : Registers × Memory :=
  let m := m.setWord (old + 0) r.r15
  let m := m.setWord (old + 8) r.r14
  let m := m.setWord (old + 16) r.r13
  let m := m.setWord (old + 24) r.r12
  let m := m.setWord (old + 32) r.rbx
  let m := m.setWord (old + 40) r.rbp
  let m := m.setWord (old + 48) r.rsp
  let rsp := m.word (new + 48)
  ({ r15 := m.word (new + 0)
     r14 := m.word (new + 8)
     r13 := m.word (new + 16)
     r12 := m.word (new + 24)
     rbx := m.word (new + 32)
     rbp := m.word (new + 40)
     rsp := rsp + 8
     rip := m.word rsp.toNat }, m)

/-- The addresses of `thread_table` and of `thread_trampoline`. -/
structure ThreadSymbols where
  table : Nat
  trampoline : UInt64

/-- `sizeof(struct scdk_thread_slot)` -/
def threadSlotSize : Nat := 136

section functions

variable (σ : ThreadSymbols)

/-- The context of a thread, which is the first member of its slot. -/
def contextAddress (i : Fin maxThreads) : Nat := σ.table + threadSlotSize * i.val

/-- The stack pointer in the first context of a thread. -/
def firstStackPointer (kernelStack : UInt64) : UInt64 :=
  ((kernelStack + kernelStackSize) &&& ~~~0xf) - 16

/-- `make_kernel_thread_context`; the member `stack_top` is at 112 in the slot. -/
def makeKernelThreadContext (i : Fin maxThreads) (kernelStack : UInt64) (m : Memory) : Memory :=
  let stackTop := kernelStack + kernelStackSize
  let sp := firstStackPointer kernelStack
  let m := m.setWord sp.toNat σ.trampoline
  let m := m.setWord (sp + 8).toNat 0
  let context := contextAddress σ i
  let m := m.setWord (context + 0) 0
  let m := m.setWord (context + 8) 0
  let m := m.setWord (context + 16) 0
  let m := m.setWord (context + 24) 0
  let m := m.setWord (context + 32) 0
  let m := m.setWord (context + 40) 0
  let m := m.setWord (context + 48) sp
  m.setWord (context + 112) stackTop

/-- The call at the end of `switch_to_thread`, which returns to `ret`. -/
def switchToThread (old next : Fin maxThreads) (ret : UInt64) (r : Registers) (m : Memory) :
    Registers × Memory :=
  let r := { r with rsp := r.rsp - 8 }
  let m := m.setWord r.rsp.toNat ret
  contextSwitch (contextAddress σ old) (contextAddress σ next) r m

end functions

/-! ## Threads by themselves -/

/-- A thread by itself.  Its part of memory is from `lo` to `hi`, and its stack is in use
    from the stack pointer to `top`. -/
structure ThreadView where
  regs : Registers
  stack : Memory
  lo : Nat
  top : Nat
  hi : Nat

/-- The stack pointer is within the stack, with place for one more word. -/
structure ThreadView.Wf (v : ThreadView) : Prop where
  room : v.lo + 8 ≤ v.regs.rsp.toNat
  used : v.regs.rsp.toNat ≤ v.top
  own : v.top ≤ v.hi

/-- The processor, and the threads by themselves. -/
structure Switching where
  regs : Registers
  mem : Memory
  current : Fin maxThreads
  view : Fin maxThreads → Option ThreadView

/-- What happens: the current thread computes, with any registers and memory after it, a
    thread is made on a block of memory, or the current thread switches to another one. -/
inductive SwitchEvent where
  | compute (regs : Registers) (mem : Memory)
  | create (i : Fin maxThreads) (kernelStack : UInt64)
  | switchTo (i : Fin maxThreads) (ret : UInt64)

section runs

variable (σ : ThreadSymbols)

/-- A thread that has not run yet: it starts in the trampoline, with the word 0 above it. -/
def newThread (kernelStack : UInt64) : ThreadView where
  regs := ⟨0, 0, 0, 0, 0, 0, firstStackPointer kernelStack + 8, σ.trampoline⟩
  stack := fun _ => 0
  lo := kernelStack.toNat
  top := (firstStackPointer kernelStack).toNat + 16
  hi := kernelStack.toNat + kernelStackSize.toNat

/-- The state after an event. -/
def Switching.step (s : Switching) : SwitchEvent → Switching
  | .compute regs mem =>
    { s with
      regs := regs
      mem := mem
      view := Function.update s.view s.current
        ((s.view s.current).map fun v => { v with regs := regs, stack := mem }) }
  | .create i kernelStack =>
    { s with
      mem := makeKernelThreadContext σ i kernelStack s.mem
      view := Function.update s.view i (some (newThread σ kernelStack)) }
  | .switchTo i ret =>
    let out := switchToThread σ s.current i ret s.regs s.mem
    { regs := out.1
      mem := out.2
      current := i
      view := Function.update s.view s.current
        ((s.view s.current).map fun v => { v with regs := { v.regs with rip := ret } }) }

/-- The address is in the part of a thread, or in its context. -/
def Switching.Owns (s : Switching) (i : Fin maxThreads) (a : Nat) : Prop :=
  (∃ v, s.view i = some v ∧ v.lo ≤ a ∧ a < v.hi) ∨
    contextAddress σ i ≤ a ∧ a < contextAddress σ i + 56

/-- A block of memory that is nobody's. -/
structure Switching.Free (s : Switching) (lo hi : Nat) : Prop where
  table : hi ≤ σ.table ∨ σ.table + threadSlotSize * maxThreads ≤ lo
  apart : ∀ i v, s.view i = some v → hi ≤ v.lo ∨ v.hi ≤ lo

/-- The events of a run: a thread keeps within its stack and off what the others own, stacks
    are made on free memory, and the thread that is switched to exists. -/
def Switching.Allows (s : Switching) : SwitchEvent → Prop
  | .compute regs mem =>
    (∀ i a, i ≠ s.current → s.view i ≠ none → s.Owns σ i a → mem a = s.mem a) ∧
      ∀ v, s.view s.current = some v → v.lo + 8 ≤ regs.rsp.toNat ∧ regs.rsp.toNat ≤ v.top
  | .create i kernelStack =>
    s.view i = none ∧ kernelStack.toNat + kernelStackSize.toNat < 2 ^ 64 ∧
      s.Free σ kernelStack.toNat (kernelStack.toNat + kernelStackSize.toNat)
  | .switchTo i _ => s.view i ≠ none ∧ i ≠ s.current

/-- Only the thread that runs exists. -/
structure Switching.Start (s : Switching) : Prop where
  only : ∀ i, i ≠ s.current → s.view i = none
  current : ∃ v, s.view s.current = some v ∧ v.regs = s.regs ∧ v.stack = s.mem ∧ v.Wf ∧
    (v.hi ≤ σ.table ∨ σ.table + threadSlotSize * maxThreads ≤ v.lo)

/-- The states that a run can reach. -/
inductive Switching.Reaches : Switching → Prop where
  | start {s : Switching} : s.Start σ → Reaches s
  | step {s : Switching} (e : SwitchEvent) : Reaches s → s.Allows σ e → Reaches (s.step σ e)

end runs

/-! ## What a switch keeps -/

/-- The words of a context. -/
def Registers.saved (r : Registers) : List UInt64 :=
  [r.r15, r.r14, r.r13, r.r12, r.rbx, r.rbp, r.rsp - 8]

/-- The context and the stack of a thread that does not run. -/
structure Suspended (m : Memory) (context : Nat) (v : ThreadView) : Prop where
  context : m.words context 7 = v.regs.saved
  ret : m.word (v.regs.rsp - 8).toNat = v.regs.rip

/-- The processor shows every thread what is its own. -/
structure Matches (σ : ThreadSymbols) (s : Switching) : Prop where
  running : ∃ v, s.view s.current = some v ∧ v.regs = s.regs
  suspended : ∀ i v, i ≠ s.current → s.view i = some v → Suspended s.mem (contextAddress σ i) v
  stack : ∀ i v, s.view i = some v → ∀ a, v.regs.rsp.toNat ≤ a → a < v.top → s.mem a = v.stack a
  wf : ∀ i v, s.view i = some v → v.Wf
  table : ∀ i v, s.view i = some v → v.hi ≤ σ.table ∨ σ.table + threadSlotSize * maxThreads ≤ v.lo
  apart : ∀ i j v w, i ≠ j → s.view i = some v → s.view j = some w → v.hi ≤ w.lo ∨ w.hi ≤ v.lo

section steps

variable {σ : ThreadSymbols} {s : Switching} {m m' : Memory} {v : ThreadView}
  {i j : Fin maxThreads} {context : Nat}

theorem contextAddress_apart (h : i ≠ j) :
    contextAddress σ i + threadSlotSize ≤ contextAddress σ j ∨
      contextAddress σ j + threadSlotSize ≤ contextAddress σ i := by
  have hne : i.val ≠ j.val := fun heq => h (Fin.ext heq)
  unfold contextAddress threadSlotSize
  omega

theorem contextAddress_mem (σ : ThreadSymbols) (i : Fin maxThreads) :
    σ.table ≤ contextAddress σ i ∧
      contextAddress σ i + threadSlotSize ≤ σ.table + threadSlotSize * maxThreads := by
  have hi := i.isLt
  unfold contextAddress threadSlotSize
  omega

theorem ThreadView.Wf.toNat_ret (h : v.Wf) : (v.regs.rsp - 8).toNat = v.regs.rsp.toNat - 8 := by
  have hroom := h.room
  rw [UInt64.toNat_sub_of_le]
  · rfl
  · rw [UInt64.le_iff_toNat_le]
    show 8 ≤ _
    omega

/-- Only the context and the stack of the thread matter. -/
theorem Suspended.congr (h : Suspended m context v) (hv : v.Wf)
    (hcontext : ∀ a, context ≤ a → a < context + 56 → m' a = m a)
    (hstack : ∀ a, v.lo ≤ a → a < v.hi → m' a = m a) : Suspended m' context v where
  context := (Memory.words_congr hcontext).trans h.context
  ret := by
    have hroom := hv.room
    have hused := hv.used
    have hown := hv.own
    rw [← h.ret]
    apply Memory.word_congr
    intro a hlo hhi
    rw [hv.toNat_ret] at hlo hhi
    exact hstack a (by omega) (by omega)

/-! ### One view is changed -/

section update

variable {view : Fin maxThreads → Option ThreadView} {v' : ThreadView}

theorem forall_update {P : Fin maxThreads → ThreadView → Prop} (hnew : P i v')
    (hold : ∀ j v, j ≠ i → view j = some v → P j v) :
    ∀ j v, Function.update view i (some v') j = some v → P j v := by
  intro j v hv
  by_cases hj : j = i
  · subst hj
    rw [Function.update_self] at hv
    obtain rfl := Option.some.inj hv
    exact hnew
  · rw [Function.update_of_ne hj] at hv
    exact hold j v hj hv

/-- No two parts of memory meet. -/
def ViewsApart (view : Fin maxThreads → Option ThreadView) : Prop :=
  ∀ i j v w, i ≠ j → view i = some v → view j = some w → v.hi ≤ w.lo ∨ w.hi ≤ v.lo

theorem ViewsApart.update (h : ViewsApart view)
    (hnew : ∀ j w, j ≠ i → view j = some w → v'.hi ≤ w.lo ∨ w.hi ≤ v'.lo) :
    ViewsApart (Function.update view i (some v')) := by
  intro j k v w hjk hv hw
  by_cases hj : j = i
  · subst hj
    rw [Function.update_self] at hv
    rw [Function.update_of_ne (Ne.symm hjk)] at hw
    obtain rfl := Option.some.inj hv
    exact hnew k w (Ne.symm hjk) hw
  · rw [Function.update_of_ne hj] at hv
    by_cases hk : k = i
    · subst hk
      rw [Function.update_self] at hw
      obtain rfl := Option.some.inj hw
      exact (hnew j v hj hv).symm
    · rw [Function.update_of_ne hk] at hw
      exact h j k v w hjk hv hw

end update

/-! ### The events -/

/-- The current thread computes. -/
theorem Matches.compute (h : Matches σ s) {regs : Registers} {mem : Memory}
    (hallow : s.Allows σ (.compute regs mem)) : Matches σ (s.step σ (.compute regs mem)) := by
  obtain ⟨v, hv, _⟩ := h.running
  obtain ⟨hmem, hroom⟩ := hallow
  have hview : (s.step σ (.compute regs mem)).view =
      Function.update s.view s.current (some { v with regs := regs, stack := mem }) := by
    simp [Switching.step, hv]
  -- What the other threads own is as before.
  have hkept : ∀ i w a, i ≠ s.current → s.view i = some w → s.Owns σ i a → mem a = s.mem a := by
    intro i w a hi hw howns
    exact hmem i a hi (by simp [hw]) howns
  have hwf := h.wf _ _ hv
  refine
    { running := ⟨{ v with regs := regs, stack := mem }, ?_, rfl⟩
      suspended := ?_, stack := ?_, wf := ?_, table := ?_, apart := ?_ }
  · rw [hview]
    exact Function.update_self _ _ _
  · intro i w hi hw
    have hi : i ≠ s.current := hi
    rw [hview, Function.update_of_ne hi] at hw
    apply (h.suspended i w hi hw).congr (h.wf i w hw)
    · exact fun a hlo hhi => hkept i w a hi hw (.inr ⟨hlo, hhi⟩)
    · exact fun a hlo hhi => hkept i w a hi hw (.inl ⟨w, hw, hlo, hhi⟩)
  · rw [hview]
    apply forall_update
    · exact fun _ _ _ => rfl
    · intro i w hi hw a hlo hhi
      have hw' := h.wf i w hw
      have hroom := hw'.room
      have hown := hw'.own
      rw [← h.stack i w hw a hlo hhi]
      exact hkept i w a hi hw (.inl ⟨w, hw, by omega, by omega⟩)
  · rw [hview]
    exact forall_update ⟨(hroom v hv).1, (hroom v hv).2, hwf.own⟩ fun i w _ => h.wf i w
  · rw [hview]
    exact forall_update (h.table _ v hv) fun i w _ => h.table i w
  · rw [hview]
    apply ViewsApart.update h.apart
    exact fun i w hi hw => h.apart _ i v w (Ne.symm hi) hv hw

/-- The other thread goes on where it was. -/
theorem contextSwitch_regs {old new : Nat} {r : Registers}
    (h : Suspended (contextSwitch old new r m).2 new v) : (contextSwitch old new r m).1 = v.regs := by
  have hwords := h.context
  have hret := h.ret
  have hload : (contextSwitch old new r m).1 =
      { r15 := (contextSwitch old new r m).2.word new
        r14 := (contextSwitch old new r m).2.word (new + 8)
        r13 := (contextSwitch old new r m).2.word (new + 8 + 8)
        r12 := (contextSwitch old new r m).2.word (new + 8 + 8 + 8)
        rbx := (contextSwitch old new r m).2.word (new + 8 + 8 + 8 + 8)
        rbp := (contextSwitch old new r m).2.word (new + 8 + 8 + 8 + 8 + 8)
        rsp := (contextSwitch old new r m).2.word (new + 8 + 8 + 8 + 8 + 8 + 8) + 8
        rip := (contextSwitch old new r m).2.word
          ((contextSwitch old new r m).2.word (new + 8 + 8 + 8 + 8 + 8 + 8)).toNat } := rfl
  simp only [Memory.words, Registers.saved, List.cons.injEq] at hwords
  obtain ⟨h15, h14, h13, h12, hbx, hbp, hsp, _⟩ := hwords
  rw [hload, h15, h14, h13, h12, hbx, hbp, hsp, hret, UInt64.sub_add_cancel]

/-- The current thread switches to another one. -/
theorem Matches.switchTo (h : Matches σ s) {ret : UInt64}
    (hallow : s.Allows σ (.switchTo i ret)) : Matches σ (s.step σ (.switchTo i ret)) := by
  obtain ⟨v, hv, hregs⟩ := h.running
  obtain ⟨w, hw⟩ := Option.ne_none_iff_exists'.mp hallow.1
  have hwf := h.wf _ _ hv
  have htable := h.table _ _ hv
  have hroom := hwf.room
  have hused := hwf.used
  have hown := hwf.own
  have hthere := contextAddress_mem σ s.current
  have hret := hwf.toNat_ret
  have hview : (s.step σ (.switchTo i ret)).view = Function.update s.view s.current
      (some { v with regs := { v.regs with rip := ret } }) := by
    simp [Switching.step, hv]
  have hmem : (s.step σ (.switchTo i ret)).mem =
      (s.mem.setWord (v.regs.rsp - 8).toNat ret).setWords (contextAddress σ s.current) v.regs.saved := by
    rw [hregs]
    rfl
  have hlength : v.regs.saved.length = 7 := rfl
  -- Only the context and the word below the stack pointer of the current thread are written.
  have hother : ∀ a, a < v.regs.rsp.toNat - 8 ∨ v.regs.rsp.toNat ≤ a →
      a < contextAddress σ s.current ∨ contextAddress σ s.current + 56 ≤ a →
      (s.step σ (.switchTo i ret)).mem a = s.mem a := by
    intro a hstack hcontext
    rw [hmem, Memory.setWords_of_not_mem (by rw [hlength]; exact hcontext),
      Memory.setWord_of_not_mem (by omega)]
  have hsuspended : ∀ j u, j ≠ s.current → s.view j = some u →
      Suspended (s.step σ (.switchTo i ret)).mem (contextAddress σ j) u := by
    intro j u hj hu
    have hthere' := contextAddress_mem σ j
    have hcontexts := contextAddress_apart (σ := σ) hj
    have htable' := h.table j u hu
    have hstacks := h.apart j _ u v hj hu hv
    unfold threadSlotSize at hthere hthere' hcontexts htable htable'
    apply (h.suspended j u hj hu).congr (h.wf j u hu)
    · intro a hlo hhi
      exact hother a (by omega) (by omega)
    · intro a hlo hhi
      exact hother a (by omega) (by omega)
  refine
    { running := ⟨w, ?_, ?_⟩, suspended := ?_, stack := ?_, wf := ?_, table := ?_, apart := ?_ }
  · rw [hview]
    show Function.update s.view s.current _ i = some w
    rw [Function.update_of_ne hallow.2]
    exact hw
  · exact (contextSwitch_regs (hsuspended i w hallow.2 hw)).symm
  · rw [hview]
    intro j u hj hu
    by_cases hcurrent : j = s.current
    · -- the thread that ran until now
      subst hcurrent
      rw [Function.update_self] at hu
      obtain rfl := Option.some.inj hu
      refine ⟨?_, ?_⟩
      · rw [hmem]
        exact Memory.words_setWords _ _ v.regs.saved
      · show (s.step σ (.switchTo i ret)).mem.word (v.regs.rsp - 8).toNat = ret
        rw [hmem]
        refine (Memory.word_congr fun a hlo hhi => ?_).trans (Memory.word_setWord s.mem _ ret)
        unfold threadSlotSize at hthere htable
        apply Memory.setWords_of_not_mem
        rw [hlength]
        omega
    · rw [Function.update_of_ne hcurrent] at hu
      exact hsuspended j u hcurrent hu
  · rw [hview]
    apply forall_update
    · intro a hlo hhi
      have hlo : v.regs.rsp.toNat ≤ a := hlo
      have hhi : a < v.top := hhi
      unfold threadSlotSize at hthere htable
      rw [hother a (by omega) (by omega)]
      exact h.stack _ v hv a hlo hhi
    · intro j u hj hu a hlo hhi
      have hwf' := h.wf j u hu
      have hroom' := hwf'.room
      have hown' := hwf'.own
      have htable' := h.table j u hu
      have hstacks := h.apart j _ u v hj hu hv
      unfold threadSlotSize at hthere htable htable'
      rw [hother a (by omega) (by omega)]
      exact h.stack j u hu a hlo hhi
  · rw [hview]
    exact forall_update ⟨hroom, hused, hown⟩ fun j u _ => h.wf j u
  · rw [hview]
    exact forall_update htable fun j u _ => h.table j u
  · rw [hview]
    apply ViewsApart.update h.apart
    exact fun j u hj hu => h.apart _ j v u (Ne.symm hj) hv hu

/-- The first stack pointer of a thread lies in its block, at a multiple of 16. -/
theorem toNat_firstStackPointer {kernelStack : UInt64}
    (h : kernelStack.toNat + kernelStackSize.toNat < 2 ^ 64) :
    (firstStackPointer kernelStack).toNat = (kernelStack.toNat + 16384) / 16 * 16 - 16 := by
  have hsize : kernelStackSize.toNat = 16384 := rfl
  have htop : (kernelStack + kernelStackSize).toNat = kernelStack.toNat + 16384 := by
    rw [UInt64.toNat_add, Nat.mod_eq_of_lt h, hsize]
  have hdown : ((kernelStack + kernelStackSize) &&& ~~~0xf).toNat =
      (kernelStack.toNat + 16384) / 16 * 16 := by
    rw [Bits.toNat_and_not (k := 4) (by decide) (by decide), htop]
    rfl
  unfold firstStackPointer
  rw [UInt64.toNat_sub_of_le, hdown]
  · rfl
  · rw [UInt64.le_iff_toNat_le, hdown]
    show 16 ≤ _
    omega

/-- A thread is made. -/
theorem Matches.create (h : Matches σ s) {kernelStack : UInt64}
    (hallow : s.Allows σ (.create i kernelStack)) : Matches σ (s.step σ (.create i kernelStack)) := by
  obtain ⟨hnone, hfits, hfree⟩ := hallow
  obtain ⟨v, hv, hregs⟩ := h.running
  have hcurrent : s.current ≠ i := by
    intro heq
    rw [heq, hnone] at hv
    cases hv
  have hsize : kernelStackSize.toNat = 16384 := rfl
  have hsp := toNat_firstStackPointer hfits
  have hthere := contextAddress_mem σ i
  have hblock := hfree.table
  unfold threadSlotSize at hthere hblock
  rw [hsize] at hfits hblock
  have hsp8 : (firstStackPointer kernelStack + 8).toNat = (firstStackPointer kernelStack).toNat + 8 := by
    rw [UInt64.toNat_add]
    show (_ + 8) % 2 ^ 64 = _
    omega
  have hmem : (s.step σ (.create i kernelStack)).mem =
      (((s.mem.setWord (firstStackPointer kernelStack).toNat σ.trampoline).setWord
        (firstStackPointer kernelStack + 8).toNat 0).setWords (contextAddress σ i)
        [0, 0, 0, 0, 0, 0, firstStackPointer kernelStack]).setWord (contextAddress σ i + 112)
        (kernelStack + kernelStackSize) := rfl
  -- Only the slot and the top of the block are written.
  have hother : ∀ a, a < (firstStackPointer kernelStack).toNat ∨
        (firstStackPointer kernelStack).toNat + 16 ≤ a →
      a < contextAddress σ i ∨ contextAddress σ i + 136 ≤ a →
      (s.step σ (.create i kernelStack)).mem a = s.mem a := by
    intro a hstack hslot
    rw [hmem, Memory.setWord_of_not_mem (by omega), Memory.setWords_of_not_mem (by
      show a < _ ∨ contextAddress σ i + 56 ≤ a
      omega), Memory.setWord_of_not_mem (by omega), Memory.setWord_of_not_mem (by omega)]
  have hstackBytes : ∀ a, kernelStack.toNat ≤ a → a < kernelStack.toNat + 16384 →
      (s.step σ (.create i kernelStack)).mem a =
        ((s.mem.setWord (firstStackPointer kernelStack).toNat σ.trampoline).setWord
          (firstStackPointer kernelStack + 8).toNat 0) a := by
    intro a hlo hhi
    rw [hmem, Memory.setWord_of_not_mem (by omega), Memory.setWords_of_not_mem (by
      show a < _ ∨ contextAddress σ i + 56 ≤ a
      omega)]
  have hapart : ∀ j u, s.view j = some u →
      kernelStack.toNat + 16384 ≤ u.lo ∨ u.hi ≤ kernelStack.toNat := by
    intro j u hu
    have := hfree.apart j u hu
    rwa [hsize] at this
  refine
    { running := ⟨v, ?_, hregs⟩, suspended := ?_, stack := ?_, wf := ?_, table := ?_, apart := ?_ }
  · show Function.update s.view i (some (newThread σ kernelStack)) s.current = some v
    rw [Function.update_of_ne hcurrent]
    exact hv
  · have hall : ∀ j u, Function.update s.view i (some (newThread σ kernelStack)) j = some u →
        j ≠ s.current → Suspended (s.step σ (.create i kernelStack)).mem (contextAddress σ j) u := by
      apply forall_update
      · intro _
        refine ⟨?_, ?_⟩
        · have hwords : (s.step σ (.create i kernelStack)).mem.words (contextAddress σ i) 7 =
              [0, 0, 0, 0, 0, 0, firstStackPointer kernelStack] := by
            rw [hmem, Memory.words_setWord_of_disjoint (by omega)]
            exact Memory.words_setWords _ _ _
          rw [hwords]
          simp [Registers.saved, newThread]
        · show (s.step σ (.create i kernelStack)).mem.word (firstStackPointer kernelStack + 8 - 8).toNat =
            σ.trampoline
          rw [UInt64.add_sub_cancel]
          refine (Memory.word_congr fun a hlo hhi => ?_).trans
            (Memory.word_setWord s.mem (firstStackPointer kernelStack).toNat σ.trampoline)
          rw [hstackBytes a (by omega) (by omega)]
          exact Memory.setWord_of_not_mem (by omega)
      · intro j u hj hu hnot
        have hwf := h.wf j u hu
        have hthere' := contextAddress_mem σ j
        have hcontexts := contextAddress_apart (σ := σ) hj
        have htable := h.table j u hu
        have hstacks := hapart j u hu
        unfold threadSlotSize at hthere' hcontexts htable
        apply (h.suspended j u hnot hu).congr hwf
        · intro a hlo hhi
          exact hother a (by omega) (by omega)
        · intro a hlo hhi
          exact hother a (by omega) (by omega)
    exact fun j u hj hu => hall j u hu hj
  · apply forall_update
    · intro a hlo hhi
      have hlo : (firstStackPointer kernelStack + 8).toNat ≤ a := hlo
      have hhi : a < (firstStackPointer kernelStack).toNat + 16 := hhi
      rw [hstackBytes a (by omega) (by omega)]
      exact Memory.setWord_zero_of_mem (by omega)
    · intro j u hj hu a hlo hhi
      have hwf := h.wf j u hu
      have hroom := hwf.room
      have hown := hwf.own
      have htable := h.table j u hu
      have hstacks := hapart j u hu
      unfold threadSlotSize at htable
      rw [hother a (by omega) (by omega)]
      exact h.stack j u hu a hlo hhi
  · apply forall_update
    · refine ⟨?_, ?_, ?_⟩
      · show kernelStack.toNat + 8 ≤ (firstStackPointer kernelStack + 8).toNat
        omega
      · show (firstStackPointer kernelStack + 8).toNat ≤ (firstStackPointer kernelStack).toNat + 16
        omega
      · show (firstStackPointer kernelStack).toNat + 16 ≤ kernelStack.toNat + 16384
        omega
    · exact fun j u _ hu => h.wf j u hu
  · exact forall_update hfree.table fun j u _ hu => h.table j u hu
  · apply ViewsApart.update h.apart
    intro j u _ hu
    exact hapart j u hu

theorem Switching.Start.matches (h : s.Start σ) : Matches σ s := by
  obtain ⟨v, hv, hregs, hstack, hwf, htable⟩ := h.current
  -- There is no other thread.
  have honly : ∀ i w, s.view i = some w → i = s.current ∧ w = v := by
    intro i w hw
    by_cases hi : i = s.current
    · rw [hi, hv] at hw
      exact ⟨hi, (Option.some.inj hw).symm⟩
    · rw [h.only i hi] at hw
      cases hw
  exact
    { running := ⟨v, hv, hregs⟩
      suspended := fun i w hi hw => absurd (honly i w hw).1 hi
      stack := fun i w hw a _ _ => by rw [(honly i w hw).2, hstack]
      wf := fun i w hw => (honly i w hw).2 ▸ hwf
      table := fun i w hw => (honly i w hw).2 ▸ htable
      apart := fun i j w u hij hw hu => absurd ((honly i w hw).1.trans (honly j u hu).1.symm) hij }

/-- **One event.** -/
theorem Matches.step (h : Matches σ s) {e : SwitchEvent} (hallow : s.Allows σ e) :
    Matches σ (s.step σ e) := by
  cases e with
  | compute regs mem => exact h.compute hallow
  | create i kernelStack => exact h.create hallow
  | switchTo i ret => exact h.switchTo hallow

theorem matches_of_reaches (h : s.Reaches σ) : Matches σ s := by
  induction h with
  | start h => exact h.matches
  | step e _ hallow ih => exact ih.step hallow

end steps

/-! ## Coming back -/

/-- A run in which the thread `c` does not run. -/
inductive Switching.Meanwhile (σ : ThreadSymbols) (c : Fin maxThreads) (s : Switching) :
    Switching → Prop where
  | refl : Meanwhile σ c s s
  | step {s' : Switching} (e : SwitchEvent) : Meanwhile σ c s s' → s'.current ≠ c →
      s'.Allows σ e → Meanwhile σ c s (s'.step σ e)

section back

variable {σ : ThreadSymbols} {s s' : Switching} {c i : Fin maxThreads} {v : ThreadView} {ret : UInt64}

theorem Switching.Meanwhile.reaches (h : s.Meanwhile σ c s') (hs : s.Reaches σ) : s'.Reaches σ := by
  induction h with
  | refl => exact hs
  | step e _ _ hallow ih => exact .step e ih hallow

/-- The others do not change what the thread has. -/
theorem view_step (hv : s.view c = some v) (hc : s.current ≠ c) {e : SwitchEvent}
    (hallow : s.Allows σ e) : (s.step σ e).view c = some v := by
  cases e with
  | compute regs mem => exact (Function.update_of_ne (Ne.symm hc) _ _).trans hv
  | create i kernelStack =>
    have hi : c ≠ i := by
      rintro rfl
      rw [hallow.1] at hv
      cases hv
    exact (Function.update_of_ne hi _ _).trans hv
  | switchTo i ret => exact (Function.update_of_ne (Ne.symm hc) _ _).trans hv

theorem Switching.Meanwhile.view (h : s.Meanwhile σ c s') (hv : s.view c = some v) :
    s'.view c = some v := by
  induction h with
  | refl => exact hv
  | step e _ hc hallow ih => exact view_step ih hc hallow

/-- A thread that is switched to has what it had. -/
theorem resume (h : s.Reaches σ) (hv : s.view c = some v) (hrun : s.Meanwhile σ c s')
    (hback : s'.Allows σ (.switchTo c ret)) :
    (s'.step σ (.switchTo c ret)).regs = v.regs ∧
      ∀ a, v.regs.rsp.toNat ≤ a → a < v.top → (s'.step σ (.switchTo c ret)).mem a = v.stack a := by
  have hmatches := matches_of_reaches ((hrun.reaches h).step _ hback)
  have hview := view_step (hrun.view hv) (Ne.symm hback.2) hback
  obtain ⟨w, hw, hregs⟩ := hmatches.running
  obtain rfl := Option.some.inj (hview.symm.trans hw)
  exact ⟨hregs.symm, hmatches.stack c v hview⟩

/-- The registers and the stack of the current thread are those of the machine. -/
theorem current_view (h : s.Reaches σ) (hv : s.view s.current = some v) :
    v.regs = s.regs ∧ ∀ a, s.regs.rsp.toNat ≤ a → a < v.top → v.stack a = s.mem a := by
  have hmatches := matches_of_reaches h
  obtain ⟨w, hw, hregs⟩ := hmatches.running
  obtain rfl := Option.some.inj (hv.symm.trans hw)
  refine ⟨hregs, fun a hlo hhi => ?_⟩
  rw [← hregs] at hlo
  rw [hmatches.stack _ v hv a hlo hhi]

/-- A thread that switches away goes on behind its call. -/
theorem view_switchTo (hv : s.view s.current = some v) :
    (s.step σ (.switchTo i ret)).view s.current = some { v with regs := { v.regs with rip := ret } } := by
  simp [Switching.step, hv]

/-- Its stack is there when somebody has switched back. -/
theorem stack_back (h : s.Reaches σ) (haway : s.Allows σ (.switchTo i ret))
    (hrun : (s.step σ (.switchTo i ret)).Meanwhile σ s.current s') {ret' : UInt64}
    (hback : s'.Allows σ (.switchTo s.current ret')) (hv : s.view s.current = some v) {a : Nat}
    (hlo : s.regs.rsp.toNat ≤ a) (hhi : a < v.top) :
    (s'.step σ (.switchTo s.current ret')).mem a = s.mem a := by
  obtain ⟨hregs, hmem⟩ := current_view h hv
  obtain ⟨_, hstack⟩ := resume (h.step _ haway) (view_switchTo hv) hrun hback
  rw [← hmem a hlo hhi]
  rw [← hregs] at hlo
  exact hstack a hlo hhi

end back

/-- **Switching is invisible.**  Whatever the other threads do in the meantime, and whoever
    switches back, a thread goes on behind its call of the switch with the registers that it
    had there, and with the stack that it had. -/
theorem switch_returns {σ : ThreadSymbols} {s s' : Switching} (h : s.Reaches σ) {i : Fin maxThreads}
    {ret ret' : UInt64} (haway : s.Allows σ (.switchTo i ret))
    (hrun : (s.step σ (.switchTo i ret)).Meanwhile σ s.current s')
    (hback : s'.Allows σ (.switchTo s.current ret')) {v : ThreadView} (hv : s.view s.current = some v) :
    (s'.step σ (.switchTo s.current ret')).regs = { s.regs with rip := ret } ∧
      ∀ a, s.regs.rsp.toNat ≤ a → a < v.top →
        (s'.step σ (.switchTo s.current ret')).mem a = s.mem a := by
  obtain ⟨hregs, _⟩ := current_view h hv
  obtain ⟨hsame, _⟩ := resume (h.step _ haway) (view_switchTo hv) hrun hback
  rw [hregs] at hsame
  exact ⟨hsame, fun a hlo hhi => stack_back h haway hrun hback hv hlo hhi⟩

/-- A first thread, alone. -/
def oneThread : Switching where
  regs := ⟨1, 2, 3, 4, 5, 6, 0x9000, 7⟩
  mem := fun _ => 0
  current := 0
  view := fun i => if i = 0 then
    some ⟨⟨1, 2, 3, 4, 5, 6, 0x9000, 7⟩, fun _ => 0, 0x8000, 0xa000, 0xa000⟩ else none

/-- It makes a second one. -/
def twoThreads : Switching := oneThread.step ⟨0x100000, 0x400⟩ (.create 1 0x20000)

theorem oneThread_start : oneThread.Start ⟨0x100000, 0x400⟩ where
  only := fun _ hi => if_neg hi
  current := ⟨_, rfl, rfl, rfl, ⟨by decide, by decide, by decide⟩, .inl (by decide)⟩

theorem oneThread_create : oneThread.Allows ⟨0x100000, 0x400⟩ (.create 1 0x20000) := by
  refine ⟨rfl, by decide, .inl (by decide), fun i v hv => ?_⟩
  by_cases hi : i = 0
  · subst hi
    obtain rfl := Option.some.inj hv
    exact .inr (by decide)
  · rw [show oneThread.view i = none from if_neg hi] at hv
    cases hv

/-- The first thread switches to the second, and that one back. -/
theorem switch_returns_twice :
    ((twoThreads.step ⟨0x100000, 0x400⟩ (.switchTo 1 0x500)).step ⟨0x100000, 0x400⟩
      (.switchTo 0 0x600)).regs = ⟨1, 2, 3, 4, 5, 6, 0x9000, 0x500⟩ := by
  have hreaches : twoThreads.Reaches ⟨0x100000, 0x400⟩ :=
    (Switching.Reaches.start oneThread_start).step _ oneThread_create
  have haway : twoThreads.Allows ⟨0x100000, 0x400⟩ (.switchTo 1 0x500) := ⟨nofun, by decide⟩
  have hback : (twoThreads.step ⟨0x100000, 0x400⟩ (.switchTo 1 0x500)).Allows ⟨0x100000, 0x400⟩
      (.switchTo 0 0x600) := ⟨nofun, by decide⟩
  exact (switch_returns hreaches haway .refl hback rfl).1

/-- **A new thread** starts in the trampoline on its own block, with the stack pointer as after
    a call, and with no address to return to. -/
theorem thread_starts {σ : ThreadSymbols} {s s' : Switching} (h : s.Reaches σ) {i : Fin maxThreads}
    {kernelStack ret : UInt64} (hmade : s.Allows σ (.create i kernelStack))
    (hrun : (s.step σ (.create i kernelStack)).Meanwhile σ i s')
    (hfirst : s'.Allows σ (.switchTo i ret)) :
    (s'.step σ (.switchTo i ret)).regs.rip = σ.trampoline ∧
      (s'.step σ (.switchTo i ret)).regs.rsp.toNat % 16 = 8 ∧
      kernelStack.toNat ≤ (s'.step σ (.switchTo i ret)).regs.rsp.toNat ∧
      (s'.step σ (.switchTo i ret)).regs.rsp.toNat + 8 ≤ kernelStack.toNat + kernelStackSize.toNat ∧
      (s'.step σ (.switchTo i ret)).mem.word (s'.step σ (.switchTo i ret)).regs.rsp.toNat = 0 := by
  have hview : (s.step σ (.create i kernelStack)).view i = some (newThread σ kernelStack) :=
    Function.update_self _ _ _
  obtain ⟨hregs, hstack⟩ := resume (h.step _ hmade) hview hrun hfirst
  have hfits := hmade.2.1
  have hsize : kernelStackSize.toNat = 16384 := rfl
  have hsp := toNat_firstStackPointer hfits
  have hrsp : (newThread σ kernelStack).regs.rsp.toNat = (firstStackPointer kernelStack).toNat + 8 := by
    show (firstStackPointer kernelStack + 8).toNat = _
    rw [UInt64.toNat_add]
    show (_ + 8) % 2 ^ 64 = _
    omega
  rw [hregs, hrsp]
  refine ⟨rfl, by omega, by omega, by omega, ?_⟩
  -- The word above the trampoline is 0.
  have hzero : (s'.step σ (.switchTo i ret)).mem.word ((firstStackPointer kernelStack).toNat + 8) =
      Memory.word (fun _ => 0) ((firstStackPointer kernelStack).toNat + 8) := by
    apply Memory.word_congr
    intro a hlo hhi
    exact hstack a (by rw [hrsp]; exact hlo) (by
      show a < (firstStackPointer kernelStack).toNat + 16
      omega)
  rw [hzero]
  rfl

/-- The second thread is switched to. -/
theorem thread_starts_second :
    (twoThreads.step ⟨0x100000, 0x400⟩ (.switchTo 1 0x500)).regs.rip = 0x400 := by
  have hfirst : twoThreads.Allows ⟨0x100000, 0x400⟩ (.switchTo 1 0x500) := ⟨nofun, by decide⟩
  exact (thread_starts (.start oneThread_start) oneThread_create .refl hfirst).1

end Scdk
