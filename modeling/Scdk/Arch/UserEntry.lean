import Scdk.Arch.InterruptEntry
import Scdk.Arch.Usermode

/-! # Into user mode and back

    Model of `arch/x86_64/usermode_entry.S`, over the registers and the stack of the processor
    and the cells of `arch/x86_64/syscall.c`, which are kept apart from memory.  The segment
    registers `ds` and `es` are left out.

    * `UserMachine.enterUsermodeAsm`, `userReturn`, `syscallEntry`, `syscallReturn`, `leaveUser`:
      the code between two changes of ring,
    * `UserRuns`: programs in user mode and functions of the kernel, where a system call can
      run a further program inside,
    * `UserRuns.sound`: by induction on these, a program leaves where it was entered, and a
      function of the kernel keeps what its caller has,
    * `enter_usermode_returns`, `syscall_returns`: for its caller, user mode is a call of a
      function, and so is a system call for a program. -/

namespace Scdk

open X86

/-! ## Functions -/

/-- The processor and the cells of the entries. -/
structure UserMachine where
  cpu : Cpu
  entry : EntryCells
  returnValue : UInt64

namespace UserMachine

/-- The registers that `scdk_enter_usermode_asm` pushes, and in the order in which they are
    popped. -/
def pushedRegs : List Reg := [.r15, .r14, .r13, .r12, .rbx, .rbp]

def poppedRegs : List Reg := [.rbp, .rbx, .r12, .r13, .r14, .r15]

/-- `scdk_enter_usermode_asm`, up to its `iretq`; `luserReturn` is the address of the label
    `.Luser_return`. -/
def enterUsermodeAsm (luserReturn : UInt64) (m : UserMachine) : UserMachine :=
  let c := m.cpu.pushAll pushedRegs
  let c := c.set .r8 (c.reg .rdi)
  let entry := { m.entry with userReturnRsp := c.reg .rsp }
  let c := c.set .rax luserReturn
  let entry := { entry with userReturnRip := c.reg .rax }
  -- `movw` leaves the upper bits of `rax` alone
  let c := c.set .rax (c.reg .rax &&& ~~~0xffff ||| 0x23)
  -- the frame for `iretq`
  let c := c.push 0x23
  let c := c.push (c.reg .rsi)
  let c := c.push 0x2
  let c := c.push 0x2b
  let c := c.push (c.reg .r8)
  let c := c.set .rdi (c.reg .rdx)
  { m with cpu := c.iretq, entry := entry }

/-- `.Luser_return` -/
def userReturn (m : UserMachine) : UserMachine := { m with cpu := (m.cpu.popAll poppedRegs).ret }

/-- `.Lsyscall_exit`, and the same code in `fault_entry.S` -/
def leaveUser (m : UserMachine) : UserMachine :=
  { m with cpu := { m.cpu.set .rsp m.entry.userReturnRsp with rip := m.entry.userReturnRip } }

/-- `scdk_syscall_entry`, up to its call of `scdk_syscall_dispatch`. -/
def syscallEntry (m : UserMachine) : UserMachine :=
  let c := m.cpu
  let entry :=
    { m.entry with
      userRsp := c.reg .rsp
      userRip := c.reg .rcx
      userRflags := c.reg .r11
      arg0 := c.reg .rdi
      arg1 := c.reg .rsi
      arg2 := c.reg .rdx
      arg3 := c.reg .r10 }
  -- nothing is on the stack of the kernel yet: the arguments go through the cells
  let c := c.set .rsp entry.kernelStackTop
  let c := c.set .rdi (c.reg .rax)
  let c := c.set .rsi entry.arg0
  let c := c.set .rdx entry.arg1
  let c := c.set .rcx entry.arg2
  let c := c.set .r8 entry.arg3
  let c := c.set .r9 entry.userRsp
  { m with cpu := c, entry := entry }

/-- `scdk_syscall_entry`, behind the call. -/
def syscallReturn (m : UserMachine) : UserMachine :=
  if m.cpu.reg .rax = 1 then m.leaveUser
  else
    let c := m.cpu.set .rax m.returnValue
    let c := c.set .rcx m.entry.userRip
    let c := c.set .r11 m.entry.userRflags
    let c := c.set .rsp m.entry.userRsp
    { m with cpu := c.sysretq 0x2b 0x23 }

/-- A program executes `syscall`, up to the call of `scdk_syscall_dispatch`; `lstar` and
    `fmask` are what `scdk_syscall_init` has set. -/
def enterKernel (lstar fmask : UInt64) (m : UserMachine) : UserMachine :=
  { m with cpu := m.cpu.syscall lstar fmask 0x08 0x10 }.syscallEntry

/-- A program causes an exception, up to the call of `scdk_fault_dispatch`. -/
def raiseFault (vector : FaultVector) (rsp0 handler error : UInt64) (m : UserMachine) : UserMachine :=
  { m with cpu := vector.enter rsp0 0x08 handler error m.cpu }

/-- `scdk_isr_common`, behind the call. -/
def faultReturn (m : UserMachine) : UserMachine :=
  { m with cpu := isrReturn m.entry.userReturnRsp m.entry.userReturnRip m.cpu }

/-! ## Runs -/

/-- A function that was called at `m` has returned at `m'`: it has kept the registers of its
    caller and the cells of the entries, and the memory `used` that others use. -/
structure Returned (used : Nat → Prop) (m m' : UserMachine) : Prop where
  kept : ∀ r ∈ Cpu.calleeSaved, m'.cpu.reg r = m.cpu.reg r
  entry : m'.entry = m.entry
  mem : ∀ a, used a → m'.cpu.mem a = m.cpu.mem a

/-- `scdk_enter_usermode_asm` was called at `m`, and goes on at `m'` behind the call, with the
    registers of its caller and the memory `used`. -/
structure Resumed (used : Nat → Prop) (m m' : UserMachine) : Prop where
  kept : ∀ r ∈ Cpu.calleeSaved, r ≠ .rsp → m'.cpu.reg r = m.cpu.reg r
  rsp : m'.cpu.reg .rsp = m.cpu.reg .rsp + 8
  rip : m'.cpu.rip = m.cpu.mem.word m.cpu.sp
  mem : ∀ a, used a → m'.cpu.mem a = m.cpu.mem a

/-- At `m` there is a call of `scdk_enter_usermode_asm`: the address to return to is in the
    memory that is used, and there is room below it that is not. -/
structure CanEnter (used : Nat → Prop) (m : UserMachine) : Prop where
  ret : ∀ a, m.cpu.sp ≤ a → a < m.cpu.sp + 8 → used a
  free : ∀ a, used a → a < m.cpu.sp - 88 ∨ m.cpu.sp ≤ a
  room : 88 ≤ m.cpu.sp
  top : m.cpu.sp + 8 < 2 ^ 64

/-- The memory that is used while a program runs: also the registers of the caller. -/
def usedInside (used : Nat → Prop) (m : UserMachine) (a : Nat) : Prop :=
  used a ∨ m.cpu.sp - 48 ≤ a ∧ a < m.cpu.sp

/-- What runs: a program in user mode, or a function of the kernel. -/
inductive RunKind where
  | user
  | kernel

/-- The addresses that the linker gives. -/
structure EntrySymbols where
  luserReturn : UInt64
  lstar : UInt64
  fmask : UInt64

/-- `UserRuns σ kind used m m'`: a program that is at `m` ends at `m'`, where it has jumped to
    `scdk_user_return_rip`, or a function that is called at `m` returns at `m'`.  Programs do
    what they like with the registers and with memory that is not used.  A function of the
    kernel follows the calling convention, provided that the call of `scdk_enter_usermode_asm`
    inside it was one: `scdk_usermode_run_flat_image`, the only one that system calls come to,
    puts the cells back as it has found them. -/
inductive UserRuns (σ : EntrySymbols) : RunKind → (Nat → Prop) → UserMachine → UserMachine → Prop where
  | compute {used : Nat → Prop} {m m₁ m' : UserMachine} :
      m₁.entry = m.entry → (∀ a, used a → m₁.cpu.mem a = m.cpu.mem a) →
      UserRuns σ .user used m₁ m' → UserRuns σ .user used m m'
  | syscall {used : Nat → Prop} {m m₁ m' : UserMachine} :
      UserRuns σ .kernel used (m.enterKernel σ.lstar σ.fmask) m₁ → m₁.cpu.reg .rax ≠ 1 →
      UserRuns σ .user used m₁.syscallReturn m' → UserRuns σ .user used m m'
  | exit {used : Nat → Prop} {m m₁ : UserMachine} :
      UserRuns σ .kernel used (m.enterKernel σ.lstar σ.fmask) m₁ → m₁.cpu.reg .rax = 1 →
      UserRuns σ .user used m m₁.syscallReturn
  | fault {used : Nat → Prop} {m m₁ : UserMachine} (vector : FaultVector) {rsp0 : UInt64}
      (handler error : UInt64) :
      (∀ a, used a → (m.raiseFault vector rsp0 handler error).cpu.mem a = m.cpu.mem a) →
      UserRuns σ .kernel used (m.raiseFault vector rsp0 handler error) m₁ → m₁.cpu.reg .rax = 1 →
      UserRuns σ .user used m m₁.faultReturn
  | leaf {used : Nat → Prop} {m m' : UserMachine} :
      Returned used m m' → UserRuns σ .kernel used m m'
  | nested {used used' : Nat → Prop} {m m₁ m₂ m' : UserMachine} :
      (∀ a, used a → used' a) → (∀ a, used a → m₁.cpu.mem a = m.cpu.mem a) → CanEnter used' m₁ →
      UserRuns σ .user (usedInside used' m₁) (m₁.enterUsermodeAsm σ.luserReturn) m₂ →
      (Resumed used' m₁ m₂.userReturn → Returned used m m') → UserRuns σ .kernel used m m'

/-! ## Entering -/

/-- At `c`, `scdk_enter_usermode_asm` has pushed the registers of its caller. -/
structure Saved (m : UserMachine) (c : Cpu) : Prop where
  sp : c.sp + 48 = m.cpu.sp
  words : c.mem.words c.sp 6 = poppedRegs.map m.cpu.reg
  mem : ∀ a, a < c.sp ∨ m.cpu.sp ≤ a → c.mem a = m.cpu.mem a

/-- A program is entered at `m`, in ring 3, with an entry, a stack and an argument. -/
structure Started (entry stack argument : UInt64) (m : UserMachine) : Prop where
  rip : m.cpu.rip = entry
  rsp : m.cpu.reg .rsp = stack
  rdi : m.cpu.reg .rdi = argument
  cs : m.cpu.cs = 0x2b
  ss : m.cpu.ss = 0x23
  rflags : m.cpu.rflags = 2

section entering

variable {m m' : UserMachine} {used : Nat → Prop} {luserReturn : UInt64}

/-- `scdk_enter_usermode_asm` pushes the registers, and below them the frame for `iretq`. -/
theorem enterUsermodeAsm_eq (luserReturn : UInt64) (hroom : 88 ≤ m.cpu.sp) :
    ∃ c frame, Saved m c ∧
      Cpu.Pushed [m.cpu.reg .rdi, 0x2b, 0x2, m.cpu.reg .rsi, 0x23] c frame ∧
      m.enterUsermodeAsm luserReturn =
        { m with
          cpu := (frame.set .rdi (m.cpu.reg .rdx)).iretq
          entry := { m.entry with userReturnRsp := c.reg .rsp, userReturnRip := luserReturn } } := by
  have hregs := (Cpu.Pushed.refl m.cpu).pushAll (by decide : Reg.rsp ∉ pushedRegs)
    (by show 48 ≤ _; omega)
  -- The registers are pushed, and the address to come back to is stored.
  let c₀ : Cpu := (m.cpu.pushAll pushedRegs).set .r8 ((m.cpu.pushAll pushedRegs).reg .rdi)
  let c₁ : Cpu := c₀.set .rax luserReturn
  let c : Cpu := c₁.set .rax (c₁.reg .rax &&& ~~~0xffff ||| 0x23)
  have hstored : c₁.reg .rax = luserReturn := Cpu.set_self _ _ _
  have hrsp : c₀.reg .rsp = c.reg .rsp :=
    ((Cpu.set_of_ne c₁ _ (by decide)).trans (Cpu.set_of_ne c₀ _ (by decide))).symm
  have hsaved : Saved m c := ⟨hregs.sp, hregs.words, hregs.mem⟩
  have hsp := hsaved.sp
  have hr8 : c.reg .r8 = m.cpu.reg .rdi := hregs.reg .rdi (by decide)
  have hrsi : c.reg .rsi = m.cpu.reg .rsi := hregs.reg .rsi (by decide)
  have hrdx : c.reg .rdx = m.cpu.reg .rdx := hregs.reg .rdx (by decide)
  -- The frame is pushed.
  let f₁ : Cpu := c.push 0x23
  let f₄ : Cpu := ((f₁.push (f₁.reg .rsi)).push 0x2).push 0x2b
  let frame : Cpu := f₄.push (f₄.reg .r8)
  have hframe : Cpu.Pushed [f₄.reg .r8, 0x2b, 0x2, f₁.reg .rsi, 0x23] c frame :=
    Cpu.pushed_frame c 0x23 (f₁.reg .rsi) 0x2 0x2b (f₄.reg .r8) (by omega)
  have hrip : f₄.reg .r8 = m.cpu.reg .rdi := by
    rw [← hr8]
    exact (Cpu.reg_push _ _ (by decide)).trans ((Cpu.reg_push _ _ (by decide)).trans
      ((Cpu.reg_push _ _ (by decide)).trans (Cpu.reg_push _ _ (by decide))))
  have hstack : f₁.reg .rsi = m.cpu.reg .rsi := (Cpu.reg_push _ _ (by decide)).trans hrsi
  have hargument : frame.reg .rdx = m.cpu.reg .rdx := (hframe.reg .rdx (by decide)).trans hrdx
  have hsteps : m.enterUsermodeAsm luserReturn =
      { m with
        cpu := (frame.set .rdi (frame.reg .rdx)).iretq
        entry := { m.entry with userReturnRsp := c₀.reg .rsp, userReturnRip := c₁.reg .rax } } := rfl
  rw [hrip, hstack] at hframe
  rw [hargument, hrsp, hstored] at hsteps
  exact ⟨c, frame, hsaved, hframe, hsteps⟩

/-- The frame is that of the program. -/
theorem started_enterUsermodeAsm (luserReturn : UInt64) (hroom : 88 ≤ m.cpu.sp) :
    Started (m.cpu.reg .rdi) (m.cpu.reg .rsi) (m.cpu.reg .rdx) (m.enterUsermodeAsm luserReturn) := by
  obtain ⟨c, frame, _, hframe, henter⟩ := enterUsermodeAsm_eq luserReturn hroom
  have hwords := hframe.words
  simp only [List.length_cons, List.length_nil, Memory.words, List.cons.injEq] at hwords
  obtain ⟨hrip, hcs, hrflags, hrsp, hss, _⟩ := hwords
  rw [henter]
  refine ⟨hrip, ?_, ?_, hcs, hss, hrflags⟩
  · exact (Cpu.rsp_iretq _).trans hrsp
  · exact (Cpu.reg_iretq _ (by decide)).trans (Cpu.set_self _ _ _)

/-- The program that was at `m` has jumped back from `m'`. -/
structure Left (used : Nat → Prop) (m m' : UserMachine) : Prop where
  rsp : m'.cpu.reg .rsp = m.entry.userReturnRsp
  rip : m'.cpu.rip = m.entry.userReturnRip
  mem : ∀ a, used a → m'.cpu.mem a = m.cpu.mem a

/-- **Back in the kernel**, the registers are popped that were pushed. -/
theorem Left.resumed (h : Left (usedInside used m) (m.enterUsermodeAsm luserReturn) m')
    (hcall : CanEnter used m) : m'.cpu.rip = luserReturn ∧ Resumed used m m'.userReturn := by
  obtain ⟨c, frame, hsaved, hframe, henter⟩ := enterUsermodeAsm_eq luserReturn hcall.room
  rw [henter] at h
  have hsp : m'.cpu.sp = c.sp := congrArg UInt64.toNat h.rsp
  have hlow := hsaved.sp
  have hframeSp := hframe.sp
  simp only [List.length_cons, List.length_nil] at hframeSp
  have htop := hcall.top
  -- What the kernel has on its stack is there again.
  have hstack : ∀ a, usedInside used m a → c.sp ≤ a → m'.cpu.mem a = c.mem a :=
    fun a ha hlo => (h.mem a ha).trans (hframe.mem a (.inr hlo))
  have hregs : m'.cpu.mem.words c.sp 6 = poppedRegs.map m.cpu.reg := by
    rw [← hsaved.words]
    exact Memory.words_congr fun a hlo hhi => hstack a (.inr ⟨by omega, by omega⟩) hlo
  have hret : m'.cpu.mem.word m.cpu.sp = m.cpu.mem.word m.cpu.sp := by
    apply Memory.word_congr
    intro a hlo hhi
    rw [hstack a (.inl (hcall.ret a hlo hhi)) (by omega)]
    exact hsaved.mem a (.inr hlo)
  have hnext : c.sp + 8 * 6 = m.cpu.sp := by omega
  have hwords : m'.cpu.mem.words m'.cpu.sp (poppedRegs.length + [m.cpu.mem.word m.cpu.sp].length) =
      poppedRegs.map m.cpu.reg ++ [m.cpu.mem.word m.cpu.sp] := by
    show m'.cpu.mem.words m'.cpu.sp (6 + 1) = _
    rw [Memory.words_add, hsp, hregs, hnext, Memory.words, Memory.words, hret]
  -- The pops take the six registers, and leave the address to return to.
  obtain ⟨hpopped, hpopSp, hpopMem, _⟩ :=
    Cpu.popAll_spec (by decide : Reg.rsp ∉ poppedRegs) hwords (by show _ + 8 * 6 < _; omega)
  have hback : (m'.cpu.popAll poppedRegs).sp = m.cpu.sp := by
    rw [hpopSp, hsp]
    exact hnext
  have hbackRsp : (m'.cpu.popAll poppedRegs).reg .rsp = m.cpu.reg .rsp := UInt64.toNat_inj.mp hback
  refine ⟨h.rip, ?_, ?_, ?_, ?_⟩
  · intro r hr hne
    have hmem : r ∈ poppedRegs := by
      revert hr hne
      cases r <;> decide
    exact (Cpu.reg_ret _ hne).trans (hpopped r hmem)
  · rw [← hbackRsp]
    exact Cpu.rsp_ret _
  · show (m'.cpu.popAll poppedRegs).mem.word (m'.cpu.popAll poppedRegs).sp = _
    rw [hpopMem, hback, hret]
  · intro a ha
    show (m'.cpu.popAll poppedRegs).mem a = _
    rw [hpopMem, h.mem a (.inl ha)]
    have hfree := hcall.free a ha
    exact (hframe.mem a (by omega)).trans (hsaved.mem a (by omega))

end entering

/-! ## System calls and runs -/

/-- `scdk_syscall_dispatch` is called at `m'` on the stack of the kernel, with the number and
    the arguments of a program that is at `m`. -/
structure Dispatches (m m' : UserMachine) : Prop where
  rsp : m'.cpu.reg .rsp = m.entry.kernelStackTop
  number : m'.cpu.reg .rdi = m.cpu.reg .rax
  arg0 : m'.cpu.reg .rsi = m.cpu.reg .rdi
  arg1 : m'.cpu.reg .rdx = m.cpu.reg .rsi
  arg2 : m'.cpu.reg .rcx = m.cpu.reg .rdx
  arg3 : m'.cpu.reg .r8 = m.cpu.reg .r10
  userRsp : m'.cpu.reg .r9 = m.cpu.reg .rsp

/-- The program that was at `m` goes on at `m'` behind its system call, with the answer of the
    kernel. -/
structure Answered (used : Nat → Prop) (answer : UInt64) (m m' : UserMachine) : Prop where
  rip : m'.cpu.rip = m.cpu.rip
  kept : ∀ r ∈ Cpu.calleeSaved, m'.cpu.reg r = m.cpu.reg r
  rax : m'.cpu.reg .rax = answer
  rflags : m'.cpu.rflags = Cpu.sysretFlags m.cpu.rflags
  cs : m'.cpu.cs = 0x2b
  ss : m'.cpu.ss = 0x23
  mem : ∀ a, used a → m'.cpu.mem a = m.cpu.mem a

/-- What is kept by what runs. -/
def RunKind.Sound : RunKind → (Nat → Prop) → UserMachine → UserMachine → Prop
  | .user => Left
  | .kernel => Returned

section runs

variable {m m₁ m' : UserMachine} {used : Nat → Prop} {σ : EntrySymbols} {kind : RunKind}

/-- The kernel has found its way back where the program has to return. -/
theorem Left.of_leaveUser (h : Returned used m m₁) : Left used m m₁.leaveUser := by
  constructor
  · show (m₁.cpu.set .rsp m₁.entry.userReturnRsp).reg .rsp = _
    rw [Cpu.set_self, h.entry]
  · show m₁.entry.userReturnRip = _
    rw [h.entry]
  · exact h.mem

/-- **Runs.**  Whatever programs do, and whatever programs their system calls run inside, a
    program leaves where it was entered, and a function of the kernel returns. -/
theorem UserRuns.sound (h : UserRuns σ kind used m m') : kind.Sound used m m' := by
  induction h with
  | compute hentry hmem _ ih =>
    constructor
    · rw [ih.rsp, hentry]
    · rw [ih.rip, hentry]
    · exact fun a ha => (ih.mem a ha).trans (hmem a ha)
  | syscall _ hrax _ ihKernel ihUser =>
    -- The kernel has kept the cells, so the way back is still the same.
    have hentry := ihKernel.entry
    unfold syscallReturn at ihUser
    rw [if_neg hrax] at ihUser
    constructor
    · rw [ihUser.rsp, hentry]
      rfl
    · rw [ihUser.rip, hentry]
      rfl
    · exact fun a ha => (ihUser.mem a ha).trans (ihKernel.mem a ha)
  | exit _ hrax ih =>
    have hleft := Left.of_leaveUser ih
    unfold syscallReturn
    rw [if_pos hrax]
    exact ⟨hleft.rsp, hleft.rip, hleft.mem⟩
  | fault vector handler error hmem _ hrax ih =>
    have hleft := Left.of_leaveUser ih
    unfold faultReturn isrReturn
    rw [if_pos hrax]
    exact ⟨hleft.rsp, hleft.rip, fun a ha => (hleft.mem a ha).trans (hmem a ha)⟩
  | leaf h => exact h
  | nested _ _ hcall _ hreturns ih =>
    -- The program inside has left, so the call of `scdk_enter_usermode_asm` has returned.
    exact hreturns (Left.resumed ih hcall).2

theorem syscallReturn_answered (h : Returned used (m.enterKernel σ.lstar σ.fmask) m₁)
    (hrax : m₁.cpu.reg .rax ≠ 1) : Answered used m₁.returnValue m m₁.syscallReturn := by
  have hentry := h.entry
  unfold syscallReturn
  rw [if_neg hrax, hentry]
  refine ⟨rfl, ?_, rfl, rfl, rfl, rfl, h.mem⟩
  intro r hr
  have hkept := h.kept r hr
  simp only [Cpu.calleeSaved, List.mem_cons, List.not_mem_nil, or_false] at hr
  -- The stack pointer comes from its cell, the others are as the kernel has kept them.
  obtain rfl | rfl | rfl | rfl | rfl | rfl | rfl := hr
  · exact hkept
  · exact hkept
  · rfl
  all_goals exact hkept

end runs

/-- **User mode is a call.**  `scdk_enter_usermode_asm` starts the program with its entry, its
    stack and its argument.  However the program ends, by leaving or by a fault, and whatever
    programs its system calls have run, its caller goes on behind the call with its registers
    and its memory. -/
theorem enter_usermode_returns {σ : EntrySymbols} {used : Nat → Prop} {m : UserMachine}
    (hcall : CanEnter used m) :
    Started (m.cpu.reg .rdi) (m.cpu.reg .rsi) (m.cpu.reg .rdx) (m.enterUsermodeAsm σ.luserReturn) ∧
      ∀ m', UserRuns σ .user (usedInside used m) (m.enterUsermodeAsm σ.luserReturn) m' →
        m'.cpu.rip = σ.luserReturn ∧ Resumed used m m'.userReturn :=
  ⟨started_enterUsermodeAsm _ hcall.room, fun _ hrun => Left.resumed hrun.sound hcall⟩

section spawning

/-- The kernel calls `scdk_enter_usermode_asm`. -/
def callingUser : UserMachine :=
  ⟨⟨fun r => if r = .rsp then 0x9000 else 7, 0x100, 2, 8, 0x10,
    Memory.setWord (fun _ => 0) 0x9000 0x1234⟩, ⟨0x5000, 0, 0, 0, 0, 0, 0, 0, 0, 0⟩, 0⟩

/-- The word on its stack. -/
def callersWord (a : Nat) : Prop := 0x9000 ≤ a ∧ a < 0x9008

def entrySymbols : EntrySymbols := ⟨0x200, 0x300, 0x200⟩

theorem canEnter_callingUser : CanEnter callersWord callingUser where
  ret := fun _ hlo hhi => ⟨hlo, hhi⟩
  free := fun _ ha => .inr ha.1
  room := by decide
  top := by decide

/-- A function of the kernel has an answer. -/
def answering (w : UInt64) (m : UserMachine) : UserMachine := { m with cpu := m.cpu.set .rax w }

theorem returned_answering (used : Nat → Prop) (w : UInt64) (m : UserMachine) :
    Returned used m (answering w m) := by
  refine ⟨fun r hr => Cpu.set_of_ne _ _ ?_, rfl, fun _ _ => rfl⟩
  rintro rfl
  revert hr
  decide

/-- A program that leaves with its first system call. -/
theorem leavesAtOnce (σ : EntrySymbols) (used : Nat → Prop) (m : UserMachine) :
    UserRuns σ .user used m (answering 1 (m.enterKernel σ.lstar σ.fmask)).syscallReturn :=
  .exit (.leaf (returned_answering used 1 _)) (Cpu.set_self _ _ _)

/-- The program makes a system call. -/
def callingKernel : UserMachine :=
  (callingUser.enterUsermodeAsm entrySymbols.luserReturn).enterKernel entrySymbols.lstar entrySymbols.fmask

/-- Another program is run inside, on a stack of its own. -/
theorem spawns : UserRuns entrySymbols .kernel (usedInside callersWord callingUser) callingKernel
    (answering 0 callingKernel) := by
  have hsp : callingKernel.cpu.sp = 0x5000 := rfl
  have hcall : CanEnter (fun a => usedInside callersWord callingUser a ∨ 0x5000 ≤ a ∧ a < 0x5008)
      callingKernel := by
    constructor
    · intro a hlo hhi
      exact .inr ⟨by omega, by omega⟩
    · rintro a ((⟨hlo, _⟩ | ⟨hlo, _⟩) | ⟨hlo, _⟩)
      · omega
      · have : 0x9000 - 48 ≤ a := hlo
        omega
      · omega
    · omega
    · omega
  exact .nested (fun _ ha => .inl ha) (fun _ _ => rfl) hcall (leavesAtOnce _ _ _)
    fun _ => returned_answering _ 0 _

/-- The program has left with its next system call. -/
def leftUser : UserMachine :=
  (answering 1 ((answering 0 callingKernel).syscallReturn.enterKernel
    entrySymbols.lstar entrySymbols.fmask)).syscallReturn

theorem spawns_and_leaves : UserRuns entrySymbols .user (usedInside callersWord callingUser)
    (callingUser.enterUsermodeAsm entrySymbols.luserReturn) leftUser :=
  .syscall spawns (by decide) (leavesAtOnce _ _ _)

end spawning

/-- The kernel goes on. -/
theorem enter_usermode_returns_spawning :
    leftUser.userReturn.cpu.rip = 0x1234 ∧ leftUser.userReturn.cpu.reg .rbx = 7 := by
  have hback := ((enter_usermode_returns canEnter_callingUser).2 leftUser spawns_and_leaves).2
  exact ⟨hback.rip.trans (Memory.word_setWord _ _ _), hback.kept .rbx (by decide) (by decide)⟩

/-- **A system call is a call.**  `scdk_syscall_dispatch` is called with what the program has in
    its registers; and whatever programs run inside, the program goes on behind the
    instruction with its registers, its flags and its memory, and the answer. -/
theorem syscall_returns {σ : EntrySymbols} {used : Nat → Prop} {m m₁ : UserMachine}
    (hrun : UserRuns σ .kernel used (m.enterKernel σ.lstar σ.fmask) m₁) (hrax : m₁.cpu.reg .rax ≠ 1) :
    Dispatches m (m.enterKernel σ.lstar σ.fmask) ∧ Answered used m₁.returnValue m m₁.syscallReturn :=
  ⟨⟨rfl, rfl, rfl, rfl, rfl, rfl, rfl⟩, syscallReturn_answered hrun.sound hrax⟩

/-- The program goes on. -/
theorem syscall_returns_spawning : (answering 0 callingKernel).syscallReturn.cpu.rip = 7 ∧
    (answering 0 callingKernel).syscallReturn.cpu.reg .rax = 0 := by
  have hback := (syscall_returns spawns (by decide)).2
  exact ⟨hback.rip.trans (started_enterUsermodeAsm _ canEnter_callingUser.room).rip, hback.rax⟩

end UserMachine

end Scdk
