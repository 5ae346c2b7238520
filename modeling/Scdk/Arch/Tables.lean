import Mathlib.Data.Fin.VecNotation
import Scdk.Arch.Descriptors
import Scdk.Arch.TimerDevices
import Scdk.Lib.Effect

/-! # The tables of the processor

    Model of the functions of `arch/x86_64/fault.c`, `arch/x86_64/syscall.c`,
    `arch/x86_64/usermode.c` and `arch/x86_64/timer.c` that set up how the processor enters
    the kernel, and of the interrupts that come in.

    * `Symbols`: the addresses that the linker gives,
    * `CpuTables`: the descriptor tables, the model-specific registers, the devices, and the
      statics of the timer,
    * `CpuTables.faultInit`, `faultInstallGate`, `syscallInit`, `usermodeInit`, `timerInit`,
      `timerInterrupt`: the functions of the source,
    * `TableEvent`, `CpuTables.perform`: what happens to the tables,
    * `timerInit_ok_iff`: the frequencies that the timer takes. -/

namespace Scdk

/-! ## State -/

/-- The addresses of the entries of the kernel, and of its task state segment. -/
structure Symbols where
  tss : UInt64
  isrInvalidOpcode : UInt64
  isrGeneralProtection : UInt64
  isrPageFault : UInt64
  syscallEntry : UInt64
  timerIrqEntry : UInt64
  timerIrqEntry_ne_zero : timerIrqEntry ≠ 0

/-- The tables.  `loaded` is whether the processor was given the segments, and `yields`
    counts the calls of `scdk_yield` from the timer. -/
structure CpuTables where
  gdt : Fin 8 → UInt64
  rsp0 : UInt64
  iopbOffset : UInt16
  loaded : Bool
  idt : UInt8 → IdtEntry
  faultInitialized : Bool
  kernelStackTop : UInt64
  star : UInt64
  lstar : UInt64
  fmask : UInt64
  efer : UInt64
  syscallInitialized : Bool
  usermodeInitialized : Bool
  devices : Devices
  ticks : UInt64
  preemptionEnabled : Bool
  timerInitialized : Bool
  yields : Nat

namespace CpuTables

variable (σ : Symbols)

/-! ## Functions -/

/-- `set_gate` -/
def setGate (vector : UInt8) (handler : UInt64) (t : CpuTables) : CpuTables :=
  { t with idt := Function.update t.idt vector (.gate handler) }

/-- `scdk_fault_init`, where the table is made. -/
def withFaults (t : CpuTables) : CpuTables :=
  let t := { t with idt := fun _ => .empty }
  let t := t.setGate 6 σ.isrInvalidOpcode
  let t := t.setGate 13 σ.isrGeneralProtection
  let t := t.setGate 14 σ.isrPageFault
  { t with faultInitialized := true }

/-- `scdk_fault_init` -/
def faultInit : Effect Err CpuTables Unit :=
  .modify fun t => if t.faultInitialized = true then t else t.withFaults σ

/-- `scdk_fault_install_gate` -/
def faultInstallGate (vector : UInt8) (handler : UInt64) : Effect Err CpuTables Unit := do
  .require (handler ≠ 0) .inval
  faultInit σ
  .modify (setGate vector handler)

/-- The stack tops that the processor can be given. -/
def StackTopOk (top : UInt64) : Prop := ¬ (top = 0 ∨ top &&& 0xf ≠ 0)

instance (top : UInt64) : Decidable (StackTopOk top) := inferInstanceAs (Decidable (¬ _))

/-- `RFLAGS_TF | RFLAGS_IF | RFLAGS_DF | RFLAGS_AC` -/
def syscallFlagsMask : UInt64 :=
  (1 : UInt64) <<< 8 ||| (1 : UInt64) <<< 9 ||| (1 : UInt64) <<< 10 ||| (1 : UInt64) <<< 18

/-- `scdk_syscall_init` -/
def syscallInit (top : UInt64) : Effect Err CpuTables Unit := do
  .require (StackTopOk top) .inval
  .modify fun t =>
    { t with
      kernelStackTop := top
      star := (0x18 : UInt64) <<< 48 ||| (0x08 : UInt64) <<< 32
      lstar := σ.syscallEntry
      fmask := syscallFlagsMask
      efer := t.efer ||| 1
      syscallInitialized := true }

/-- The table that `scdk_usermode_init` makes, with the descriptor of `sizeof(tss)` bytes
    at `tss`. -/
def segments : Fin 8 → UInt64 :=
  ![0, segmentDescriptor 0x9a 0xa, segmentDescriptor 0x92 0xc, segmentDescriptor 0xf2 0xc,
    segmentDescriptor 0xf2 0xc, segmentDescriptor 0xfa 0xa, tssDescriptorLow σ.tss (104 - 1),
    tssDescriptorHigh σ.tss]

/-- The table after `load_gdt_and_tss`: the processor has marked the task state segment as
    busy. -/
def loadedSegments (i : Fin 8) : UInt64 :=
  if i.val = 6 then busyDescriptor (segments σ i) else segments σ i

/-- `scdk_usermode_init` -/
def usermodeInit (top : UInt64) : Effect Err CpuTables Unit := do
  .require (StackTopOk top) .inval
  .modify fun t => { t with gdt := loadedSegments σ, rsp0 := top, iopbOffset := 104, loaded := true }
  faultInit σ
  syscallInit σ top
  .modify fun t => { t with usermodeInitialized := true }

/-- The bytes of `pic_remap_for_timer`.  The port `0x80` is that of `io_wait`. -/
def remapWrites : List (UInt16 × UInt8) :=
  [(0x21, 0xff), (0xa1, 0xff),
    (0x20, 0x11), (0x80, 0), (0xa0, 0x11), (0x80, 0),
    (0x21, 0x20), (0x80, 0), (0xa1, 0x28), (0x80, 0),
    (0x21, 0x04), (0x80, 0), (0xa1, 0x02), (0x80, 0),
    (0x21, 0x01), (0x80, 0), (0xa1, 0x01), (0x80, 0),
    (0x21, 0xfe), (0xa1, 0xff)]

/-- `pic_remap_for_timer` -/
def picRemapForTimer : Effect Err CpuTables Unit :=
  .modify fun t => { t with devices := t.devices.outbAll remapWrites }

/-- The bytes that `pit_program` writes for a divisor. -/
def loadWrites (divisor : UInt32) : List (UInt16 × UInt8) :=
  [(0x43, 0x34), (0x40, (divisor &&& 0xff).toUInt8), (0x40, (divisor >>> 8 &&& 0xff).toUInt8)]

/-- `PIT_BASE_HZ` -/
def pitBaseHz : UInt32 := 1193182

/-- `pit_program` -/
def pitProgram (hz : UInt32) : Effect Err CpuTables Unit := do
  .require (¬ (hz = 0 ∨ hz > pitBaseHz)) .inval
  .require (¬ (pitBaseHz / hz = 0 ∨ pitBaseHz / hz > 0xffff)) .inval
  .modify fun t => { t with devices := t.devices.outbAll (loadWrites (pitBaseHz / hz)) }

/-- `scdk_timer_init`, when the timer is not set up. -/
def timerSetup (hz : UInt32) : Effect Err CpuTables Unit := do
  faultInit σ
  faultInstallGate σ 32 σ.timerIrqEntry
  picRemapForTimer
  pitProgram hz
  .modify fun t => { t with ticks := 0, preemptionEnabled := false, timerInitialized := true }

/-- `scdk_timer_init` -/
def timerInit (hz : UInt32) : Effect Err CpuTables Unit := fun t =>
  if t.timerInitialized = true then (.ok (), t) else timerSetup σ hz t

/-- `scdk_timer_enable_preemption` -/
def timerEnablePreemption (t : CpuTables) : CpuTables := { t with preemptionEnabled := true }

/-- `scdk_timer_disable_preemption` -/
def timerDisablePreemption (t : CpuTables) : CpuTables := { t with preemptionEnabled := false }

/-- `scdk_timer_interrupt` -/
def timerInterrupt (t : CpuTables) : CpuTables :=
  let t' := { t with ticks := t.ticks + 1, devices := t.devices.outb 0x20 0x20 }
  if t.preemptionEnabled = true then { t' with yields := t.yields + 1 } else t'

/-! ### What they do -/

section specs

variable {σ} {t : CpuTables} {top : UInt64} {hz : UInt32}

theorem faultInstallGate_zero (vector : UInt8) : faultInstallGate σ vector 0 t = (.error .inval, t) := rfl

theorem faultInstallGate_run {handler : UInt64} (hhandler : handler ≠ 0) (vector : UInt8) :
    faultInstallGate σ vector handler t = (.ok (), (faultInit σ t).2.setGate vector handler) := by
  unfold faultInstallGate
  rw [Effect.bind_of_ok (Effect.require_pos hhandler _)]
  rfl

/-- The interrupt table does not depend on the segments. -/
theorem faultInit_segments (gdt : Fin 8 → UInt64) (rsp0 : UInt64) (iopbOffset : UInt16) (loaded : Bool) :
    faultInit σ { t with gdt := gdt, rsp0 := rsp0, iopbOffset := iopbOffset, loaded := loaded } =
      (.ok (), { (faultInit σ t).2 with
        gdt := gdt, rsp0 := rsp0, iopbOffset := iopbOffset, loaded := loaded }) := by
  by_cases hready : t.faultInitialized = true
  · simp only [faultInit, Effect.modify, if_pos hready]
  · simp only [faultInit, Effect.modify, if_neg hready]
    rfl

/-- What `scdk_usermode_init` leaves. -/
def withUser (σ : Symbols) (top : UInt64) (t : CpuTables) : CpuTables :=
  { (faultInit σ t).2 with
    gdt := loadedSegments σ
    rsp0 := top
    iopbOffset := 104
    loaded := true
    kernelStackTop := top
    star := (0x18 : UInt64) <<< 48 ||| (0x08 : UInt64) <<< 32
    lstar := σ.syscallEntry
    fmask := syscallFlagsMask
    efer := (faultInit σ t).2.efer ||| 1
    syscallInitialized := true
    usermodeInitialized := true }

theorem usermodeInit_run :
    usermodeInit σ top t = if StackTopOk top then (.ok (), t.withUser σ top) else (.error .inval, t) := by
  unfold usermodeInit
  split
  · next htop =>
    rw [Effect.bind_of_ok (Effect.require_pos htop _)]
    have hset : Effect.modify
          (fun t => { t with gdt := loadedSegments σ, rsp0 := top, iopbOffset := 104, loaded := true }) t =
        ((.ok (), { t with gdt := loadedSegments σ, rsp0 := top, iopbOffset := 104, loaded := true }) :
          Except Err Unit × CpuTables) := rfl
    unfold syscallInit
    rw [Effect.bind_of_ok hset, Effect.bind_of_ok (faultInit_segments _ _ _ _), Effect.bind_run,
      Effect.bind_of_ok (Effect.require_pos htop _)]
    rfl
  · next htop => rw [Effect.bind_of_error (Effect.require_neg htop _)]

/-- The frequencies that the channel can divide down to. -/
theorem pitProgram_run :
    pitProgram hz t =
      if 19 ≤ hz.toNat ∧ hz.toNat ≤ 1193182 then
        (.ok (), { t with devices := t.devices.outbAll (loadWrites (pitBaseHz / hz)) })
      else (.error .inval, t) := by
  have hzero : hz = 0 ↔ hz.toNat = 0 := UInt32.toNat_inj.symm
  have hhigh : hz > pitBaseHz ↔ 1193182 < hz.toNat := UInt32.lt_iff_toNat_lt
  have hquot : (pitBaseHz / hz).toNat = 1193182 / hz.toNat := UInt32.toNat_div _ _
  have hquotZero : pitBaseHz / hz = 0 ↔ 1193182 / hz.toNat = 0 := by
    rw [← UInt32.toNat_inj, hquot]
    rfl
  have hquotHigh : pitBaseHz / hz > 0xffff ↔ 65535 < 1193182 / hz.toNat := by
    rw [← hquot]
    exact UInt32.lt_iff_toNat_lt
  -- A frequency below 19 leaves more than sixteen bits.
  have hlow : 0 < hz.toNat → (65535 < 1193182 / hz.toNat ↔ hz.toNat < 19) := by
    intro hpos
    rw [Nat.lt_iff_add_one_le, Nat.le_div_iff_mul_le hpos]
    omega
  have hdivides : 0 < hz.toNat → hz.toNat ≤ 1193182 → 1193182 / hz.toNat ≠ 0 := by
    intro hpos hle
    exact Nat.ne_of_gt (Nat.div_pos hle hpos)
  unfold pitProgram
  by_cases hfirst : hz = 0 ∨ hz > pitBaseHz
  · rw [Effect.bind_of_error (Effect.require_neg (not_not.mpr hfirst) _), if_neg]
    rw [hzero, hhigh] at hfirst
    omega
  rw [Effect.bind_of_ok (Effect.require_pos hfirst _)]
  rw [hzero, hhigh] at hfirst
  have hpos : 0 < hz.toNat := by omega
  have hle : hz.toNat ≤ 1193182 := by omega
  by_cases hsecond : pitBaseHz / hz = 0 ∨ pitBaseHz / hz > 0xffff
  · rw [Effect.bind_of_error (Effect.require_neg (not_not.mpr hsecond) _), if_neg]
    rw [hquotZero, hquotHigh, hlow hpos] at hsecond
    have hne := hdivides hpos hle
    omega
  · rw [Effect.bind_of_ok (Effect.require_pos hsecond _), if_pos]
    · rfl
    · rw [hquotZero, hquotHigh, hlow hpos] at hsecond
      omega

/-- The tables when `scdk_timer_init` comes to the interval timer. -/
def withTimerGate (σ : Symbols) (t : CpuTables) : CpuTables :=
  { (faultInit σ t).2.setGate 32 σ.timerIrqEntry with devices := t.devices.outbAll remapWrites }

theorem timerSetup_run :
    timerSetup σ hz t =
      if 19 ≤ hz.toNat ∧ hz.toNat ≤ 1193182 then
        (.ok (), { t.withTimerGate σ with
          devices := (t.withTimerGate σ).devices.outbAll (loadWrites (pitBaseHz / hz))
          ticks := 0
          preemptionEnabled := false
          timerInitialized := true })
      else (.error .inval, t.withTimerGate σ) := by
  have hready : ∀ t : CpuTables, (faultInit σ (faultInit σ t).2).2 = (faultInit σ t).2 := by
    intro t
    by_cases h : t.faultInitialized = true
    · simp [faultInit, Effect.modify, h]
    · simp [faultInit, Effect.modify, h, withFaults]
  have hgate : faultInstallGate σ 32 σ.timerIrqEntry (faultInit σ t).2 =
      (.ok (), (faultInit σ t).2.setGate 32 σ.timerIrqEntry) := by
    rw [faultInstallGate_run σ.timerIrqEntry_ne_zero, hready]
  have hdevices : (faultInit σ t).2.devices = t.devices := by
    unfold faultInit Effect.modify
    dsimp only
    split <;> rfl
  have hremap : picRemapForTimer ((faultInit σ t).2.setGate 32 σ.timerIrqEntry) =
      (.ok (), t.withTimerGate σ) := by
    unfold withTimerGate
    rw [← hdevices]
    rfl
  unfold timerSetup
  rw [Effect.bind_of_ok (show faultInit σ t = (.ok (), (faultInit σ t).2) from rfl),
    Effect.bind_of_ok hgate, Effect.bind_of_ok hremap, Effect.bind_run, pitProgram_run]
  by_cases hrange : 19 ≤ hz.toNat ∧ hz.toNat ≤ 1193182
  · rw [if_pos hrange, if_pos hrange]
    rfl
  · rw [if_neg hrange, if_neg hrange]

/-- The timer is set up for every frequency that leaves a divisor of sixteen bits, and for
    no other. -/
theorem timerInit_ok_iff (hnew : t.timerInitialized = false) :
    (timerInit σ hz t).1 = .ok () ↔ 19 ≤ hz.toNat ∧ hz.toNat ≤ 1193182 := by
  unfold timerInit
  rw [if_neg (by simp [hnew]), timerSetup_run]
  split
  · next hrange => simp [hrange]
  · next hrange => simp [hrange]

end specs

/-! ## What happens -/

/-- An edge on a line of the first controller. -/
def pulse (line : Fin 8) (t : CpuTables) : CpuTables :=
  { t with devices := { t.devices with pic1 := t.devices.pic1.pulse line } }

/-- The processor takes an interrupt, if one is offered.  What handlers other than the
    timer's do is not followed. -/
def accept (t : CpuTables) : CpuTables :=
  match t.devices.pic1.offered with
  | none => t
  | some line =>
    let vector := t.devices.pic1.vector line
    let t := { t with devices := { t.devices with pic1 := t.devices.pic1.acknowledge line } }
    if (t.idt vector).handler = some σ.timerIrqEntry.toNat then t.timerInterrupt else t

end CpuTables

/-- Calls, edges on the lines of the first controller, and interrupts that are taken. -/
inductive TableEvent where
  | faultInit
  | installGate (vector : UInt8) (handler : UInt64)
  | usermodeInit (top : UInt64)
  | timerInit (hz : UInt32)
  | enablePreemption
  | disablePreemption
  | pulse (line : Fin 8)
  | accept
  deriving DecidableEq, Repr

namespace CpuTables

variable (σ : Symbols)

/-- The tables after an event. -/
def perform (t : CpuTables) : TableEvent → CpuTables
  | .faultInit => (CpuTables.faultInit σ t).2
  | .installGate vector handler => (faultInstallGate σ vector handler t).2
  | .usermodeInit top => (CpuTables.usermodeInit σ top t).2
  | .timerInit hz => (CpuTables.timerInit σ hz t).2
  | .enablePreemption => t.timerEnablePreemption
  | .disablePreemption => t.timerDisablePreemption
  | .pulse line => CpuTables.pulse line t
  | .accept => CpuTables.accept σ t

/-- The tables after some events. -/
def performAll (t : CpuTables) (events : List TableEvent) : CpuTables := events.foldl (perform σ) t

/-- Nothing has been set up, and the controllers and the timer are as they come up. -/
def zeroed : CpuTables where
  gdt := fun _ => 0
  rsp0 := 0
  iopbOffset := 0
  loaded := false
  idt := fun _ => .empty
  faultInitialized := false
  kernelStackTop := 0
  star := 0
  lstar := 0
  fmask := 0
  efer := 0
  syscallInitialized := false
  usermodeInitialized := false
  devices :=
    let pic := ⟨.vectorBase, false, false, 0, 0, 0, 0, fun _ => false, fun _ => false⟩
    ⟨pic, pic, ⟨0, none, none⟩⟩
  ticks := 0
  preemptionEnabled := false
  timerInitialized := false
  yields := 0

end CpuTables

end Scdk
