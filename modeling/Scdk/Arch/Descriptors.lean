import Scdk.Basic
import Scdk.Lib.Bits

/-! # Descriptors

    Model of the functions of `arch/x86_64/usermode.c` and `arch/x86_64/fault.c` that make
    the entries of the descriptor tables, and of what the processor reads in them.

    * `segmentDescriptor`, `tssDescriptorLow` and `High`, `IdtEntry.gate`: the functions of the source,
    * `Segment.ofWord`, `systemBase`, `IdtEntry.handler`: the formats of the processor,
    * `ofWord_segmentDescriptor`, `ofWord_busyDescriptor`, `handler_gate`: the processor reads
      what the functions were given. -/

namespace Scdk

open Bits

/-! ## Functions -/

/-- `segment_descriptor` -/
def segmentDescriptor (access flags : UInt8) : UInt64 :=
  let limit : UInt64 := 0xfffff
  limit &&& (0xffff : UInt64) ||| (limit >>> 16) <<< 48 ||| access.toUInt64 <<< 40 ||| flags.toUInt64 <<< 52

/-- The first word of `set_tss_descriptor`, with an access byte. -/
def systemDescriptorLow (access base : UInt64) (limit : UInt32) : UInt64 :=
  (limit &&& 0xffff).toUInt64 ||| (base &&& 0xffffff) <<< 16 ||| access <<< 40 |||
    (limit >>> 16 &&& 0x0f).toUInt64 <<< 48 ||| (base >>> 24 &&& 0xff) <<< 56

/-- The first word of `set_tss_descriptor`. -/
def tssDescriptorLow (base : UInt64) (limit : UInt32) : UInt64 := systemDescriptorLow 0x89 base limit

/-- The second word of `set_tss_descriptor`. -/
def tssDescriptorHigh (base : UInt64) : UInt64 := base >>> 32

/-- What `ltr` writes into the first word of the descriptor that it loads: the segment is
    busy. -/
def busyDescriptor (low : UInt64) : UInt64 := low ||| (1 : UInt64) <<< 41

/-- `struct idt_entry` -/
structure IdtEntry where
  offsetLow : UInt16
  selector : UInt16
  ist : UInt8
  typeAttr : UInt8
  offsetMid : UInt16
  offsetHigh : UInt32
  zero : UInt32
  deriving DecidableEq, Repr

/-- An entry of the zeroed table. -/
def IdtEntry.empty : IdtEntry := ⟨0, 0, 0, 0, 0, 0, 0⟩

/-- The entry that `set_gate` writes. -/
def IdtEntry.gate (address : UInt64) : IdtEntry where
  offsetLow := address.toUInt16
  selector := 0x08
  ist := 0
  typeAttr := 0x8e
  offsetMid := (address >>> 16).toUInt16
  offsetHigh := (address >>> 32).toUInt32
  zero := 0

/-! ## What the processor reads -/

/-- A segment, as a descriptor gives it. -/
structure Segment where
  base : Nat
  limit : Nat
  access : Nat
  flags : Nat
  deriving DecidableEq, Repr

/-- The fields of a descriptor of eight bytes. -/
def Segment.ofWord (d : UInt64) : Segment where
  base := bits d.toNat 16 24 + 2 ^ 24 * bits d.toNat 56 8
  limit := bits d.toNat 0 16 + 2 ^ 16 * bits d.toNat 48 4
  access := bits d.toNat 40 8
  flags := bits d.toNat 52 4

/-- The base of a descriptor of sixteen bytes. -/
def systemBase (low high : UInt64) : Nat := (Segment.ofWord low).base + 2 ^ 32 * bits high.toNat 0 32

/-- Where an interrupt goes. -/
def IdtEntry.target (e : IdtEntry) : Nat :=
  e.offsetLow.toNat + 2 ^ 16 * e.offsetMid.toNat + 2 ^ 32 * e.offsetHigh.toNat

/-- The processor delivers an interrupt through the entry only if it is present. -/
def IdtEntry.Present (e : IdtEntry) : Prop := bits e.typeAttr.toNat 7 1 = 1

instance (e : IdtEntry) : Decidable e.Present := inferInstanceAs (Decidable (_ = _))

/-- The handler of the interrupts that go through the entry. -/
def IdtEntry.handler (e : IdtEntry) : Option Nat := if e.Present then some e.target else none

/-! ## Round trips -/

theorem toNat_segmentDescriptor (access flags : UInt8) (hflags : flags.toNat < 16) :
    (segmentDescriptor access flags).toNat =
      0xffff + access.toNat * 2 ^ 40 + 0xf * 2 ^ 48 + flags.toNat * 2 ^ 52 := by
  have haccess := access.toNat_lt
  -- the fields in the order of their places
  have hsorted : segmentDescriptor access flags =
      (0xffff : UInt64) ||| access.toUInt64 <<< 40 ||| (0xf : UInt64) <<< 48 ||| flags.toUInt64 <<< 52 := by
    show (0xffff : UInt64) ||| (0xf : UInt64) <<< 48 ||| access.toUInt64 <<< 40 |||
      flags.toUInt64 <<< 52 = _
    rw [UInt64.or_assoc 0xffff, UInt64.or_comm ((0xf : UInt64) <<< 48), ← UInt64.or_assoc]
  have hlow : ((0xffff : UInt64) ||| access.toUInt64 <<< 40).toNat = 0xffff + access.toNat * 2 ^ 40 := by
    apply toNat_or_shift (by decide)
    · decide
    · rw [UInt8.toNat_toUInt64]
      show access.toNat * 2 ^ 40 < 2 ^ 64
      omega
  have hmid : ((0xffff : UInt64) ||| access.toUInt64 <<< 40 ||| (0xf : UInt64) <<< 48).toNat =
      0xffff + access.toNat * 2 ^ 40 + 0xf * 2 ^ 48 := by
    rw [← hlow]
    apply toNat_or_shift (by decide)
    · rw [hlow]
      show _ < 2 ^ 48
      omega
    · decide
  rw [hsorted, ← hmid]
  apply toNat_or_shift (by decide)
  · rw [hmid]
    show _ < 2 ^ 52
    omega
  · rw [UInt8.toNat_toUInt64]
    show flags.toNat * 2 ^ 52 < 2 ^ 64
    omega

/-- A segment over all memory, with the access byte and the flags. -/
theorem ofWord_segmentDescriptor (access flags : UInt8) (hflags : flags.toNat < 16) :
    Segment.ofWord (segmentDescriptor access flags) = ⟨0, 0xfffff, access.toNat, flags.toNat⟩ := by
  have haccess := access.toNat_lt
  unfold Segment.ofWord bits
  rw [toNat_segmentDescriptor access flags hflags]
  congr 1
  all_goals omega

theorem toNat_systemDescriptorLow {access : UInt64} (haccess : access.toNat < 2 ^ 8) (base : UInt64)
    (limit : UInt32) :
    (systemDescriptorLow access base limit).toNat =
      limit.toNat % 2 ^ 16 + base.toNat % 2 ^ 24 * 2 ^ 16 + access.toNat * 2 ^ 40 +
        limit.toNat / 2 ^ 16 % 2 ^ 4 * 2 ^ 48 + base.toNat / 2 ^ 24 % 2 ^ 8 * 2 ^ 56 := by
  have hlimitLow : (limit &&& 0xffff).toUInt64.toNat = limit.toNat % 2 ^ 16 := by
    rw [UInt32.toNat_toUInt64, UInt32.toNat_and]
    exact Nat.and_two_pow_sub_one_eq_mod _ 16
  have hbaseLow : (base &&& 0xffffff).toNat = base.toNat % 2 ^ 24 := by
    rw [UInt64.toNat_and]
    exact Nat.and_two_pow_sub_one_eq_mod _ 24
  have hlimitHigh : (limit >>> 16 &&& 0x0f).toUInt64.toNat = limit.toNat / 2 ^ 16 % 2 ^ 4 := by
    rw [UInt32.toNat_toUInt64, UInt32.toNat_and, UInt32.toNat_shiftRight]
    show (limit.toNat >>> 16) &&& (2 ^ 4 - 1) = _
    rw [Nat.and_two_pow_sub_one_eq_mod, Nat.shiftRight_eq_div_pow]
  have hbaseHigh : (base >>> 24 &&& 0xff).toNat = base.toNat / 2 ^ 24 % 2 ^ 8 := by
    rw [UInt64.toNat_and, UInt64.toNat_shiftRight]
    show (base.toNat >>> 24) &&& (2 ^ 8 - 1) = _
    rw [Nat.and_two_pow_sub_one_eq_mod, Nat.shiftRight_eq_div_pow]
  have hlimit := limit.toNat_lt
  have hbaseLowPlace : ((limit &&& 0xffff).toUInt64 ||| (base &&& 0xffffff) <<< 16).toNat =
      limit.toNat % 2 ^ 16 + base.toNat % 2 ^ 24 * 2 ^ 16 := by
    rw [← hlimitLow, ← hbaseLow]
    apply toNat_or_shift (by decide)
    · rw [hlimitLow]
      exact Nat.mod_lt _ (by decide)
    · rw [hbaseLow]
      show base.toNat % 2 ^ 24 * 2 ^ 16 < 2 ^ 64
      omega
  have hlimitPlace : ((limit &&& 0xffff).toUInt64 ||| (base &&& 0xffffff) <<< 16 |||
      access <<< 40).toNat =
      limit.toNat % 2 ^ 16 + base.toNat % 2 ^ 24 * 2 ^ 16 + access.toNat * 2 ^ 40 := by
    rw [← hbaseLowPlace]
    apply toNat_or_shift (by decide)
    · rw [hbaseLowPlace]
      show _ < 2 ^ 40
      omega
    · show access.toNat * 2 ^ 40 < 2 ^ 64
      omega
  have hbasePlace : ((limit &&& 0xffff).toUInt64 ||| (base &&& 0xffffff) <<< 16 |||
      access <<< 40 ||| (limit >>> 16 &&& 0x0f).toUInt64 <<< 48).toNat =
      limit.toNat % 2 ^ 16 + base.toNat % 2 ^ 24 * 2 ^ 16 + access.toNat * 2 ^ 40 +
        limit.toNat / 2 ^ 16 % 2 ^ 4 * 2 ^ 48 := by
    rw [← hlimitPlace, ← hlimitHigh]
    apply toNat_or_shift (by decide)
    · rw [hlimitPlace]
      show _ < 2 ^ 48
      omega
    · rw [hlimitHigh]
      show limit.toNat / 2 ^ 16 % 2 ^ 4 * 2 ^ 48 < 2 ^ 64
      omega
  rw [← hbaseHigh, ← hbasePlace]
  apply toNat_or_shift (by decide)
  · rw [hbasePlace]
    show _ < 2 ^ 56
    omega
  · rw [hbaseHigh]
    show base.toNat / 2 ^ 24 % 2 ^ 8 * 2 ^ 56 < 2 ^ 64
    omega

/-- A system segment lies where it was put, with its limit. -/
theorem ofWord_systemDescriptor {access : UInt64} (haccess : access.toNat < 2 ^ 8) (base : UInt64)
    {limit : UInt32} (hlimit : limit.toNat < 2 ^ 20) :
    Segment.ofWord (systemDescriptorLow access base limit) =
        ⟨base.toNat % 2 ^ 32, limit.toNat, access.toNat, 0⟩ ∧
      systemBase (systemDescriptorLow access base limit) (tssDescriptorHigh base) = base.toNat := by
  have hbase := base.toNat_lt
  have hlow : Segment.ofWord (systemDescriptorLow access base limit) =
      ⟨base.toNat % 2 ^ 32, limit.toNat, access.toNat, 0⟩ := by
    have hbase' : base.toNat % 2 ^ 32 =
        base.toNat % 2 ^ 24 + 2 ^ 24 * (base.toNat / 2 ^ 24 % 2 ^ 8) := by
      omega
    have hlimit' : limit.toNat = limit.toNat % 2 ^ 16 + 2 ^ 16 * (limit.toNat / 2 ^ 16 % 2 ^ 4) := by
      omega
    have hplaces : limit.toNat % 2 ^ 16 < 2 ^ 16 ∧ limit.toNat / 2 ^ 16 % 2 ^ 4 < 2 ^ 4 ∧
        base.toNat % 2 ^ 24 < 2 ^ 24 ∧ base.toNat / 2 ^ 24 % 2 ^ 8 < 2 ^ 8 := by
      omega
    have hword := toNat_systemDescriptorLow haccess base limit
    unfold Segment.ofWord
    rw [hbase']
    -- only the fields matter from here on
    generalize limit.toNat % 2 ^ 16 = limitLow, limit.toNat / 2 ^ 16 % 2 ^ 4 = limitHigh,
      base.toNat % 2 ^ 24 = baseLow, base.toNat / 2 ^ 24 % 2 ^ 8 = baseHigh at *
    obtain ⟨hl, hl', hb, hb'⟩ := hplaces
    have hlimitLow : bits (systemDescriptorLow access base limit).toNat 0 16 = limitLow :=
      bits_of_split 0 _ (baseLow + 2 ^ 24 * (access.toNat + 2 ^ 8 * (limitHigh + 2 ^ 8 * baseHigh)))
        (by omega) (by omega) hl
    have hbaseLow : bits (systemDescriptorLow access base limit).toNat 16 24 = baseLow :=
      bits_of_split limitLow _ (access.toNat + 2 ^ 8 * (limitHigh + 2 ^ 8 * baseHigh)) (by omega) hl hb
    have haccess' : bits (systemDescriptorLow access base limit).toNat 40 8 = access.toNat :=
      bits_of_split (limitLow + baseLow * 2 ^ 16) _ (limitHigh + 2 ^ 8 * baseHigh)
        (by omega) (by omega) haccess
    have hlimitHigh : bits (systemDescriptorLow access base limit).toNat 48 4 = limitHigh :=
      bits_of_split (limitLow + baseLow * 2 ^ 16 + access.toNat * 2 ^ 40) _ (2 ^ 4 * baseHigh)
        (by omega) (by omega) hl'
    have hflags : bits (systemDescriptorLow access base limit).toNat 52 4 = 0 :=
      bits_of_split (limitLow + baseLow * 2 ^ 16 + access.toNat * 2 ^ 40 + limitHigh * 2 ^ 48) _ baseHigh
        (by omega) (by omega) (by decide)
    have hbaseHigh : bits (systemDescriptorLow access base limit).toNat 56 8 = baseHigh :=
      bits_of_split (limitLow + baseLow * 2 ^ 16 + access.toNat * 2 ^ 40 + limitHigh * 2 ^ 48) _ 0
        (by omega) (by omega) hb'
    rw [hlimitLow, hbaseLow, haccess', hlimitHigh, hflags, hbaseHigh, hlimit']
  refine ⟨hlow, ?_⟩
  have hhigh : (tssDescriptorHigh base).toNat = base.toNat / 2 ^ 32 := by
    unfold tssDescriptorHigh
    rw [UInt64.toNat_shiftRight]
    exact Nat.shiftRight_eq_div_pow _ _
  unfold systemBase bits
  rw [hlow, hhigh]
  dsimp only
  omega

/-- The busy bit makes another access byte of that of a task state segment. -/
theorem busyDescriptor_tss (base : UInt64) (limit : UInt32) :
    busyDescriptor (tssDescriptorLow base limit) = systemDescriptorLow 0x8b base limit := by
  have hbusy : (0x8b : UInt64) <<< 40 = (0x89 : UInt64) <<< 40 ||| (1 : UInt64) <<< 41 := by decide
  have hmove : ∀ a x c d y : UInt64, a ||| x ||| c ||| d ||| y = a ||| (x ||| y) ||| c ||| d := by
    intro a x c d y
    ac_rfl
  unfold busyDescriptor tssDescriptorLow systemDescriptorLow
  rw [hbusy]
  exact hmove _ _ _ _ _

/-- It lies where it was put when it has been loaded. -/
theorem ofWord_busyDescriptor (base : UInt64) {limit : UInt32} (hlimit : limit.toNat < 2 ^ 20) :
    Segment.ofWord (busyDescriptor (tssDescriptorLow base limit)) =
        ⟨base.toNat % 2 ^ 32, limit.toNat, 0x8b, 0⟩ ∧
      systemBase (busyDescriptor (tssDescriptorLow base limit)) (tssDescriptorHigh base) = base.toNat := by
  rw [busyDescriptor_tss]
  exact ofWord_systemDescriptor (by decide) base hlimit

/-- An interrupt goes to the address in the gate. -/
theorem handler_gate (address : UInt64) : (IdtEntry.gate address).handler = some address.toNat := by
  have haddress := address.toNat_lt
  have hmid : (address >>> 16).toUInt16.toNat = address.toNat / 2 ^ 16 % 2 ^ 16 := by
    rw [UInt64.toNat_toUInt16, UInt64.toNat_shiftRight]
    exact congrArg (· % 2 ^ 16) (Nat.shiftRight_eq_div_pow _ _)
  have hhigh : (address >>> 32).toUInt32.toNat = address.toNat / 2 ^ 32 % 2 ^ 32 := by
    rw [UInt64.toNat_toUInt32, UInt64.toNat_shiftRight]
    exact congrArg (· % 2 ^ 32) (Nat.shiftRight_eq_div_pow _ _)
  have htarget : (IdtEntry.gate address).target = address.toNat := by
    unfold IdtEntry.target IdtEntry.gate
    dsimp only
    rw [hmid, hhigh, UInt64.toNat_toUInt16]
    omega
  unfold IdtEntry.handler
  rw [htarget]
  exact if_pos (show bits (0x8e : UInt8).toNat 7 1 = 1 by decide)

/-- An entry that was never made leads nowhere. -/
theorem handler_empty : IdtEntry.empty.handler = none := by decide

end Scdk
