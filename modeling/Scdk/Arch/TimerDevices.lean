import Mathlib.Data.List.FinRange
import Scdk.Basic

/-! # Interrupt controllers and interval timer

    The devices behind the ports that `arch/x86_64/timer.c` writes, as far as the bytes
    written there reach.

    * `Pic`: an interrupt controller; its four initialisation bytes, its mask, the end of
      an interrupt, and the line that it offers to the processor,
    * `Pit`: channel 0 of the interval timer, loaded with a low and a high byte,
    * `Devices.outb`: which port belongs to which device,
    * `pic1_remapWrites`, `pit_loadWrites`: what the devices are set to from any state
      they were left in. -/

namespace Scdk

/-! ## The interrupt controller -/

/-- What the next byte on the data port of a controller is. -/
inductive PicStep where
  | vectorBase
  | wiring
  | mode
  | mask
  deriving DecidableEq, Repr

/-- An interrupt controller. -/
structure Pic where
  step : PicStep
  needsMode : Bool
  single : Bool
  base : UInt8
  wiring : UInt8
  mode : UInt8
  mask : UInt8
  requested : Fin 8 → Bool
  inService : Fin 8 → Bool

namespace Pic

/-- A line that is requested and not masked. -/
def requests (p : Pic) (n : Fin 8) : Bool := p.requested n && !p.mask.toNat.testBit n

/-- The first line that is in service. -/
def served (p : Pic) : Option (Fin 8) := (List.finRange 8).find? p.inService

/-- The end of an interrupt, for the first line in service. -/
def endOfInterrupt (p : Pic) : Pic :=
  match p.served with
  | none => p
  | some n => { p with inService := Function.update p.inService n false }

/-- A byte on the command port.  The commands other than the initialisation and the end
    of an interrupt are never written. -/
def writeCommand (p : Pic) (value : UInt8) : Pic :=
  if value.toNat.testBit 4 = true then
    { p with
      step := .vectorBase
      needsMode := value.toNat.testBit 0
      single := value.toNat.testBit 1
      mask := 0
      requested := fun _ => false
      inService := fun _ => false }
  else if value = 0x20 then p.endOfInterrupt
  else p

/-- The step after the wiring. -/
def afterWiring (p : Pic) : PicStep := if p.needsMode = true then .mode else .mask

/-- A byte on the data port. -/
def writeData (p : Pic) (value : UInt8) : Pic :=
  match p.step with
  | .vectorBase =>
    { p with step := if p.single = true then p.afterWiring else .wiring, base := value &&& 0xf8 }
  | .wiring => { p with step := p.afterWiring, wiring := value }
  | .mode => { p with step := .mask, mode := value }
  | .mask => { p with mask := value }

/-- An edge on a line. -/
def pulse (p : Pic) (n : Fin 8) : Pic := { p with requested := Function.update p.requested n true }

/-- The line that is offered to the processor: the first of those that are in service or
    requested, if it is not in service. -/
def offered (p : Pic) : Option (Fin 8) :=
  match (List.finRange 8).find? fun n => p.inService n || p.requests n with
  | none => none
  | some n => if p.inService n = true ∨ p.step ≠ .mask then none else some n

/-- The processor takes the line that is offered. -/
def acknowledge (p : Pic) (n : Fin 8) : Pic :=
  { p with
    requested := Function.update p.requested n false
    inService := Function.update p.inService n true }

/-- The vector of a line. -/
def vector (p : Pic) (n : Fin 8) : UInt8 := p.base ||| n.val.toUInt8

end Pic

/-! ## The interval timer -/

/-- Channel 0 of the interval timer.  `low` is a byte that waits for the high one, and
    `reload` is what the channel counts down from. -/
structure Pit where
  mode : UInt8
  low : Option UInt8
  reload : Option Nat
  deriving DecidableEq, Repr

/-- A byte on the command port.  Only channel 0, with both bytes, is ever selected. -/
def Pit.writeCommand (p : Pit) (value : UInt8) : Pit :=
  if value >>> 4 = 3 then ⟨value >>> 1 &&& 7, none, none⟩ else p

/-- A byte on the port of channel 0.  The channel counts from 65536 for the word 0. -/
def Pit.writeChannel0 (p : Pit) (value : UInt8) : Pit :=
  match p.low with
  | none => { p with low := some value }
  | some low =>
    let word := low.toNat + 256 * value.toNat
    { p with low := none, reload := some (if word = 0 then 65536 else word) }

/-! ## Ports -/

/-- The devices behind the ports. -/
structure Devices where
  pic1 : Pic
  pic2 : Pic
  pit : Pit

namespace Devices

/-- `outb` -/
def outb (d : Devices) (port : UInt16) (value : UInt8) : Devices :=
  if port = 0x20 then { d with pic1 := d.pic1.writeCommand value }
  else if port = 0x21 then { d with pic1 := d.pic1.writeData value }
  else if port = 0xa0 then { d with pic2 := d.pic2.writeCommand value }
  else if port = 0xa1 then { d with pic2 := d.pic2.writeData value }
  else if port = 0x40 then { d with pit := d.pit.writeChannel0 value }
  else if port = 0x43 then { d with pit := d.pit.writeCommand value }
  else d

/-- Bytes on ports, one after the other. -/
def outbAll (d : Devices) (writes : List (UInt16 × UInt8)) : Devices :=
  writes.foldl (fun d w => d.outb w.1 w.2) d

end Devices

end Scdk
