-- SUMMARY: The I/O APIC: redirection table, pins, register window and the servicing scan.
import RustyBox.Lib.BitSet
import RustyBox.Snapshot.Reader
import Mathlib.Logic.Function.Basic

/-!
# The I/O APIC

Twenty-four pins, each with a redirection entry. A level change or a write to an entry asks
for the servicing scan, which queues a message for every unmasked request; the machine
routes the queue to the Local APICs and reports back with `completeDeferredDelivery`. An
entry in ExtINT mode takes its vector from the 8259 pair, which is a parameter of the scan.

The counter of stuck deliveries is read by log messages only and is left out.
-/

namespace RustyBox

open Lib

def ioapicNumPins : Nat := 24

/-- `IOAPIC_PENDING_DELIVERY_CAPACITY`. -/
def ioapicQueueCapacity : Nat := 256

/-- `APIC_ID_MASK`. -/
def ioapicIdMask : BitVec 32 := 0xFF#32

/-- Whether a register change leaves interrupts for the servicing scan. -/
inductive ServiceRequest where
  | needed
  | notNeeded
  deriving DecidableEq, Repr

/-! ## Redirection entries -/

structure IoRedirectEntry where
  lo : BitVec 32 := 0x00010000
  hi : BitVec 32 := 0
  deriving DecidableEq, Repr

namespace IoRedirectEntry

variable (e : IoRedirectEntry)

def destination : BitVec 8 := (e.hi >>> 24).setWidth 8

def isMasked : Bool := e.lo >>> 16 &&& 1#32 != 0#32

def triggerMode : BitVec 8 := (e.lo >>> 15 &&& 1#32).setWidth 8

def destinationMode : BitVec 8 := (e.lo >>> 11 &&& 1#32).setWidth 8

def deliveryMode : BitVec 8 := (e.lo >>> 8 &&& 7#32).setWidth 8

def vector : BitVec 8 := (e.lo &&& 0xFF#32).setWidth 8

def setDeliveryStatus : IoRedirectEntry := { e with lo := e.lo ||| 1#32 <<< 12 }

def clearDeliveryStatus : IoRedirectEntry := { e with lo := e.lo &&& ~~~(1#32 <<< 12) }

/-- The delivery status and the remote IRR are read-only. -/
def setLoPart (value : BitVec 32) : IoRedirectEntry := { e with lo := value &&& 0xFFFFAFFF#32 }

def setHiPart (value : BitVec 32) : IoRedirectEntry := { e with hi := value }

end IoRedirectEntry

/-! ## The device -/

structure PendingIoApicDelivery where
  pin : BitVec 8
  vector : BitVec 8
  deliveryMode : BitVec 8
  triggerMode : BitVec 8
  dest : BitVec 32
  destMode : BitVec 8
  needsPicIac : Bool
  deriving DecidableEq, Repr

structure BxIoApic where
  enabled : Bool := false
  baseAddr : BitVec 32 := 0xFEC00000
  id : BitVec 32 := 1
  ioregsel : BitVec 32 := 0
  intin : BitVec 32 := 0
  irr : BitVec 32 := 0
  ioredtbl : Fin ioapicNumPins → IoRedirectEntry := fun _ => {}
  pendingDeliveries : List PendingIoApicDelivery := []

/-- The bit of a pin in `intin` and `irr`. -/
def pinBit (pin : Fin ioapicNumPins) : Fin 32 := pin.castLE (by decide)

namespace BxIoApic

def new : BxIoApic := {}

variable (s : BxIoApic)

/-- The entry that a register selector addresses. -/
def redtblIndex (ioregsel : BitVec 32) : Option (Fin ioapicNumPins) :=
  let rawIndex := (ioregsel - 0x10#32) >>> 1
  if h : rawIndex.toNat < ioapicNumPins then some ⟨rawIndex.toNat, h⟩ else none

/-- The register window: an odd selector addresses the high part of an entry. -/
def writeAligned (address : Nat) (value : BitVec 32) : BxIoApic × ServiceRequest :=
  if address % 256 = 0x00 then ({ s with ioregsel := value }, .notNeeded)
  else if address % 256 ≠ 0x10 then (s, .notNeeded)
  else if s.ioregsel = 0x00#32 then
    ({ s with id := value >>> 24 &&& ioapicIdMask }, .notNeeded)
  else if s.ioregsel = 0x01#32 ∨ s.ioregsel = 0x02#32 then (s, .notNeeded)
  else
    match redtblIndex s.ioregsel with
    | some pin =>
      let entry := s.ioredtbl pin
      let entry := if s.ioregsel &&& 1#32 ≠ 0#32 then entry.setHiPart value
        else entry.setLoPart value
      ({ s with ioredtbl := Function.update s.ioredtbl pin entry }, .needed)
    | none => (s, .notNeeded)

/-- The value a store brings to the window: four bytes anywhere, fewer only at the
selector, and nothing when the buffer is shorter than the access. -/
def memWriteValue (addr len : Nat) (data : List UInt8) : Option (BitVec 32) :=
  if addr % 16 ≠ 0 then none
  else if len = 4 then
    if 4 ≤ data.length then some (BitVec.ofNat 32 (leNat (data.take 4))) else none
  else if addr % 256 ≠ 0 then none
  else if len = 2 then
    if 2 ≤ data.length then some (BitVec.ofNat 32 (leNat (data.take 2))) else none
  else if len = 1 then
    if 1 ≤ data.length then some (BitVec.ofNat 32 (leNat (data.take 1))) else none
  else none

def memWrite (addr len : Nat) (data : List UInt8) : BxIoApic × ServiceRequest :=
  match memWriteValue addr len data with
  | some value => s.writeAligned addr value
  | none => (s, .notNeeded)

/-- A level change of a pin. The timer's line is connected to pin 2. -/
def setPinLevel (intIn : Nat) (level : Bool) : BxIoApic × ServiceRequest :=
  let intIn := if intIn = 0 then 2 else intIn
  if h : intIn < ioapicNumPins then
    let pin : Fin ioapicNumPins := ⟨intIn, h⟩
    if level = hasBit s.intin (pinBit pin) then (s, .notNeeded)
    else if (s.ioredtbl pin).triggerMode ≠ 0#8 then
      if level then
        ({ s with intin := setBit s.intin (pinBit pin), irr := setBit s.irr (pinBit pin) }, .needed)
      else
        ({ s with intin := clearBit s.intin (pinBit pin), irr := clearBit s.irr (pinBit pin) },
          .notNeeded)
    else if level then
      if !(s.ioredtbl pin).isMasked then
        ({ s with intin := setBit s.intin (pinBit pin), irr := setBit s.irr (pinBit pin) }, .needed)
      else ({ s with intin := setBit s.intin (pinBit pin) }, .notNeeded)
    else ({ s with intin := clearBit s.intin (pinBit pin) }, .notNeeded)
  else (s, .notNeeded)

/-- `pin_state`, its level part. -/
def pinLevel (pin : Nat) : Bool :=
  if h : pin < ioapicNumPins then hasBit s.intin (pinBit ⟨pin, h⟩) else false

/-- `has_asserted_level_entry`. -/
def hasAssertedLevelEntry (vector : BitVec 8) : Bool :=
  (List.finRange ioapicNumPins).any fun pin =>
    (s.ioredtbl pin).vector == vector && (s.ioredtbl pin).triggerMode != 0#8 &&
      hasBit s.irr (pinBit pin)

/-- The message of an entry, its vector resolved. -/
def message (pin : Fin ioapicNumPins) (vector : BitVec 8) : PendingIoApicDelivery where
  pin := BitVec.ofNat 8 pin.val
  vector := vector
  deliveryMode := (s.ioredtbl pin).deliveryMode
  triggerMode := (s.ioredtbl pin).triggerMode
  dest := (s.ioredtbl pin).destination.setWidth 32
  destMode := (s.ioredtbl pin).destinationMode
  needsPicIac := false

/-- Lowest-priority delivery in physical mode is refused, and so is a message that finds the
queue full. -/
def enqueues (pin : Fin ioapicNumPins) : Bool :=
  !((s.ioredtbl pin).deliveryMode == 1#8 && (s.ioredtbl pin).destinationMode == 0#8) &&
    decide (s.pendingDeliveries.length < ioapicQueueCapacity)

/-- What the scan does at a requested, unmasked pin. -/
def deliver (pin : Fin ioapicNumPins) (vector : BitVec 8) : BxIoApic :=
  let sent : BxIoApic :=
    if s.enqueues pin then
      { s with
        pendingDeliveries := s.pendingDeliveries ++ [s.message pin vector]
        irr := if (s.ioredtbl pin).triggerMode = 0#8 then clearBit s.irr (pinBit pin) else s.irr }
    else s
  { sent with
    ioredtbl := Function.update s.ioredtbl pin (s.ioredtbl pin).setDeliveryStatus }

section Service

variable {π : Type} (acknowledge : π → π × BitVec 8)

/-- One pin of the scan; `p` answers for the 8259 pair. -/
def servicePin (sp : BxIoApic × π) (pin : Fin ioapicNumPins) : BxIoApic × π :=
  let (s, p) := sp
  if !hasBit s.irr (pinBit pin) || (s.ioredtbl pin).isMasked then (s, p)
  else if (s.ioredtbl pin).deliveryMode = 7#8 then
    (s.deliver pin (acknowledge p).2, (acknowledge p).1)
  else (s.deliver pin (s.ioredtbl pin).vector, p)

def service (sp : BxIoApic × π) : BxIoApic × π :=
  (List.finRange ioapicNumPins).foldl (servicePin acknowledge) sp

variable {acknowledge}

/-- What every delivery keeps, the scan keeps. A delivery takes its vector from the entry, or
from the 8259 pair for an entry in ExtINT mode. -/
theorem service_rule {Q : BxIoApic × π → Prop}
    (hext : ∀ s p pin, Q (s, p) → (s.ioredtbl pin).isMasked = false →
      (s.ioredtbl pin).deliveryMode = 7#8 →
      Q (s.deliver pin (acknowledge p).2, (acknowledge p).1))
    (hown : ∀ s p pin, Q (s, p) → (s.ioredtbl pin).isMasked = false →
      (s.ioredtbl pin).deliveryMode ≠ 7#8 → Q (s.deliver pin (s.ioredtbl pin).vector, p))
    {sp : BxIoApic × π} (h : Q sp) : Q (service acknowledge sp) := by
  have hpin (sp : BxIoApic × π) (pin : Fin ioapicNumPins) (h : Q sp) :
      Q (servicePin acknowledge sp pin) := by
    simp only [servicePin]
    split_ifs with hskip hmode
    · exact h
    · simp only [Bool.or_eq_true, not_or, Bool.not_eq_true] at hskip
      exact hext _ _ pin h hskip.2 hmode
    · simp only [Bool.or_eq_true, not_or, Bool.not_eq_true] at hskip
      exact hown _ _ pin h hskip.2 hmode
  rw [service]
  induction List.finRange ioapicNumPins generalizing sp with
  | nil => exact h
  | cons pin pins ih => exact ih (hpin sp pin h)

end Service

def takePendingDeliveries : BxIoApic × List PendingIoApicDelivery :=
  ({ s with pendingDeliveries := [] }, s.pendingDeliveries)

/-- The Local APICs have answered: an undelivered edge is requested again. -/
def completeDeferredDelivery (delivery : PendingIoApicDelivery) (done : Bool) : BxIoApic :=
  if h : delivery.pin.toNat < ioapicNumPins then
    let pin : Fin ioapicNumPins := ⟨delivery.pin.toNat, h⟩
    if done then
      { s with
        irr := if delivery.triggerMode = 0#8 then clearBit s.irr (pinBit pin) else s.irr
        ioredtbl := Function.update s.ioredtbl pin (s.ioredtbl pin).clearDeliveryStatus }
    else
      { s with
        irr := if delivery.triggerMode = 0#8 then setBit s.irr (pinBit pin) else s.irr
        ioredtbl := Function.update s.ioredtbl pin (s.ioredtbl pin).setDeliveryStatus }
  else s

end BxIoApic

end RustyBox
