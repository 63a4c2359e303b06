-- SUMMARY: The 8259 pair: request, mask and service registers, the cascade, port I/O and INTA cycles.
import RustyBox.Lib.BitSet
import RustyBox.Lib.RingScan
import Mathlib.Logic.Function.Basic

/-!
# The 8259 interrupt controllers

Two chips, the slave's INT output wired to line 2 of the master. `Pic8259State.service`
looks for the request a chip may signal and, when INT is not asserted yet, asserts it and
latches the line. `BxPicC` is the pair, with the operations devices, the guest and the CPU
perform on it; `PicOp` names them and `BxPicC.run` performs a sequence.

Line numbers within a chip and the lowest priority line are `Fin 8`: the source keeps them
in 0 to 7 by wrapping. `irq_pending` and `irq_cleared`, the two signals to the CPU loop,
are set here and consumed by the emulator.
-/

namespace RustyBox

open Lib Function

/-! ## One chip -/

/-- What `service` asks of the rest of the machine. -/
inductive PicServiceAction where
  | none
  | raiseIntr
  | clearIntr
  | raiseCascade
  | lowerCascade
  deriving DecidableEq, Repr

/-- Whether a line change has to be forwarded to the I/O APIC. -/
inductive IoApicEdge where
  | crossed
  | notCrossed
  deriving DecidableEq, Repr

structure PicInitState where
  inInit : Bool := false
  requires4 : Bool := false
  byteExpected : Nat := 0
  deriving DecidableEq, Repr

structure Pic8259State where
  master : Bool := false
  interruptOffset : BitVec 8 := 0
  sfnm : Bool := false
  bufferedMode : Bool := false
  masterSlave : Bool := false
  autoEoi : Bool := false
  imr : BitVec 8 := 0xFF
  isr : BitVec 8 := 0
  irr : BitVec 8 := 0
  readRegSelect : Bool := false
  irq : Fin 8 := 0
  lowestPriority : Fin 8 := 7
  intPin : Bool := false
  irqIn : Fin 8 → Bool := fun _ => false
  init : PicInitState := {}
  specialMask : Bool := false
  polled : Bool := false
  rotateOnAutoeoi : Bool := false
  edgeLevel : BitVec 8 := 0

namespace Pic8259State

variable (c : Pic8259State)

def highestPriority : Fin 8 := c.lowestPriority + 1

def unmaskedRequests : BitVec 8 := c.irr &&& ~~~c.imr

/-- The in-service line of the highest priority. -/
def highestInService : Option (Fin 8) :=
  scanRing (hasBit c.isr) c.highestPriority 8 c.highestPriority

def clearHighestInterrupt : Pic8259State :=
  match c.highestInService with
  | some irq => { c with isr := clearBit c.isr irq }
  | none => c

/-- Where the scan of `service` stops: the in-service line of the highest priority, or all
the way around in special mask mode and when nothing is in service. -/
def maxIrq : Fin 8 :=
  if c.specialMask then c.highestPriority
  else c.highestInService.getD c.highestPriority

/-- The test `service` makes at each line of its scan. -/
def signals (irq : Fin 8) : Bool :=
  !(c.specialMask && hasBit c.isr irq) && (!c.intPin && hasBit c.unmaskedRequests irq)

def service : Pic8259State × PicServiceAction :=
  if !c.specialMask && c.isr != 0#8 && c.maxIrq == c.highestPriority then (c, .none)
  else if c.unmaskedRequests ≠ 0#8 then
    match scanRing c.signals c.maxIrq 8 c.highestPriority with
    | some irq =>
      ({ c with intPin := true, irq := irq }, if c.master then .raiseIntr else .raiseCascade)
    | none => (c, .none)
  else if c.intPin then
    ({ c with intPin := false }, if c.master then .clearIntr else .lowerCascade)
  else (c, .none)

/-- What an INTA cycle does to the chip whose latched line it takes. -/
def acknowledge : Pic8259State :=
  let c := if hasBit c.edgeLevel c.irq then c else { c with irr := clearBit c.irr c.irq }
  if !c.autoEoi then { c with isr := setBit c.isr c.irq }
  else if c.rotateOnAutoeoi then { c with lowestPriority := c.irq }
  else c

variable (value : BitVec 8)

/-- ICW1 starts the initialisation sequence. -/
def writeIcw1 : Pic8259State :=
  { c with
    init := { inInit := true, requires4 := value &&& 0x01#8 != 0#8, byteExpected := 2 }
    imr := 0, isr := 0, irr := 0, lowestPriority := 7
    autoEoi := false, rotateOnAutoeoi := false, intPin := false }

/-- ICW2 to ICW4. -/
def writeIcw : Pic8259State :=
  match c.init.byteExpected with
  | 2 => { c with interruptOffset := value &&& 0xF8#8, init.byteExpected := 3 }
  | 3 => if c.init.requires4 then { c with init.byteExpected := 4 }
    else { c with init.inInit := false }
  | 4 =>
    { c with
      autoEoi := value &&& 0x02#8 != 0#8, bufferedMode := value &&& 0x04#8 != 0#8
      masterSlave := value &&& 0x08#8 != 0#8, sfnm := value &&& 0x10#8 != 0#8
      init.inInit := false }
  | _ => c

/-- The register selection and the special mask of OCW3. -/
def writeOcw3 : Pic8259State :=
  let c :=
    if value &&& 0x03#8 = 0x02#8 then { c with readRegSelect := false }
    else if value &&& 0x03#8 = 0x03#8 then { c with readRegSelect := true }
    else c
  if value &&& 0x60#8 = 0x40#8 then { c with specialMask := false }
  else if value &&& 0x60#8 = 0x60#8 then { c with specialMask := true }
  else c

/-- The command port reads IRR or ISR. -/
def readCmd : BitVec 32 := (if c.readRegSelect then c.isr else c.irr).setWidth 32

/-- What a read in poll mode returns: the latched line, twice for a wide read. -/
def pollValue (ioLen : Nat) : BitVec 32 :=
  let irq := BitVec.ofNat 32 c.irq.val
  if ioLen = 1 then irq else irq <<< 8 ||| irq

end Pic8259State

/-! ## The pair -/

structure BxPicC where
  master : Pic8259State
  slave : Pic8259State
  irqPending : Bool := false
  irqCleared : Bool := false

namespace BxPicC

def new : BxPicC where
  master := { master := true, interruptOffset := 0x08, masterSlave := true }
  slave := { interruptOffset := 0x70 }

variable (s : BxPicC)

/-- Both chips as they are when the machine is powered on. -/
def reset : BxPicC :=
  { new with irqPending := s.irqPending, irqCleared := s.irqCleared }

variable (isMaster : Bool) (line : Fin 8) (irqNo : Nat) (value : BitVec 8)

def pic : Pic8259State := if isMaster then s.master else s.slave

def modify (f : Pic8259State → Pic8259State) : BxPicC :=
  if isMaster then { s with master := f s.master } else { s with slave := f s.slave }

/-- `service_pic_dispatch` for the master: the action is a signal to the CPU. -/
def serviceMaster : BxPicC :=
  let (master, action) := s.master.service
  { s with
    master
    irqPending := s.irqPending || action == .raiseIntr
    irqCleared := s.irqCleared || action == .clearIntr }

/-- `raise_irq` on a line of the master. -/
def raiseMaster : BxPicC × IoApicEdge :=
  let s := { s with master.irqIn := update s.master.irqIn line true }
  if hasBit s.master.irr line then (s, .notCrossed)
  else
    ({ s with master.irr := setBit s.master.irr line }.serviceMaster,
      if line = 2 then .notCrossed else .crossed)

/-- `lower_irq` on a line of the master. -/
def lowerMaster : BxPicC × IoApicEdge :=
  if s.master.irqIn line then
    ({ s with
        master.irqIn := update s.master.irqIn line false
        master.irr := clearBit s.master.irr line },
      if line = 2 then .notCrossed else .crossed)
  else (s, .notCrossed)

/-- The slave's INT output drives line 2 of the master. -/
def setCascadeLine (level : Bool) : BxPicC :=
  if level then (s.raiseMaster 2).1 else (s.lowerMaster 2).1

/-- `service_pic_dispatch` for the slave: the action is a level on the cascade line. -/
def serviceSlave : BxPicC :=
  let (slave, action) := s.slave.service
  let s := { s with slave }
  match action with
  | .raiseCascade => s.setCascadeLine true
  | .lowerCascade => s.setCascadeLine false
  | _ => s

def servicePicDispatch : BxPicC :=
  if isMaster then s.serviceMaster else s.serviceSlave

/-- `raise_irq` on a line of the slave. -/
def raiseSlave : BxPicC × IoApicEdge :=
  let s := { s with slave.irqIn := update s.slave.irqIn line true }
  if hasBit s.slave.irr line then (s, .notCrossed)
  else ({ s with slave.irr := setBit s.slave.irr line }.serviceSlave, .crossed)

/-- `lower_irq` on a line of the slave. -/
def lowerSlave : BxPicC × IoApicEdge :=
  if s.slave.irqIn line then
    ({ s with
        slave.irqIn := update s.slave.irqIn line false
        slave.irr := clearBit s.slave.irr line }, .crossed)
  else (s, .notCrossed)

/-- The ISA lines 0 to 7 are the master's and 8 to 15 the slave's. -/
def raiseIrq : BxPicC × IoApicEdge :=
  if irqNo < 8 then s.raiseMaster (Fin.ofNat 8 irqNo)
  else if irqNo < 16 then s.raiseSlave (Fin.ofNat 8 (irqNo - 8))
  else (s, .notCrossed)

def lowerIrq : BxPicC × IoApicEdge :=
  if irqNo < 8 then s.lowerMaster (Fin.ofNat 8 irqNo)
  else if irqNo < 16 then s.lowerSlave (Fin.ofNat 8 (irqNo - 8))
  else (s, .notCrossed)

def setIrqLevel (level : Bool) : BxPicC × IoApicEdge :=
  if level then s.raiseIrq irqNo else s.lowerIrq irqNo

def irqLineLevel : Bool :=
  if irqNo < 8 then s.master.irqIn (Fin.ofNat 8 irqNo)
  else if irqNo < 16 then s.slave.irqIn (Fin.ofNat 8 (irqNo - 8))
  else false

/-- The trigger modes, forwarded by the PCI bridge when its ELCR registers change. -/
def setMode (mode : BitVec 8) : BxPicC :=
  s.modify isMaster fun c => { c with edgeLevel := mode }

/-! ### Port I/O -/

def writeOcw2 (isMaster : Bool) : BxPicC :=
  if value = 0x00#8 ∨ value = 0x80#8 then
    s.modify isMaster fun c => { c with rotateOnAutoeoi := value != 0#8 }
  else if value = 0x20#8 then
    (s.modify isMaster Pic8259State.clearHighestInterrupt).servicePicDispatch isMaster
  else if value = 0xA0#8 then
    (s.modify isMaster fun c =>
      { c.clearHighestInterrupt with lowestPriority := c.lowestPriority + 1 }).servicePicDispatch
      isMaster
  else if value = 0x40#8 ∨ value = 0x02#8 then s
  else if 0x60#8 ≤ value ∧ value ≤ 0x67#8 then
    (s.modify isMaster fun c =>
      { c with isr := clearBit c.isr (Fin.ofNat 8 (value - 0x60#8).toNat) }).servicePicDispatch
      isMaster
  else if 0xC0#8 ≤ value ∧ value ≤ 0xC7#8 then
    s.modify isMaster fun c => { c with lowestPriority := Fin.ofNat 8 (value - 0xC0#8).toNat }
  else if 0xE0#8 ≤ value ∧ value ≤ 0xE7#8 then
    (s.modify isMaster fun c =>
      { c with
        isr := clearBit c.isr (Fin.ofNat 8 (value - 0xE0#8).toNat)
        lowestPriority := Fin.ofNat 8 (value - 0xE0#8).toNat }).servicePicDispatch isMaster
  else s

def writeCmd (isMaster : Bool) : BxPicC :=
  if value &&& 0x10#8 ≠ 0#8 then
    if isMaster then { s with master := s.master.writeIcw1 value, irqCleared := true }
    else
      { s with
        slave := s.slave.writeIcw1 value
        master.irqIn := update s.master.irqIn 2 false }
  else if value &&& 0x18#8 = 0x08#8 then
    if value &&& 0x04#8 ≠ 0#8 then s.modify isMaster fun c => { c with polled := true }
    else if value &&& 0x60#8 = 0x60#8 then
      (s.modify isMaster fun c => c.writeOcw3 value).servicePicDispatch isMaster
    else s.modify isMaster fun c => c.writeOcw3 value
  else s.writeOcw2 value isMaster

def writeData (isMaster : Bool) : BxPicC :=
  if (s.pic isMaster).init.inInit then s.modify isMaster fun c => c.writeIcw value
  else (s.modify isMaster fun c => { c with imr := value }).servicePicDispatch isMaster

def picMasterCmd : BitVec 16 := 0x0020
def picMasterData : BitVec 16 := 0x0021
def picSlaveCmd : BitVec 16 := 0x00A0
def picSlaveData : BitVec 16 := 0x00A1

def write (port : BitVec 16) (value : BitVec 32) : BxPicC :=
  if port = picMasterCmd then s.writeCmd (value.setWidth 8) true
  else if port = picMasterData then s.writeData (value.setWidth 8) true
  else if port = picSlaveCmd then s.writeCmd (value.setWidth 8) false
  else if port = picSlaveData then s.writeData (value.setWidth 8) false
  else s

/-- A read in poll mode acknowledges: it ends the service of the highest in-service line. -/
def pollRead : BxPicC :=
  (s.modify isMaster fun c => { c.clearHighestInterrupt with polled := false }).servicePicDispatch
    isMaster

def read (port : BitVec 16) (ioLen : Nat) : BxPicC × BitVec 32 :=
  if (port = picMasterCmd ∨ port = picMasterData) ∧ s.master.polled then
    (s.pollRead true, (s.pollRead true).master.pollValue ioLen)
  else if (port = picSlaveCmd ∨ port = picSlaveData) ∧ s.slave.polled then
    (s.pollRead false, (s.pollRead false).slave.pollValue ioLen)
  else if port = picMasterCmd then (s, s.master.readCmd)
  else if port = picMasterData then (s, s.master.imr.setWidth 32)
  else if port = picSlaveCmd then (s, s.slave.readCmd)
  else if port = picSlaveData then (s, s.slave.imr.setWidth 32)
  else (s, 0xFF#32)

/-! ### INTA cycles -/

/-- The CPU takes INT down before it looks at the master's requests. -/
def deassert : BxPicC := { s with irqCleared := true, master.intPin := false }

/-- The INTA cycle reaches the slave: its INT and the cascade input go down. -/
def cascade : BxPicC :=
  { s with
    master := { s.master.acknowledge with irqIn := update s.master.irqIn 2 false }
    slave.intPin := false }

/-- `iac`: the vector the CPU takes, and the pair after the cycle. -/
def iac : BxPicC × BitVec 8 :=
  let s := s.deassert
  if s.master.unmaskedRequests = 0#8 then (s, s.master.interruptOffset + 7)
  else if s.master.irq ≠ 2 then
    ({ s with master := s.master.acknowledge }.serviceMaster,
      BitVec.ofNat 8 s.master.irq.val + s.master.interruptOffset)
  else
    let s := s.cascade
    if s.slave.unmaskedRequests = 0#8 then (s, s.slave.interruptOffset + 7)
    else
      ({ s with slave := s.slave.acknowledge }.serviceSlave.serviceMaster,
        BitVec.ofNat 8 s.slave.irq.val + s.slave.interruptOffset)

end BxPicC

/-! ## Runs -/

/-- What devices, the guest and the CPU do to the pair. -/
inductive PicOp where
  | raiseIrq (irqNo : Nat)
  | lowerIrq (irqNo : Nat)
  | write (port : BitVec 16) (value : BitVec 32)
  | read (port : BitVec 16) (ioLen : Nat)
  | inta
  | setMode (isMaster : Bool) (mode : BitVec 8)
  | reset

namespace BxPicC

def step (s : BxPicC) : PicOp → BxPicC
  | .raiseIrq irqNo => (s.raiseIrq irqNo).1
  | .lowerIrq irqNo => (s.lowerIrq irqNo).1
  | .write port value => s.write port value
  | .read port ioLen => (s.read port ioLen).1
  | .inta => s.iac.1
  | .setMode isMaster mode => s.setMode isMaster mode
  | .reset => s.reset

def run (s : BxPicC) (ops : List PicOp) : BxPicC := ops.foldl step s

end BxPicC

end RustyBox
