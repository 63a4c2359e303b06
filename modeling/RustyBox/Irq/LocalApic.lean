-- SUMMARY: The local APIC: interrupt registers, IPIs, local vector table, timer, and their operations.
import Mathlib.Data.Fin.VecNotation
import RustyBox.Lib.WordSet

/-!
# The local APIC

`BxLocalApic` follows the fields of the device, grouped by what they are for: `vectors` decides
which interrupt is raised and taken, `timer` is the timer with its requests to the scheduler.
The two queues are lists in the order of their rings. An operation of the guest, of the bus or of
the scheduler is one `ApicOp`, and `run` applies a sequence of them.
-/

namespace RustyBox

open Lib Positions

/-! ## Vectors -/

/-- A 256-bit register: eight words of 32 bits. -/
abbrev VectorBits := WordSet 8 32

def vectorIndex (vector : BitVec 8) : Fin (8 * 32) := vector.toFin

variable (reg : VectorBits)

def getVector (vector : BitVec 8) : Bool := reg.mem (vectorIndex vector)

def setVector (vector : BitVec 8) : VectorBits :=
  reg.insert (vectorIndex vector)

def clearVector (vector : BitVec 8) : VectorBits :=
  reg.erase (vectorIndex vector)

/-- The registers that decide which interrupt is raised and which is taken. -/
structure ApicVectors where
  isr : VectorBits := fun _ => 0#32
  tmr : VectorBits := fun _ => 0#32
  irr : VectorBits := fun _ => 0#32
  ier : VectorBits := fun _ => 0xFFFFFFFF#32
  taskPriority : BitVec 32 := 0#32
  intr : Bool := false
  intrPending : Bool := false

namespace ApicVectors

variable (p : ApicVectors)

/-- The highest vector of a register that the IER lets through. -/
def highestPriorityInt (array : VectorBits) : Option (BitVec 8) :=
  (WordSet.highest fun reg => array reg &&& p.ier reg).map BitVec.ofFin

def serviceLocalApic : ApicVectors :=
  if p.intr then p
  else
    match p.highestPriorityInt p.irr with
    | none => p
    | some firstIrr =>
      if ∃ firstIsr ∈ p.highestPriorityInt p.isr, firstIrr ≤ firstIsr then p
      else if firstIrr.setWidth 32 &&& 0xF0#32 ≤ p.taskPriority &&& 0xF0#32 then p
      else { p with intr := true, intrPending := true }

def getPpr : BitVec 8 :=
  match p.highestPriorityInt p.isr with
  | none => p.taskPriority.setWidth 8
  | some firstIsr =>
    if firstIsr.setWidth 32 &&& 0xF0#32 ≤ p.taskPriority &&& 0xF0#32 then p.taskPriority.setWidth 8
    else firstIsr &&& 0xF0#8

/-- The vector that the CPU takes, moved from the IRR to the ISR; none if there is none above the
processor priority. -/
def acknowledge : ApicVectors × Option (BitVec 8) :=
  match p.highestPriorityInt p.irr with
  | none => ({ p with intr := false }, none)
  | some vector =>
    if vector &&& 0xF0#8 ≤ p.getPpr then ({ p with intr := false }, none)
    else
      (serviceLocalApic { p with
        irr := clearVector p.irr vector
        isr := setVector p.isr vector
        intr := false }, some vector)

/-- The part of `trigger_irq` behind the check of the vector. -/
def accept (vector triggerMode : BitVec 8) (bypassIrrIsr : Bool) : ApicVectors :=
  if !bypassIrrIsr && getVector p.irr vector then p
  else
    serviceLocalApic { p with
      irr := setVector p.irr vector
      tmr := if triggerMode ≠ 0#8 then setVector p.tmr vector else clearVector p.tmr vector }

/-- An end of interrupt for a vector in service: what is left, and whether the I/O APIC hears
of it. -/
def retire (vector : BitVec 8) : ApicVectors × Bool :=
  if getVector p.tmr vector then
    (serviceLocalApic { p with
      isr := clearVector p.isr vector
      tmr := clearVector p.tmr vector }, true)
  else (serviceLocalApic { p with isr := clearVector p.isr vector }, false)

def setTpr (priority : BitVec 8) : ApicVectors :=
  if priority.setWidth 32 < p.taskPriority then
    serviceLocalApic { p with taskPriority := priority.setWidth 32 }
  else { p with taskPriority := priority.setWidth 32 }

def untriggerIrq (vector : BitVec 8) : ApicVectors := { p with irr := clearVector p.irr vector }

end ApicVectors

/-! ## The timer -/

structure LocalApicTimerActivation where
  deadlineTicks : BitVec 64
  updateTicksInitial : Bool
  deriving DecidableEq, Repr

def saturatingAdd (x y : BitVec 64) : BitVec 64 := if x.uaddOverflow y then .allOnes 64 else x + y

def saturatingSub (x y : BitVec 64) : BitVec 64 := if x < y then 0#64 else x - y

structure ApicTimer where
  timerInitial : BitVec 32 := 0#32
  timerCurrent : BitVec 32 := 0#32
  ticksInitial : BitVec 64 := 0#64
  timerDivconf : BitVec 32 := 0#32
  timerDivideFactor : BitVec 32 := 1#32
  timerActive : Bool := false
  timerHandle : Option (BitVec 64) := none
  timerFired : Bool := false
  timerActivateRequest : Option LocalApicTimerActivation := none
  timerDeactivateRequest : Bool := false

/-- The factor that a divide configuration stands for. -/
def timerDivideFactorOf (divconf : BitVec 32) : BitVec 32 :=
  let combined := (divconf &&& 8#32) >>> 1 ||| divconf &&& 3#32
  if combined = 7#32 then 1#32 else 2#32 <<< combined

namespace ApicTimer

variable (t : ApicTimer)

/-- The initial count in ticks. -/
def period : BitVec 64 := t.timerInitial.setWidth 64 * t.timerDivideFactor.setWidth 64

def timerPeriodTicks : Option (BitVec 64) :=
  if t.timerActive ∧ t.timerInitial ≠ 0#32 then some t.period else none

/-- A running timer is stopped, and the scheduler told. -/
def stop : ApicTimer :=
  if t.timerActive then { t with timerActive := false, timerDeactivateRequest := true } else t

/-- What a change of the TSC-deadline bit does. -/
def disarm : ApicTimer := { t.stop with timerActivateRequest := none }

/-- Counting from the initial count, which is not zero on this path except in mode 3. -/
def start (currentTicks : BitVec 64) : ApicTimer :=
  { t with
    timerCurrent := t.timerInitial
    timerActive := true
    ticksInitial := currentTicks
    timerActivateRequest := some ⟨saturatingAdd currentTicks t.period, true⟩ }

def setInitialTimerCount (tscDeadline : Bool) (value : BitVec 32) (currentTicks : BitVec 64) :
    ApicTimer :=
  if tscDeadline then t
  else
    let stopped := { t.disarm with timerInitial := value, timerCurrent := 0#32 }
    if value ≠ 0#32 then stopped.start currentTicks else stopped

/-- The half of `periodic` behind the interrupt. -/
def reload (periodicMode : Bool) (currentTicks : BitVec 64) : ApicTimer :=
  if periodicMode then t.start currentTicks
  else { t with timerCurrent := 0#32, timerActive := false, timerDeactivateRequest := true }

def setTscDeadline (deadline : BitVec 64) : ApicTimer :=
  let stopped := { t.disarm with ticksInitial := deadline }
  if deadline ≠ 0#64 then
    { stopped with timerActive := true, timerActivateRequest := some ⟨deadline, false⟩ }
  else stopped

def setDivideConfiguration (value : BitVec 32) : ApicTimer :=
  { t with timerDivconf := value &&& 0xB#32, timerDivideFactor := timerDivideFactorOf (value &&& 0xB#32) }

/-- What the scheduler leaves of the requests once it has applied them. -/
def applyRequests : ApicTimer :=
  let cleared := { t with timerActivateRequest := none, timerDeactivateRequest := false }
  match t.timerActivateRequest with
  | some ⟨deadlineTicks, true⟩ =>
    { cleared with ticksInitial := saturatingSub deadlineTicks (t.timerPeriodTicks.getD 0#64) }
  | _ => cleared

end ApicTimer

/-! ## The device -/

inductive ApicMode
  | globallyDisabled
  | stateInvalid
  | xapicMode
  | x2apicMode
  deriving DecidableEq, Repr

def ApicMode.fromRaw (value : BitVec 64) : ApicMode :=
  match (value &&& 3#64).toNat with
  | 0 => .globallyDisabled
  | 1 => .stateInvalid
  | 2 => .xapicMode
  | _ => .x2apicMode

/-- What the topology and the CPU model fix. -/
structure ApicIdentity where
  xapic : Bool := true
  apicId : BitVec 32 := 0#32
  busCpuCount : BitVec 32 := 1#32
  apicVersionId : BitVec 32 := 0#32
  tscDeadlineSupported : Bool := false
  deriving DecidableEq, Repr

/-- The clock readings of the last synchronisation. -/
structure ApicClock where
  currentTicks : BitVec 64 := 0#64
  ticksAtSync : BitVec 64 := 0#64
  cpuTicksAtSync : BitVec 64 := 0#64
  deriving DecidableEq, Repr

/-- The VMX preemption timer and the MWAITX timer. -/
structure AuxiliaryTimers where
  vmxTimerHandle : Option (BitVec 64) := none
  vmxPreemptionTimerValue : BitVec 32 := 0#32
  vmxPreemptionTimerInitial : BitVec 64 := 0#64
  vmxPreemptionTimerFire : BitVec 64 := 0#64
  vmxPreemptionTimerRate : BitVec 32 := 0#32
  vmxTimerActive : Bool := false
  mwaitxTimerHandle : Option (BitVec 64) := none
  mwaitxTimerActive : Bool := false
  deriving DecidableEq, Repr

structure PendingIpi where
  dest : BitVec 32
  loCmd : BitVec 32
  shorthand : BitVec 8
  excludeSource : Bool
  accepted : Bool
  deriving DecidableEq, Repr

inductive LocalApicCpuEvent
  | smi
  | nmi
  | init
  | sipi (vector : BitVec 8)
  deriving DecidableEq, Repr

def pendingIpiCapacity : Nat := 256
def pendingCpuEventCapacity : Nat := 32
def lapicBaseAddr : BitVec 64 := 0xFEE00000#64
def apicErrRxIllegalVec : BitVec 32 := 0x40#32
def apicErrTxAcceptErr : BitVec 32 := 0x04#32
def apicVersionXapicExt : BitVec 32 := 0x80000000#32
def xapicExtSupportIer : BitVec 32 := 1#32
def xapicExtSupportSeoi : BitVec 32 := 2#32
def apicBusIdMask : BitVec 32 := 0xFF#32

/-- Entries of the local vector table: timer, thermal, perfmon, LINT0, LINT1, error, CMCI. -/
abbrev LvtIndex := Fin 7

def lvtTimer : LvtIndex := 0
def lvtLint0 : LvtIndex := 3
def lvtMasked : BitVec 32 := 0x10000#32
def lvtTimerPeriodic : BitVec 32 := 0x20000#32
def lvtTimerTscDeadline : BitVec 32 := 0x40000#32

def lvtMasks : LvtIndex → BitVec 32 :=
  ![0x000710FF#32, 0x000117FF#32, 0x000117FF#32, 0x0001F7FF#32, 0x0001F7FF#32, 0x000110FF#32,
    0x000117FF#32]

structure BxLocalApic where
  identity : ApicIdentity := {}
  baseAddr : BitVec 64 := lapicBaseAddr
  mode : ApicMode := .globallyDisabled
  xapicExt : BitVec 32 := 0#32
  softwareEnabled : Bool := false
  spuriousVector : BitVec 8 := 0xFF#8
  focusDisable : Bool := false
  ldr : BitVec 32 := 0#32
  destFormat : BitVec 32 := 0xF#32
  vectors : ApicVectors := {}
  errorStatus : BitVec 32 := 0#32
  shadowErrorStatus : BitVec 32 := 0#32
  icrHi : BitVec 32 := 0#32
  icrLo : BitVec 32 := 0#32
  lvt : LvtIndex → BitVec 32 := fun _ => lvtMasked
  timer : ApicTimer := {}
  clock : ApicClock := {}
  auxiliary : AuxiliaryTimers := {}
  pendingIpis : List PendingIpi := []
  pendingCpuEvents : List LocalApicCpuEvent := []
  pendingEoiVector : Option (BitVec 8) := none

namespace BxLocalApic

variable (s : BxLocalApic)

/-- What a write may find at an offset. -/
inductive Register
  | tpr
  | eoi
  | ldr
  | destinationFormat
  | spuriousVector
  | esr
  | icrLo
  | icrHi
  | lvt (entry : LvtIndex)
  | timerInitialCount
  | timerDivideCfg
  | extApicControl
  | specificEoi
  | ier (index : Fin 8)
  | readOnly
  | illegal
  deriving DecidableEq, Repr

def Register.ofOffset (offset : Nat) : Register :=
  match offset with
  | 0x080 => .tpr
  | 0x0B0 => .eoi
  | 0x0D0 => .ldr
  | 0x0E0 => .destinationFormat
  | 0x0F0 => .spuriousVector
  | 0x280 => .esr
  | 0x300 => .icrLo
  | 0x310 => .icrHi
  | 0x320 => .lvt 0
  | 0x330 => .lvt 1
  | 0x340 => .lvt 2
  | 0x350 => .lvt 3
  | 0x360 => .lvt 4
  | 0x370 => .lvt 5
  | 0x2F0 => .lvt 6
  | 0x380 => .timerInitialCount
  | 0x3E0 => .timerDivideCfg
  | 0x020 | 0x030 | 0x090 | 0x0C0 | 0x0A0 | 0x390 | 0x400 => .readOnly
  | 0x410 => .extApicControl
  | 0x420 => .specificEoi
  | offset =>
    -- the ISR, TMR and IRR words, and the IER words
    if 0x100 ≤ offset ∧ offset ≤ 0x270 then .readOnly
    else if 0x480 ≤ offset ∧ offset ≤ 0x4F0 then .ier (Fin.ofNat 8 ((offset - 0x480) / 16))
    else .illegal

def xapicExtSupported : Bool := s.identity.apicVersionId &&& apicVersionXapicExt != 0#32

variable (addr : BitVec 64) (vector : BitVec 8) (value : BitVec 32) (currentTicks : BitVec 64)

/-- The register at an address; the 0x400 block is there with the extensions only. -/
def decodeRegister : Register :=
  let offset := (addr &&& 0xFF0#64).toNat
  if 0x400 ≤ offset ∧ ¬ s.xapicExtSupported then .illegal else .ofOffset offset

def isSelected : Bool :=
  s.mode == .xapicMode && addr &&& ~~~0xFFF#64 == s.baseAddr

def apicIdMask : BitVec 32 := if s.identity.xapic then 0xFF#32 else 0x0F#32

/-- Whether the timer is armed through `IA32_TSC_DEADLINE`. -/
def tscDeadlineMode : Bool := s.lvt lvtTimer &&& lvtTimerTscDeadline != 0#32

/-! ### Delivery -/

def enqueuePendingIpi (ipi : PendingIpi) : BxLocalApic :=
  if s.pendingIpis.length = pendingIpiCapacity then
    { s with shadowErrorStatus := s.shadowErrorStatus ||| apicErrTxAcceptErr }
  else { s with pendingIpis := s.pendingIpis ++ [ipi] }

def enqueuePendingCpuEvent (event : LocalApicCpuEvent) : BxLocalApic :=
  if s.pendingCpuEvents.length = pendingCpuEventCapacity then
    { s with shadowErrorStatus := s.shadowErrorStatus ||| apicErrTxAcceptErr }
  else { s with pendingCpuEvents := s.pendingCpuEvents ++ [event] }

def recordTxAcceptError : BxLocalApic :=
  { s with shadowErrorStatus := s.shadowErrorStatus ||| apicErrTxAcceptErr }

def triggerIrq (triggerMode : BitVec 8) (bypassIrrIsr : Bool) : BxLocalApic :=
  if vector < 0x10#8 then
    { s with shadowErrorStatus := s.shadowErrorStatus ||| apicErrRxIllegalVec }
  else { s with vectors := s.vectors.accept vector triggerMode bypassIrrIsr }

/-- `deliver`. Modes 0 and 1 are fixed and lowest priority, 7 is ExtINT, 3 is reserved. -/
def deliver (deliveryMode trigMode : BitVec 8) : BxLocalApic × Bool :=
  match deliveryMode.toNat with
  | 0 | 1 => (s.triggerIrq vector trigMode false, true)
  | 2 => (s.enqueuePendingCpuEvent .smi, true)
  | 4 => (s.enqueuePendingCpuEvent .nmi, true)
  | 5 => (s.enqueuePendingCpuEvent .init, true)
  | 6 => (s.enqueuePendingCpuEvent (.sipi vector), true)
  | 7 => (s.triggerIrq vector trigMode true, true)
  | _ => (s, false)

def acknowledgeInt : BxLocalApic × BitVec 8 :=
  ({ s with vectors := s.vectors.acknowledge.1 }, s.vectors.acknowledge.2.getD s.spuriousVector)

def isFocus : Bool :=
  !s.focusDisable && (getVector s.vectors.irr vector || getVector s.vectors.isr vector)

def matchLogicalAddr (address : BitVec 32) : Bool :=
  if s.mode = .x2apicMode then
    if address = 0xFFFFFFFF#32 then true
    else if address &&& 0xFFFF0000#32 = s.ldr &&& 0xFFFF0000#32 then
      address &&& s.ldr &&& 0xFFFF#32 != 0#32
    else false
  else if address = 0xFF#32 then true
  else if s.destFormat = 0xF#32 then address &&& s.ldr != 0#32
  else if s.destFormat = 0#32 then
    if address &&& 0xF0#32 = s.ldr &&& 0xF0#32 then address &&& s.ldr &&& 0x0F#32 != 0#32
    else false
  else false

/-- An IPI to a logical destination. -/
def sendLogical (dest loCmd : BitVec 32) (vector deliveryMode trigMode : BitVec 8) : BxLocalApic :=
  let lowPriority := deliveryMode = 1#8
  if dest = 0#32 ∧ ¬ lowPriority then s.recordTxAcceptError
  else
    let localMatch := dest ≠ 0#32 ∧ s.matchLogicalAddr dest
    if s.identity.busCpuCount = 1#32 then
      if (¬ lowPriority ∧ localMatch) ∨
          (lowPriority ∧ ((¬ s.identity.xapic ∧ s.isFocus vector) ∨ localMatch)) then
        (s.deliver vector deliveryMode trigMode).1
      else s.recordTxAcceptError
    else
      let here := decide (localMatch ∧ ¬ lowPriority)
      let delivered := if here then (s.deliver vector deliveryMode trigMode).1 else s
      delivered.enqueuePendingIpi ⟨dest, loCmd, 0#8, here, here⟩

/-- An IPI to a physical destination. -/
def sendPhysical (dest loCmd : BitVec 32) (vector deliveryMode trigMode : BitVec 8) : BxLocalApic :=
  if deliveryMode = 1#8 then s.recordTxAcceptError
  else if dest &&& apicBusIdMask = apicBusIdMask then
    (s.deliver vector deliveryMode trigMode).1.enqueuePendingIpi ⟨dest, loCmd, 0#8, true, true⟩
  else if dest = s.identity.apicId then (s.deliver vector deliveryMode trigMode).1
  else if s.identity.busCpuCount ≤ dest then s.recordTxAcceptError
  else s.enqueuePendingIpi ⟨dest, loCmd, 0#8, false, false⟩

def sendIpi (dest loCmd : BitVec 32) : BxLocalApic :=
  let trigMode := (loCmd >>> 15 &&& 1#32).setWidth 8
  let level := loCmd >>> 14 &&& 1#32
  let deliveryMode := (loCmd >>> 8 &&& 7#32).setWidth 8
  let vector := (loCmd &&& 0xFF#32).setWidth 8
  let lowPriority := decide (deliveryMode = 1#8)
  -- INIT level deassert has no effect
  if deliveryMode = 5#8 ∧ level = 0#32 ∧ trigMode = 1#8 then s
  else
    match (loCmd >>> 18 &&& 3#32).toNat with
    | 0 =>
      if loCmd >>> 11 &&& 1#32 ≠ 0#32 then s.sendLogical dest loCmd vector deliveryMode trigMode
      else s.sendPhysical dest loCmd vector deliveryMode trigMode
    | 1 => s.triggerIrq vector trigMode false
    | 2 =>
      let delivered := if lowPriority then s else (s.deliver vector deliveryMode trigMode).1
      delivered.enqueuePendingIpi ⟨dest, loCmd, 2#8, !lowPriority, !lowPriority⟩
    | _ =>
      s.enqueuePendingIpi
        ⟨dest, loCmd, if lowPriority then 2#8 else 3#8, !lowPriority, !lowPriority⟩

/-! ### Registers -/

/-- An end of interrupt for `vector`, which is in service. -/
def retire : BxLocalApic :=
  { s with
    vectors := (s.vectors.retire vector).1
    pendingEoiVector := if (s.vectors.retire vector).2 then some vector else s.pendingEoiVector }

def receiveEoi : BxLocalApic :=
  match s.vectors.highestPriorityInt s.vectors.isr with
  | none => s
  | some vector => if vector = s.spuriousVector then s else s.retire vector

def receiveSeoi : BxLocalApic :=
  if s.xapicExt &&& xapicExtSupportSeoi = 0#32 then s
  else if getVector s.vectors.isr vector then s.retire vector
  else s

def writeSpuriousInterruptRegister : BxLocalApic :=
  let softwareEnabled := value >>> 8 &&& 1#32 != 0#32
  { s with
    spuriousVector :=
      if s.identity.xapic then (value &&& 0xFF#32).setWidth 8
      else (value &&& 0xF0#32 ||| 0x0F#32).setWidth 8
    softwareEnabled
    focusDisable := value >>> 9 &&& 1#32 != 0#32
    lvt := fun entry => if softwareEnabled then s.lvt entry else s.lvt entry ||| lvtMasked }

def setLvtEntry (entry : LvtIndex) (value : BitVec 32) : BxLocalApic :=
  let value :=
    if entry = lvtTimer ∧ ¬ s.identity.tscDeadlineSupported then value &&& ~~~lvtTimerTscDeadline
    else value
  let written := value &&& lvtMasks entry
  { s with
    timer :=
      if entry = lvtTimer ∧ (value ^^^ s.lvt entry) &&& lvtTimerTscDeadline ≠ 0#32 then
        s.timer.disarm
      else s.timer
    lvt := Function.update s.lvt entry
      (if s.softwareEnabled then written else written ||| lvtMasked) }

def writeRegister (register : Register) (value : BitVec 32) (currentTicks : BitVec 64) :
    BxLocalApic :=
  match register with
  | .tpr => { s with vectors := s.vectors.setTpr ((value &&& 0xFF#32).setWidth 8) }
  | .eoi => s.receiveEoi
  | .ldr => { s with ldr := value >>> 24 &&& s.apicIdMask }
  | .destinationFormat => { s with destFormat := value >>> 28 &&& 0xF#32 }
  | .spuriousVector => s.writeSpuriousInterruptRegister value
  | .esr => { s with errorStatus := s.shadowErrorStatus, shadowErrorStatus := 0#32 }
  | .icrLo =>
    let icrLo := value &&& ~~~(1#32 <<< 12)
    { s with icrLo }.sendIpi (s.icrHi >>> 24 &&& 0xFF#32) icrLo
  | .icrHi => { s with icrHi := value &&& 0xFF000000#32 }
  | .lvt entry => s.setLvtEntry entry value
  | .timerInitialCount =>
    { s with timer := s.timer.setInitialTimerCount s.tscDeadlineMode value currentTicks }
  | .timerDivideCfg => { s with timer := s.timer.setDivideConfiguration value }
  | .extApicControl =>
    { s with xapicExt := value &&& (xapicExtSupportIer ||| xapicExtSupportSeoi) }
  | .specificEoi => s.receiveSeoi ((value &&& 0xFF#32).setWidth 8)
  | .ier index =>
    if s.xapicExt &&& xapicExtSupportIer = 0#32 then s
    else { s with vectors := { s.vectors with ier := Function.update s.vectors.ier index value } }
  | .readOnly | .illegal => s

def writeAligned : BxLocalApic :=
  s.writeRegister (s.decodeRegister addr) value currentTicks

def write (len : Nat) (currentTicks : BitVec 64) : BxLocalApic :=
  if len ≠ 4 then s
  else if addr &&& 0xF#64 ≠ 0#64 then s
  else s.writeAligned addr value currentTicks

/-- `write_x2apic`: the state, and whether the write was accepted. -/
def writeX2apic (index : BitVec 32) (value currentTicks : BitVec 64) : BxLocalApic × Bool :=
  let valueHi := (value >>> 32).setWidth 32
  let valueLo := value.setWidth 32
  let aligned := (s.writeAligned (index.setWidth 64) valueLo currentTicks, true)
  if index ≠ 0x300#32 ∧ valueHi ≠ 0#32 then (s, false)
  else
    match index.toNat with
    | 0x300 => ({ s with icrLo := valueLo, icrHi := valueHi }.sendIpi valueHi valueLo, true)
    | 0x3F0 => (s.triggerIrq ((valueLo &&& 0xFF#32).setWidth 8) 0#8 false, true)
    | 0x080 => if valueLo &&& 0xFFFFFF00#32 ≠ 0#32 then (s, false) else aligned
    | 0x0F0 => if valueLo &&& 0xFFFFFE00#32 ≠ 0#32 then (s, false) else aligned
    | 0x0B0 | 0x280 => if valueLo ≠ 0#32 then (s, false) else aligned
    | 0x2F0 | 0x320 | 0x330 | 0x340 | 0x350 | 0x360 | 0x370 | 0x380 | 0x3E0 => aligned
    | _ => (s, false)

/-! ### The timer, the mode and reset -/

def periodic : BxLocalApic :=
  if !s.timer.timerActive then s
  else
    let timervec := s.lvt lvtTimer
    let triggered :=
      if timervec &&& lvtMasked = 0#32 then
        s.triggerIrq ((timervec &&& 0xFF#32).setWidth 8) 0#8 false
      else s
    { triggered with
      timer := triggered.timer.reload (timervec &&& lvtTimerPeriodic != 0#32) currentTicks }

def setTscDeadline (deadline : BitVec 64) : BxLocalApic :=
  if s.tscDeadlineMode then { s with timer := s.timer.setTscDeadline deadline } else s

/-- The logical x2APIC ID. -/
def logicalX2apicId (apicId : BitVec 32) : BitVec 32 :=
  (apicId &&& 0xFFFFFFF0#32) <<< 16 ||| 1#32 <<< (apicId &&& 0xF#32)

def setBase (newbase : BitVec 64) : BxLocalApic :=
  let mode := ApicMode.fromRaw (newbase >>> 10)
  let moved :=
    { s with
      mode
      baseAddr := newbase &&& ~~~0xFFF#64
      ldr := if mode = .x2apicMode then logicalX2apicId s.identity.apicId else s.ldr }
  if mode = .globallyDisabled then moved.writeSpuriousInterruptRegister 0xFF#32 else moved

def enableXapicExtensions : BxLocalApic :=
  { s with
    identity :=
      { s.identity with apicVersionId := s.identity.apicVersionId ||| apicVersionXapicExt }
    xapicExt := xapicExtSupportIer ||| xapicExtSupportSeoi }

/-- The LINT0 entry: the bootstrap processor has the legacy virtual wire. -/
def presetLint0 : BitVec 32 := if s.identity.apicId = 0#32 then 0x700#32 else lvtMasked

def reset : BxLocalApic :=
  { identity :=
      { s.identity with
        apicVersionId := if s.identity.xapic then 0x00050014#32 else 0x00030010#32 }
    mode := .xapicMode
    lvt := Function.update (fun _ => lvtMasked) lvtLint0 s.presetLint0
    timer := { timerHandle := s.timer.timerHandle, timerDeactivateRequest := true }
    clock := s.clock
    auxiliary := { s.auxiliary with vmxTimerActive := false, mwaitxTimerActive := false } }

end BxLocalApic

/-! ## Runs -/

inductive ApicOp
  | mmioWrite (addr : BitVec 64) (value : BitVec 32) (len : Nat) (currentTicks : BitVec 64)
  | x2apicWrite (index : BitVec 32) (value currentTicks : BitVec 64)
  | setBase (newbase : BitVec 64)
  | setTpr (priority : BitVec 8)
  | setTscDeadline (deadline : BitVec 64)
  | deliver (vector deliveryMode trigMode : BitVec 8)
  | triggerIrq (vector triggerMode : BitVec 8) (bypassIrrIsr : Bool)
  | untriggerIrq (vector : BitVec 8)
  | acknowledgeInt
  | timerFires
  | timerExpires (currentTicks : BitVec 64)
  | applyTimerRequests
  | takePendingIpi
  | takePendingCpuEvent
  | takePendingEoi
  | takeIntrPending
  | recordTxAcceptError
  | sync (clock : ApicClock)
  | enableXapicExtensions
  | reset

namespace BxLocalApic

/-- One operation. MMIO reaches the registers in xAPIC mode only, the MSRs in x2APIC mode only. -/
def step (s : BxLocalApic) : ApicOp → BxLocalApic
  | .mmioWrite addr value len currentTicks =>
    if s.isSelected addr then s.write addr value len currentTicks else s
  | .x2apicWrite index value currentTicks =>
    if s.mode = .x2apicMode then (s.writeX2apic index value currentTicks).1 else s
  | .setBase newbase => s.setBase newbase
  | .setTpr priority => { s with vectors := s.vectors.setTpr priority }
  | .setTscDeadline deadline => s.setTscDeadline deadline
  | .deliver vector deliveryMode trigMode => (s.deliver vector deliveryMode trigMode).1
  | .triggerIrq vector triggerMode bypassIrrIsr => s.triggerIrq vector triggerMode bypassIrrIsr
  | .untriggerIrq vector => { s with vectors := s.vectors.untriggerIrq vector }
  | .acknowledgeInt => s.acknowledgeInt.1
  | .timerFires => { s with timer := { s.timer with timerFired := true } }
  | .timerExpires currentTicks =>
    { s with timer := { s.timer with timerFired := false } }.periodic currentTicks
  | .applyTimerRequests => { s with timer := s.timer.applyRequests }
  | .takePendingIpi => { s with pendingIpis := s.pendingIpis.tail }
  | .takePendingCpuEvent => { s with pendingCpuEvents := s.pendingCpuEvents.tail }
  | .takePendingEoi => { s with pendingEoiVector := none }
  | .takeIntrPending => { s with vectors := { s.vectors with intrPending := false } }
  | .recordTxAcceptError => s.recordTxAcceptError
  | .sync clock => { s with clock }
  | .enableXapicExtensions => s.enableXapicExtensions
  | .reset => s.reset

def run (s : BxLocalApic) (ops : List ApicOp) : BxLocalApic := ops.foldl step s

end BxLocalApic

/-! ### What a step does to the vectors -/

/-- Everything an operation can do to the interrupt registers. -/
inductive VectorStep (p : ApicVectors) : ApicVectors → Prop
  | same : VectorStep p p
  | accept (vector triggerMode : BitVec 8) (bypassIrrIsr : Bool) (hvector : ¬ vector < 0x10#8) :
      VectorStep p (p.accept vector triggerMode bypassIrrIsr)
  | retire (vector : BitVec 8) : VectorStep p (p.retire vector).1
  | setTpr (priority : BitVec 8) : VectorStep p (p.setTpr priority)
  | untriggerIrq (vector : BitVec 8) : VectorStep p (p.untriggerIrq vector)
  | acknowledge : VectorStep p p.acknowledge.1
  | setIer (ier : VectorBits) : VectorStep p { p with ier }
  | takeIntrPending : VectorStep p { p with intrPending := false }
  | reset : VectorStep p {}

/-- What an interrupt or an IPI can do: the vectors move, and the two queues and the error
status with them. -/
structure BusStep (s t : BxLocalApic) : Prop where
  vectors : VectorStep s.vectors t.vectors
  events : s.pendingCpuEvents.length ≤ pendingCpuEventCapacity →
    t.pendingCpuEvents.length ≤ pendingCpuEventCapacity
  frame : t = { s with
    vectors := t.vectors
    shadowErrorStatus := t.shadowErrorStatus
    pendingIpis := t.pendingIpis
    pendingCpuEvents := t.pendingCpuEvents }

theorem BusStep.enqueuePendingIpi {s t : BxLocalApic} (h : BusStep s t) (ipi : PendingIpi) :
    BusStep s (t.enqueuePendingIpi ipi) := by
  obtain ⟨hvectors, hevents, hframe⟩ := h
  rw [hframe, BxLocalApic.enqueuePendingIpi]
  split <;> exact ⟨hvectors, hevents, rfl⟩

namespace BxLocalApic

variable (s : BxLocalApic)

theorem busStep_refl : BusStep s s := ⟨.same, fun h => h, rfl⟩

theorem busStep_recordTxAcceptError : BusStep s s.recordTxAcceptError := ⟨.same, fun h => h, rfl⟩

theorem busStep_enqueuePendingCpuEvent (event : LocalApicCpuEvent) :
    BusStep s (s.enqueuePendingCpuEvent event) := by
  rw [enqueuePendingCpuEvent]
  split
  · exact ⟨.same, fun h => h, rfl⟩
  next hroom =>
    refine ⟨.same, fun h => ?_, rfl⟩
    rw [List.length_append]
    exact Nat.lt_of_le_of_ne h hroom

theorem busStep_triggerIrq (vector triggerMode : BitVec 8) (bypassIrrIsr : Bool) :
    BusStep s (s.triggerIrq vector triggerMode bypassIrrIsr) := by
  rw [triggerIrq]
  split
  · exact ⟨.same, fun h => h, rfl⟩
  next hvector => exact ⟨.accept _ _ _ hvector, fun h => h, rfl⟩

theorem busStep_deliver (vector deliveryMode trigMode : BitVec 8) :
    BusStep s (s.deliver vector deliveryMode trigMode).1 := by
  rw [deliver]
  split
  · exact busStep_triggerIrq ..
  · exact busStep_triggerIrq ..
  iterate 4 exact busStep_enqueuePendingCpuEvent ..
  · exact busStep_triggerIrq ..
  · exact busStep_refl s

theorem busStep_sendLogical (dest loCmd : BitVec 32) (vector deliveryMode trigMode : BitVec 8) :
    BusStep s (s.sendLogical dest loCmd vector deliveryMode trigMode) := by
  rw [sendLogical]
  dsimp only
  split
  · exact busStep_recordTxAcceptError s
  split
  · split
    · exact busStep_deliver ..
    · exact busStep_recordTxAcceptError s
  · refine BusStep.enqueuePendingIpi ?_ _
    split
    · exact busStep_deliver ..
    · exact busStep_refl s

theorem busStep_sendPhysical (dest loCmd : BitVec 32) (vector deliveryMode trigMode : BitVec 8) :
    BusStep s (s.sendPhysical dest loCmd vector deliveryMode trigMode) := by
  rw [sendPhysical]
  split
  · exact busStep_recordTxAcceptError s
  split
  · exact (busStep_deliver ..).enqueuePendingIpi _
  split
  · exact busStep_deliver ..
  split
  · exact busStep_recordTxAcceptError s
  · exact (busStep_refl s).enqueuePendingIpi _

theorem busStep_sendIpi (dest loCmd : BitVec 32) : BusStep s (s.sendIpi dest loCmd) := by
  rw [sendIpi]
  split
  · exact busStep_refl s
  split
  · split
    · exact busStep_sendLogical ..
    · exact busStep_sendPhysical ..
  · exact busStep_triggerIrq ..
  · refine BusStep.enqueuePendingIpi ?_ _
    split
    · exact busStep_refl s
    · exact busStep_deliver ..
  · exact (busStep_refl s).enqueuePendingIpi _

/-! ### The registers behind a write -/

/-- The register that an MSR index below the extensions selects. -/
theorem decodeRegister_index {index : BitVec 32} {n : Nat} (hindex : index.toNat = n)
    (hn : n &&& 0xFF0 < 0x400) :
    s.decodeRegister (index.setWidth 64) = .ofOffset (n &&& 0xFF0) := by
  have hoffset : (index.setWidth 64 &&& 0xFF0#64).toNat = n &&& 0xFF0 := by
    rw [BitVec.toNat_and, BitVec.toNat_setWidth_of_le (by decide), hindex]
    rfl
  rw [decodeRegister, hoffset, if_neg fun h => absurd h.1 (Nat.not_le.mpr hn)]

/-- What a write through an MSR comes down to; the LDR is not among the registers it writes. -/
theorem writeX2apic_rule {P : BxLocalApic → Prop} {s : BxLocalApic} {currentTicks : BitVec 64}
    (hsame : P s)
    (hsend : ∀ icrLo icrHi, P ({ s with icrLo, icrHi }.sendIpi icrHi icrLo))
    (htrigger : ∀ vector, P (s.triggerIrq vector 0#8 false))
    (hwrite : ∀ register value, register ≠ .ldr → P (s.writeRegister register value currentTicks))
    (index : BitVec 32) (value : BitVec 64) : P (s.writeX2apic index value currentTicks).1 := by
  have haligned (n : Nat) (hindex : index.toNat = n)
      (hn : n &&& 0xFF0 < 0x400 ∧ Register.ofOffset (n &&& 0xFF0) ≠ .ldr) :
      P (s.writeAligned (index.setWidth 64) (value.setWidth 32) currentTicks) := by
    refine hwrite _ _ ?_
    rw [decodeRegister_index s hindex hn.1]
    exact hn.2
  rw [writeX2apic]
  repeat' split
  all_goals first
    | exact hsame
    | exact hsend _ _
    | exact htrigger _
    | exact haligned _ (by assumption) (by decide)

theorem vectorStep_writeRegister (register : Register) (value : BitVec 32)
    (currentTicks : BitVec 64) :
    VectorStep s.vectors (s.writeRegister register value currentTicks).vectors := by
  cases register with
  | tpr => exact .setTpr _
  | eoi =>
    rw [writeRegister, receiveEoi]
    split
    · exact .same
    · split
      · exact .same
      · exact .retire _
  | specificEoi =>
    rw [writeRegister, receiveSeoi]
    split
    · exact .same
    · split
      · exact .retire _
      · exact .same
  | icrLo => exact (busStep_sendIpi { s with icrLo := value &&& ~~~(1#32 <<< 12) } _ _).vectors
  | ier index =>
    rw [writeRegister]
    split
    · exact .same
    · exact .setIer _
  | _ => exact .same

theorem vectorStep_periodic (currentTicks : BitVec 64) :
    VectorStep s.vectors (s.periodic currentTicks).vectors := by
  rw [periodic]
  split
  · exact .same
  · show VectorStep s.vectors (BxLocalApic.vectors (if _ then _ else _))
    split
    · exact (busStep_triggerIrq ..).vectors
    · exact .same

/-- Every operation moves the interrupt registers in one of the ways of `VectorStep`. -/
theorem vectorStep_step (op : ApicOp) : VectorStep s.vectors (s.step op).vectors := by
  cases op with
  | mmioWrite addr value len currentTicks =>
    rw [step, write]
    repeat' split
    all_goals first
      | exact .same
      | exact vectorStep_writeRegister ..
  | x2apicWrite index value currentTicks =>
    rw [step]
    split
    · exact writeX2apic_rule (P := fun t => VectorStep s.vectors t.vectors) .same
        (fun icrLo icrHi => (busStep_sendIpi { s with icrLo, icrHi } _ _).vectors)
        (fun _ => (busStep_triggerIrq ..).vectors) (fun _ _ _ => vectorStep_writeRegister ..) _ _
    · exact .same
  | setBase newbase =>
    rw [step, setBase]
    split <;> exact .same
  | setTscDeadline deadline =>
    rw [step, setTscDeadline]
    split <;> exact .same
  | setTpr priority => exact .setTpr priority
  | deliver vector deliveryMode trigMode => exact (busStep_deliver ..).vectors
  | triggerIrq vector triggerMode bypassIrrIsr => exact (busStep_triggerIrq ..).vectors
  | untriggerIrq vector => exact .untriggerIrq vector
  | acknowledgeInt => exact .acknowledge
  | timerExpires currentTicks =>
    exact vectorStep_periodic { s with timer := { s.timer with timerFired := false } } currentTicks
  | takeIntrPending => exact .takeIntrPending
  | reset => exact .reset
  | _ => exact .same

end BxLocalApic

end RustyBox
