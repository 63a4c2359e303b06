-- SUMMARY: Saving and restoring the local APIC, and the mode change after which it cannot be restored.
import RustyBox.Irq.LocalApicPriority
import RustyBox.PcSystem.Restore

/-!
# Snapshots of the local APIC

`save` validates nothing but the shape of the queues; `restore` refuses a state that breaks one of
its rules. All the rules but one are invariants of whatever the guest, the bus and the scheduler
do. The exception is the LDR: in x2APIC mode it holds the 32-bit logical ID, which `setBase`
leaves there when the guest goes back to another mode, and outside x2APIC mode `restore` takes
eight bits only.
-/

namespace RustyBox

open Lib List Positions

/-! ## The byte stream -/

def ApicMode.code : ApicMode → BitVec 8
  | .globallyDisabled => 0#8
  | .stateInvalid => 1#8
  | .xapicMode => 2#8
  | .x2apicMode => 3#8

def vectorBytes (reg : VectorBits) : List UInt8 :=
  ((finRange 8).map fun i => wordBytes (reg i)).flatten

def ipiBytes (ipi : PendingIpi) : List UInt8 :=
  wordBytes ipi.dest ++ wordBytes ipi.loCmd ++ wordBytes ipi.shorthand ++
    boolByte ipi.excludeSource ++ boolByte ipi.accepted

def cpuEventBytes : LocalApicCpuEvent → List UInt8
  | .smi => leBytes 1 0
  | .nmi => leBytes 1 1
  | .init => leBytes 1 2
  | .sipi vector => leBytes 1 3 ++ wordBytes vector

def eoiBytes : Option (BitVec 8) → List UInt8
  | none => boolByte false
  | some vector => boolByte true ++ wordBytes vector

def activationBytes : Option LocalApicTimerActivation → List UInt8
  | none => boolByte false
  | some request =>
    boolByte true ++ wordBytes request.deadlineTicks ++ boolByte request.updateTicksInitial

namespace BxLocalApic

variable (s : BxLocalApic)

/-- From the base address to the task priority. -/
def setupBytes : List UInt8 :=
  wordBytes s.baseAddr ++ wordBytes s.mode.code ++ boolByte s.identity.xapic ++
    wordBytes s.xapicExt ++ wordBytes s.identity.apicId ++ wordBytes s.identity.busCpuCount ++
    wordBytes s.identity.apicVersionId ++ boolByte s.softwareEnabled ++
    wordBytes s.spuriousVector ++ boolByte s.focusDisable ++ wordBytes s.vectors.taskPriority

def logicalBytes : List UInt8 := wordBytes s.ldr ++ wordBytes s.destFormat

/-- The four 256-bit registers, the command and error registers, and the local vector table. -/
def registerBytes : List UInt8 :=
  vectorBytes s.vectors.isr ++ vectorBytes s.vectors.tmr ++ vectorBytes s.vectors.irr ++
    vectorBytes s.vectors.ier ++ wordBytes s.errorStatus ++ wordBytes s.shadowErrorStatus ++
    wordBytes s.icrHi ++ wordBytes s.icrLo ++
    ((finRange 7).map fun i => wordBytes (s.lvt i)).flatten

/-- From the initial count to the handle of the timer. -/
def timerBytes : List UInt8 :=
  wordBytes s.timer.timerInitial ++ wordBytes s.timer.timerCurrent ++
    wordBytes s.timer.ticksInitial ++ wordBytes s.clock.currentTicks ++
    wordBytes s.clock.ticksAtSync ++ wordBytes s.clock.cpuTicksAtSync ++
    boolByte s.vectors.intrPending ++ wordBytes s.timer.timerDivconf ++
    wordBytes s.timer.timerDivideFactor ++ boolByte s.identity.tscDeadlineSupported ++
    boolByte s.timer.timerActive ++ snapshotHandleBytes s.timer.timerHandle

/-- From the handle of the VMX timer to the interrupt line. -/
def auxiliaryBytes : List UInt8 :=
  snapshotHandleBytes s.auxiliary.vmxTimerHandle ++
    wordBytes s.auxiliary.vmxPreemptionTimerValue ++
    wordBytes s.auxiliary.vmxPreemptionTimerInitial ++
    wordBytes s.auxiliary.vmxPreemptionTimerFire ++
    wordBytes s.auxiliary.vmxPreemptionTimerRate ++ boolByte s.auxiliary.vmxTimerActive ++
    snapshotHandleBytes s.auxiliary.mwaitxTimerHandle ++
    boolByte s.auxiliary.mwaitxTimerActive ++ boolByte s.vectors.intr

/-- The queues and the requests. -/
def queueBytes : List UInt8 :=
  leBytes 4 s.pendingIpis.length ++ (s.pendingIpis.map ipiBytes).flatten ++
    leBytes 4 s.pendingCpuEvents.length ++ (s.pendingCpuEvents.map cpuEventBytes).flatten ++
    eoiBytes s.pendingEoiVector ++ boolByte s.timer.timerFired ++
    activationBytes s.timer.timerActivateRequest ++ boolByte s.timer.timerDeactivateRequest

def savedBytes : List UInt8 :=
  s.setupBytes ++ s.logicalBytes ++ s.registerBytes ++ s.timerBytes ++ s.auxiliaryBytes ++
    s.queueBytes

def snapshotV3BodyLen : Except SnapFailure Nat := do
  failIf (pendingIpiCapacity < s.pendingIpis.length ∨
      pendingCpuEventCapacity < s.pendingCpuEvents.length)
    (snapshotInvalid "LAPIC FIFO shape is invalid")
  let handles := [s.timer.timerHandle, s.auxiliary.vmxTimerHandle, s.auxiliary.mwaitxTimerHandle]
  let len ← handles.foldlM
    (fun len handle => checkedSnapshotLenAdd len (if handle.isSome then 9 else 1)) 264
  let len ← checkedSnapshotLenAdd len 31
  let ipis ← checkedSnapshotLenMul s.pendingIpis.length 11
  let len ← checkedSnapshotLenAdd len ipis
  let len ← checkedSnapshotLenAdd len 4
  let len ← s.pendingCpuEvents.foldlM
    (fun len event => checkedSnapshotLenAdd len (cpuEventBytes event).length) len
  let len ← checkedSnapshotLenAdd len (if s.pendingEoiVector.isSome then 2 else 1)
  let len ← checkedSnapshotLenAdd len 1
  let len ← checkedSnapshotLenAdd len (if s.timer.timerActivateRequest.isSome then 10 else 1)
  checkedSnapshotLenAdd len 1

def saveSnapshotV3Body : Except SnapFailure (List UInt8) := do
  let _ ← s.snapshotV3BodyLen
  failIf (u32Max < s.pendingIpis.length) (snapshotInvalid "LAPIC IPI count overflows")
  failIf (u32Max < s.pendingCpuEvents.length) (snapshotInvalid "LAPIC CPU-control count overflows")
  .ok s.savedBytes

end BxLocalApic

/-! ## Reading -/

section

variable {σ : Type}

def readSnapshotMode : Nat → Except SnapFailure ApicMode
  | 0 => .ok .globallyDisabled
  | 1 => .ok .stateInvalid
  | 2 => .ok .xapicMode
  | 3 => .ok .x2apicMode
  | _ => .error (snapshotInvalid "LAPIC mode is invalid")

def readVectorBits : SnapRead σ VectorBits := do
  let words ← each (fun _ => readWord 32) (finRange 8)
  pure fun i => words.getD i 0#32

/-- An LVT entry, which holds no bit outside the entry's write mask. -/
def readLvtEntry (index : LvtIndex) : SnapRead σ (BitVec 32) := do
  let raw ← readWord 32
  refuseIf (raw &&& ~~~lvtMasks index ≠ 0#32)
    (snapshotInvalid "LAPIC LVT has invalid reserved state")
  pure raw

def readLvt : SnapRead σ (LvtIndex → BitVec 32) := do
  let entries ← each readLvtEntry (finRange 7)
  pure fun i => entries.getD i 0#32

def validateSnapshotIpi (ipi : PendingIpi) (busCpuCount : BitVec 32) : Except SnapFailure Unit := do
  let wireShorthand := (ipi.loCmd >>> 18 &&& 3#32).setWidth 8
  failIf (3#8 < ipi.shorthand ∨ ipi.loCmd >>> 8 &&& 7#32 = 3#32 ∨
      (ipi.shorthand ≠ wireShorthand ∧ ¬ (wireShorthand = 3#8 ∧ ipi.shorthand = 2#8)))
    (snapshotInvalid "LAPIC pending IPI encoding is invalid")
  failIf (wireShorthand = 0#8 ∧ ipi.loCmd >>> 11 &&& 1#32 = 0#32 ∧
      ipi.dest &&& apicBusIdMask ≠ apicBusIdMask ∧ busCpuCount ≤ ipi.dest)
    (snapshotInvalid "LAPIC pending IPI destination is invalid")

def readIpi (busCpuCount : BitVec 32) : SnapRead σ PendingIpi := do
  let dest ← readWord 32
  let loCmd ← readWord 32
  let shorthand ← readWord 8
  let excludeSource ← readBool
  let accepted ← readBool
  let ipi : PendingIpi := ⟨dest, loCmd, shorthand, excludeSource, accepted⟩
  fromExcept (validateSnapshotIpi ipi busCpuCount)
  pure ipi

def readCpuEvent : SnapRead σ LocalApicCpuEvent := do
  let tag ← readU8
  match tag with
  | 0 => pure .smi
  | 1 => pure .nmi
  | 2 => pure .init
  | 3 => do
    let vector ← readWord 8
    pure (.sipi vector)
  | _ => fromExcept (.error (snapshotInvalid "LAPIC CPU-control event tag is invalid"))

def readEoi : SnapRead σ (Option (BitVec 8)) := do
  let present ← readBool
  if present then do
    let vector ← readWord 8
    pure (some vector)
  else pure none

def readActivation : SnapRead σ (Option LocalApicTimerActivation) := do
  let present ← readBool
  if present then do
    let deadlineTicks ← readWord 64
    let updateTicksInitial ← readBool
    pure (some ⟨deadlineTicks, updateTicksInitial⟩)
  else pure none

/-! The body is read in six parts. Each takes the device as read so far and returns it with its
own fields read. -/

variable (s : BxLocalApic)

def readSetup : SnapRead σ BxLocalApic := do
  let baseAddr ← readWord 64
  refuseIf (baseAddr &&& 0xFFF#64 ≠ 0#64) (snapshotInvalid "LAPIC base is not page aligned")
  let mode ← readWord 8
  let mode ← fromExcept (readSnapshotMode mode.toNat)
  let xapic ← readBool
  refuseIf (xapic ≠ s.identity.xapic) (snapshotInvalid "LAPIC xAPIC capability mismatch")
  let xapicExt ← readWord 32
  refuseIf (xapicExt &&& ~~~(xapicExtSupportIer ||| xapicExtSupportSeoi) ≠ 0#32)
    (snapshotInvalid "LAPIC xAPIC extensions are invalid")
  let apicId ← readWord 32
  refuseIf (apicId ≠ s.identity.apicId) (snapshotInvalid "LAPIC APIC ID mismatch")
  let busCpuCount ← readWord 32
  refuseIf (busCpuCount = 0#32 ∨ busCpuCount ≠ s.identity.busCpuCount)
    (snapshotInvalid "LAPIC CPU topology mismatch")
  let apicVersionId ← readWord 32
  refuseIf (apicVersionId ≠ s.identity.apicVersionId)
    (snapshotInvalid "LAPIC version capability mismatch")
  let softwareEnabled ← readBool
  let spuriousVector ← readWord 8
  refuseIf (¬ s.identity.xapic ∧ spuriousVector &&& 0x0F#8 ≠ 0x0F#8)
    (snapshotInvalid "legacy LAPIC spurious vector is invalid")
  let focusDisable ← readBool
  let taskPriority ← readWord 32
  refuseIf (taskPriority &&& ~~~0xFF#32 ≠ 0#32) (snapshotInvalid "LAPIC TPR has reserved bits")
  pure { s with
    baseAddr, mode, xapicExt, softwareEnabled, spuriousVector, focusDisable
    vectors := { s.vectors with taskPriority } }

def readLogical : SnapRead σ BxLocalApic := do
  let ldr ← readWord 32
  refuseIf (s.mode ≠ .x2apicMode ∧ ldr &&& ~~~s.apicIdMask ≠ 0#32)
    (snapshotInvalid "LAPIC LDR has reserved bits")
  let destFormat ← readWord 32
  refuseIf (destFormat &&& ~~~0x0F#32 ≠ 0#32) (snapshotInvalid "LAPIC DFR has reserved bits")
  pure { s with ldr, destFormat }

/-- A vector below 0x10 in one of the registers. -/
def HasLowVector (reg : VectorBits) : Prop := reg 0 &&& 0xFFFF#32 ≠ 0#32

instance (reg : VectorBits) : Decidable (HasLowVector reg) := inferInstanceAs (Decidable (_ ≠ _))

def readRegisters : SnapRead σ BxLocalApic := do
  let isr ← readVectorBits
  let tmr ← readVectorBits
  let irr ← readVectorBits
  let ier ← readVectorBits
  refuseIf (HasLowVector isr ∨ HasLowVector tmr ∨ HasLowVector irr)
    (snapshotInvalid "LAPIC interrupt registers contain reserved low vectors")
  let errorStatus ← readWord 32
  let shadowErrorStatus ← readWord 32
  let icrHi ← readWord 32
  let icrLo ← readWord 32
  let lvt ← readLvt
  pure { s with
    errorStatus, shadowErrorStatus, icrHi, icrLo, lvt
    vectors := { s.vectors with isr, tmr, irr, ier } }

/-- A divide configuration with a factor that is not its own. -/
def DivisorInvalid (timerDivconf timerDivideFactor : BitVec 32) : Prop :=
  timerDivconf &&& ~~~0x0B#32 ≠ 0#32 ∨
    (¬ (timerDivconf = 0#32 ∧ timerDivideFactor = 1#32) ∧
      timerDivideFactor ≠ timerDivideFactorOf timerDivconf)

instance (x y : BitVec 32) : Decidable (DivisorInvalid x y) := inferInstanceAs (Decidable (_ ∨ _))

def readTimerState : SnapRead σ BxLocalApic := do
  let timerInitial ← readWord 32
  let timerCurrent ← readWord 32
  let ticksInitial ← readWord 64
  let currentTicks ← readWord 64
  let ticksAtSync ← readWord 64
  let cpuTicksAtSync ← readWord 64
  let intrPending ← readBool
  let timerDivconf ← readWord 32
  let timerDivideFactor ← readWord 32
  refuseIf (DivisorInvalid timerDivconf timerDivideFactor)
    (snapshotInvalid "LAPIC timer divisor is invalid")
  let tscDeadlineSupported ← readBool
  refuseIf (tscDeadlineSupported ≠ s.identity.tscDeadlineSupported)
    (snapshotInvalid "LAPIC TSC deadline capability mismatch")
  refuseIf (¬ s.identity.tscDeadlineSupported ∧ s.tscDeadlineMode)
    (snapshotInvalid "LAPIC timer selects TSC-deadline mode the CPU does not support")
  let timerActive ← readBool
  let timerHandle ← readSnapshotHandle
  pure { s with
    timer := { s.timer with
      timerInitial, timerCurrent, ticksInitial, timerDivconf, timerDivideFactor, timerActive
      timerHandle }
    clock := ⟨currentTicks, ticksAtSync, cpuTicksAtSync⟩
    vectors := { s.vectors with intrPending } }

def readAuxiliary : SnapRead σ BxLocalApic := do
  let vmxTimerHandle ← readSnapshotHandle
  let vmxPreemptionTimerValue ← readWord 32
  let vmxPreemptionTimerInitial ← readWord 64
  let vmxPreemptionTimerFire ← readWord 64
  let vmxPreemptionTimerRate ← readWord 32
  refuseIf (64#32 ≤ vmxPreemptionTimerRate) (snapshotInvalid "LAPIC VMX timer rate is invalid")
  let vmxTimerActive ← readBool
  let mwaitxTimerHandle ← readSnapshotHandle
  let mwaitxTimerActive ← readBool
  let intr ← readBool
  pure { s with
    auxiliary :=
      { vmxTimerHandle, vmxPreemptionTimerValue, vmxPreemptionTimerInitial, vmxPreemptionTimerFire,
        vmxPreemptionTimerRate, vmxTimerActive, mwaitxTimerHandle, mwaitxTimerActive }
    vectors := { s.vectors with intr } }

def readQueues : SnapRead σ BxLocalApic := do
  let pendingIpiLen ← readCount (min pendingIpiCapacity (2 ^ 16))
  let pendingIpis ← times (readIpi s.identity.busCpuCount) pendingIpiLen
  let pendingCpuEventLen ← readCount (min pendingCpuEventCapacity (2 ^ 16))
  let pendingCpuEvents ← times readCpuEvent pendingCpuEventLen
  let pendingEoiVector ← readEoi
  refuseIf (∃ vector ∈ pendingEoiVector, vector < 0x10#8)
    (snapshotInvalid "LAPIC pending EOI contains a reserved low vector")
  let timerFired ← readBool
  let timerActivateRequest ← readActivation
  let timerDeactivateRequest ← readBool
  pure { s with
    pendingIpis, pendingCpuEvents, pendingEoiVector
    timer := { s.timer with timerFired, timerActivateRequest, timerDeactivateRequest } }

end

namespace BxLocalApic

variable (s : BxLocalApic)

/-- The rules for a timer that is to be activated. -/
def validateActivation (request : LocalApicTimerActivation) : Except SnapFailure Unit := do
  failIf (¬ s.timer.timerActive) (snapshotInvalid "LAPIC activation request has no active timer")
  if request.updateTicksInitial then
    failIf (request.deadlineTicks ≠ saturatingAdd s.timer.ticksInitial s.timer.period ∨
        (s.timer.timerInitial = 0#32 ∧ ¬ s.tscDeadlineMode))
      (snapshotInvalid "LAPIC timer activation disagrees with its programming epoch")
  else
    failIf (¬ s.tscDeadlineMode ∨ request.deadlineTicks = 0#64 ∨
        request.deadlineTicks ≠ s.timer.ticksInitial)
      (snapshotInvalid "LAPIC TSC-deadline activation is incoherent")

/-- The rules for a running VMX preemption timer. -/
def validateVmxTimer : Except SnapFailure Unit := do
  let rate := s.auxiliary.vmxPreemptionTimerRate
  let start := s.auxiliary.vmxPreemptionTimerInitial >>> rate
  let value := s.auxiliary.vmxPreemptionTimerValue.setWidth 64
  failIf (start.uaddOverflow value ∨ 64#32 ≤ rate)
    (snapshotInvalid "LAPIC VMX timer epoch overflows")
  failIf (s.auxiliary.vmxPreemptionTimerFire ≠ (start + value) <<< rate)
    (snapshotInvalid "LAPIC VMX timer fire epoch is invalid")

/-- A running timer without a scheduler slot or a count, or a count above the initial one. -/
def TimerInconsistent : Prop :=
  (s.timer.timerActive ∧
      (s.timer.timerHandle = none ∨ (s.timer.timerInitial = 0#32 ∧ ¬ s.tscDeadlineMode))) ∨
    s.auxiliary.mwaitxTimerActive ∨
    (s.timer.timerInitial < s.timer.timerCurrent ∧ ¬ s.tscDeadlineMode)

instance : Decidable s.TimerInconsistent := inferInstanceAs (Decidable (_ ∨ _))

/-- The rules checked behind the last field. -/
def validateTimers : Except SnapFailure Unit := do
  failIf (s.auxiliary.vmxTimerHandle.isSome ∨ s.auxiliary.mwaitxTimerHandle.isSome)
    (snapshotInvalid "LAPIC auxiliary timer has no registered scheduler owner")
  failIf (s.timer.timerActivateRequest.isSome ∧ s.timer.timerDeactivateRequest)
    (snapshotInvalid "LAPIC timer cannot activate and deactivate simultaneously")
  s.timer.timerActivateRequest.forM s.validateActivation
  failIf s.TimerInconsistent (snapshotInvalid "LAPIC timer state is inconsistent")
  if s.auxiliary.vmxTimerActive then s.validateVmxTimer else .ok ()

end BxLocalApic

def readLocalApic : SnapRead BxLocalApic BxLocalApic := do
  let s ← live
  let s ← readSetup s
  let s ← readLogical s
  let s ← readRegisters s
  let s ← readTimerState s
  let s ← readAuxiliary s
  let s ← readQueues s
  fromExcept s.validateTimers
  pure s

/-- The handles whose owners are checked once the scheduler is restored. -/
structure LocalApicSnapshotRestore where
  timerHandle : Option (BitVec 64)
  vmxTimerHandle : Option (BitVec 64)
  mwaitxTimerHandle : Option (BitVec 64)
  deriving DecidableEq, Repr

def BxLocalApic.snapshotHandles (s : BxLocalApic) : LocalApicSnapshotRestore :=
  ⟨s.timer.timerHandle, s.auxiliary.vmxTimerHandle, s.auxiliary.mwaitxTimerHandle⟩

def BxLocalApic.restoreSnapshotV3Body : SnapRead BxLocalApic LocalApicSnapshotRestore := do
  restoring readLocalApic fun restored _ => restored
  let s ← live
  pure s.snapshotHandles

/-! ## Round trips of the parts -/

section

variable {σ : Type} {self : σ}

theorem readSnapshotMode_code (mode : ApicMode) : readSnapshotMode mode.code.toNat = .ok mode := by
  cases mode <;> rfl

theorem decodes_readEoi (vector : Option (BitVec 8)) :
    Decodes readEoi self (eoiBytes vector) vector := by
  cases vector with
  | none => exact (decodes_readBool _).bind_last (Decodes.pure none)
  | some vector => exact (decodes_readBool _).bind ((decodes_readWord vector).map some)

theorem decodes_readActivation (request : Option LocalApicTimerActivation) :
    Decodes readActivation self (activationBytes request) request := by
  cases request with
  | none => exact (decodes_readBool _).bind_last (Decodes.pure none)
  | some request =>
    refine (decodes_readBool _).bind ((decodes_readWord _).bind ?_)
    exact (decodes_readBool _).bind_last (Decodes.pure (some request))

theorem decodes_readVectorBits (reg : VectorBits) :
    Decodes readVectorBits self (vectorBytes reg) reg := by
  have hword (i : Fin 8) : Decodes (readWord 32) self (wordBytes (reg i)) (reg i) :=
    decodes_readWord (reg i)
  have hread := (decodes_each hword (finRange 8)).map
    fun words (i : Fin 8) => words.getD i 0#32
  have hwords : (fun i : Fin 8 => ((finRange 8).map reg).getD i 0#32) = reg :=
    funext fun i => getD_finRange_map reg _ i
  rwa [hwords] at hread

theorem decodes_readLvt {lvt : LvtIndex → BitVec 32} (h : ∀ i, lvt i &&& ~~~lvtMasks i = 0#32) :
    Decodes readLvt self ((finRange 7).map fun i => wordBytes (lvt i)).flatten lvt := by
  have hentry (i : LvtIndex) : Decodes (readLvtEntry i) self (wordBytes (lvt i)) (lvt i) :=
    (decodes_readWord _).bind_last
      (.check (not_not.mpr (h i)) (Decodes.pure (lvt i)))
  have hread := (decodes_each hentry (finRange 7)).map
    fun words (i : LvtIndex) => words.getD i 0#32
  have hwords : (fun i : LvtIndex => ((finRange 7).map lvt).getD i 0#32) = lvt :=
    funext fun i => getD_finRange_map lvt _ i
  rwa [hwords] at hread

theorem decodes_readIpi {ipi : PendingIpi} {busCpuCount : BitVec 32}
    (h : validateSnapshotIpi ipi busCpuCount = .ok ()) :
    Decodes (readIpi busCpuCount) self (ipiBytes ipi) ipi := by
  iterate 3 refine (decodes_readWord _).bind ?_
  refine (decodes_readBool _).bind ((decodes_readBool _).bind_last ?_)
  exact (decodes_fromExcept h).bind_nil (Decodes.pure ipi)

theorem decodes_readCpuEvent (event : LocalApicCpuEvent) :
    Decodes readCpuEvent self (cpuEventBytes event) event := by
  cases event with
  | smi | nmi | init => exact (decodes_readLe (by decide)).bind_last (Decodes.pure _)
  | sipi vector =>
    exact (decodes_readLe (by decide)).bind ((decodes_readWord vector).map LocalApicCpuEvent.sipi)

end

namespace BxLocalApic

variable {s t : BxLocalApic} {σ : Type} {self : σ}

/-! What each part replaces in the device that is restored. -/

def withSetup (t s : BxLocalApic) : BxLocalApic :=
  { t with
    baseAddr := s.baseAddr
    mode := s.mode
    xapicExt := s.xapicExt
    softwareEnabled := s.softwareEnabled
    spuriousVector := s.spuriousVector
    focusDisable := s.focusDisable
    vectors := { t.vectors with taskPriority := s.vectors.taskPriority } }

def withLogical (t s : BxLocalApic) : BxLocalApic :=
  { t with ldr := s.ldr, destFormat := s.destFormat }

def withRegisters (t s : BxLocalApic) : BxLocalApic :=
  { t with
    errorStatus := s.errorStatus
    shadowErrorStatus := s.shadowErrorStatus
    icrHi := s.icrHi
    icrLo := s.icrLo
    lvt := s.lvt
    vectors := { t.vectors with
      isr := s.vectors.isr
      tmr := s.vectors.tmr
      irr := s.vectors.irr
      ier := s.vectors.ier } }

def withTimerState (t s : BxLocalApic) : BxLocalApic :=
  { t with
    timer := { t.timer with
      timerInitial := s.timer.timerInitial
      timerCurrent := s.timer.timerCurrent
      ticksInitial := s.timer.ticksInitial
      timerDivconf := s.timer.timerDivconf
      timerDivideFactor := s.timer.timerDivideFactor
      timerActive := s.timer.timerActive
      timerHandle := s.timer.timerHandle }
    clock := s.clock
    vectors := { t.vectors with intrPending := s.vectors.intrPending } }

def withAuxiliary (t s : BxLocalApic) : BxLocalApic :=
  { t with auxiliary := s.auxiliary, vectors := { t.vectors with intr := s.vectors.intr } }

def withQueues (t s : BxLocalApic) : BxLocalApic :=
  { t with
    pendingIpis := s.pendingIpis
    pendingCpuEvents := s.pendingCpuEvents
    pendingEoiVector := s.pendingEoiVector
    timer := { t.timer with
      timerFired := s.timer.timerFired
      timerActivateRequest := s.timer.timerActivateRequest
      timerDeactivateRequest := s.timer.timerDeactivateRequest } }

theorem with_all (hid : t.identity = s.identity) :
    (((((t.withSetup s).withLogical s).withRegisters s).withTimerState s).withAuxiliary s).withQueues s
      = s := by
  show { s with identity := t.identity } = s
  rw [hid]

/-- The rules for single registers. -/
structure RegistersLegal (s : BxLocalApic) : Prop where
  baseAddr : s.baseAddr &&& 0xFFF#64 = 0#64
  xapic : s.identity.xapic = true
  xapicExt : s.xapicExt &&& ~~~(xapicExtSupportIer ||| xapicExtSupportSeoi) = 0#32
  busCpuCount : s.identity.busCpuCount ≠ 0#32
  destFormat : s.destFormat &&& ~~~0x0F#32 = 0#32
  lvt : ∀ i, s.lvt i &&& ~~~lvtMasks i = 0#32
  tscDeadline : s.tscDeadlineMode → s.identity.tscDeadlineSupported
  cpuEvents : s.pendingCpuEvents.length ≤ pendingCpuEventCapacity
  eoi : ∀ vector ∈ s.pendingEoiVector, ¬ vector < 0x10#8

/-- The rules of `restore` but for the LDR's. -/
structure Coherent (s : BxLocalApic) : Prop extends s.RegistersLegal where
  taskPriority : s.vectors.taskPriority &&& ~~~0xFF#32 = 0#32
  isr : ¬ HasLowVector s.vectors.isr
  tmr : ¬ HasLowVector s.vectors.tmr
  irr : ¬ HasLowVector s.vectors.irr
  divisor : ¬ DivisorInvalid s.timer.timerDivconf s.timer.timerDivideFactor
  vmxRate : ¬ 64#32 ≤ s.auxiliary.vmxPreemptionTimerRate
  ipis : s.pendingIpis.length ≤ pendingIpiCapacity ∧
    ∀ ipi ∈ s.pendingIpis, validateSnapshotIpi ipi s.identity.busCpuCount = .ok ()
  timers : s.validateTimers = .ok ()

/-- Outside x2APIC mode the LDR holds no more than the width of an APIC ID. -/
def LdrOk (s : BxLocalApic) : Prop := s.mode ≠ .x2apicMode → s.ldr &&& ~~~s.apicIdMask = 0#32

theorem decodes_readSetup (hid : t.identity = s.identity) (h : s.Coherent) :
    Decodes (readSetup t) self s.setupBytes (t.withSetup s) := by
  refine (decodes_readWord _).bind ?_
  refine .check (not_not.mpr h.baseAddr) ?_
  refine (decodes_readWord _).bind ?_
  refine (decodes_fromExcept (readSnapshotMode_code s.mode)).bind_nil ?_
  refine (decodes_readBool _).bind (.check (by rw [hid]; exact not_not.mpr rfl) ?_)
  refine (decodes_readWord _).bind ?_
  refine .check (not_not.mpr h.xapicExt) ?_
  refine (decodes_readWord _).bind ?_
  refine .check (by rw [hid]; exact not_not.mpr rfl) ?_
  refine (decodes_readWord _).bind ?_
  refine .check (by rw [hid]; simp [h.busCpuCount]) ?_
  refine (decodes_readWord _).bind ?_
  refine .check (by rw [hid]; exact not_not.mpr rfl) ?_
  refine (decodes_readBool _).bind ?_
  refine (decodes_readWord _).bind ?_
  refine .check (fun hlegacy => hlegacy.1 (hid ▸ h.xapic)) ?_
  refine (decodes_readBool _).bind ?_
  refine (decodes_readWord _).bind_last ?_
  exact .check (not_not.mpr h.taskPriority) (Decodes.pure _)

theorem decodes_readLogical (hmode : t.mode = s.mode) (hid : t.identity = s.identity)
    (h : s.Coherent) (hldr : s.LdrOk) :
    Decodes (readLogical t) self s.logicalBytes (t.withLogical s) := by
  have hmask : t.apicIdMask = s.apicIdMask := by rw [apicIdMask, hid, apicIdMask]
  refine (decodes_readWord _).bind ?_
  refine .check (fun hbad => hbad.2 (hmask ▸ hldr (hmode ▸ hbad.1))) ?_
  refine (decodes_readWord _).bind_last ?_
  exact .check (not_not.mpr h.destFormat) (Decodes.pure _)

theorem refuses_readLogical (hmode : t.mode = s.mode) (hid : t.identity = s.identity)
    (hldr : ¬ s.LdrOk) :
    Refuses (readLogical t) self s.logicalBytes (snapshotInvalid "LAPIC LDR has reserved bits") := by
  have hmask : t.apicIdMask = s.apicIdMask := by rw [apicIdMask, hid, apicIdMask]
  have hbad : t.mode ≠ .x2apicMode ∧ s.ldr &&& ~~~t.apicIdMask ≠ 0#32 := by
    rw [hmode, hmask]
    exact Classical.not_imp.mp hldr
  exact (decodes_readWord _).bind_refuses fun _ => ⟨_, run_refuseIf hbad _ _⟩

theorem decodes_readRegisters (h : s.Coherent) :
    Decodes (readRegisters t) self s.registerBytes (t.withRegisters s) := by
  iterate 4 refine (decodes_readVectorBits _).bind ?_
  refine .check (not_or.mpr ⟨h.isr, not_or.mpr ⟨h.tmr, h.irr⟩⟩) ?_
  iterate 4 refine (decodes_readWord _).bind ?_
  exact (decodes_readLvt h.lvt).bind_last (Decodes.pure _)

theorem decodes_readTimerState (hid : t.identity = s.identity) (hlvt : t.lvt = s.lvt)
    (h : s.Coherent) : Decodes (readTimerState t) self s.timerBytes (t.withTimerState s) := by
  have hmode : t.tscDeadlineMode = s.tscDeadlineMode := by rw [tscDeadlineMode, hlvt, tscDeadlineMode]
  iterate 6 refine (decodes_readWord _).bind ?_
  refine (decodes_readBool _).bind ?_
  refine (decodes_readWord _).bind ?_
  refine (decodes_readWord _).bind ?_
  refine .check h.divisor ?_
  refine (decodes_readBool _).bind (.check (by rw [hid]; exact not_not.mpr rfl) ?_)
  refine .check (fun hbad => ?_) ?_
  · rw [hid, hmode] at hbad
    exact hbad.1 (h.tscDeadline hbad.2)
  refine (decodes_readBool _).bind ?_
  exact (decodes_readSnapshotHandle _).bind_last (Decodes.pure _)

theorem decodes_readAuxiliary (h : s.Coherent) :
    Decodes (readAuxiliary t) self s.auxiliaryBytes (t.withAuxiliary s) := by
  rw [auxiliaryBytes]
  simp only [append_assoc]
  refine (decodes_readSnapshotHandle _).bind ?_
  iterate 4 refine (decodes_readWord _).bind ?_
  refine .check h.vmxRate ?_
  refine (decodes_readBool _).bind ((decodes_readSnapshotHandle _).bind ?_)
  refine (decodes_readBool _).bind ?_
  exact (decodes_readBool _).bind_last (Decodes.pure _)

section

variable (hid : t.identity = s.identity) (h : s.Coherent)
include hid h

theorem decodes_readQueues : Decodes (readQueues t) self s.queueBytes (t.withQueues s) := by
  have hipis : s.pendingIpis.length ≤ min (min pendingIpiCapacity (2 ^ 16)) maxCount :=
    h.ipis.1.trans (by decide)
  have hevents : s.pendingCpuEvents.length ≤ min (min pendingCpuEventCapacity (2 ^ 16)) maxCount :=
    h.cpuEvents.trans (by decide)
  rw [queueBytes]
  simp only [append_assoc]
  refine (decodes_readCount hipis).bind ?_
  refine (decodes_times rfl (List.forall₂_map_right_iff.mpr
    (List.forall₂_same.mpr fun ipi hipi => ?_))).bind ?_
  · rw [hid]
    exact decodes_readIpi (h.ipis.2 ipi hipi)
  refine (decodes_readCount hevents).bind ?_
  refine (decodes_times rfl (List.forall₂_map_right_iff.mpr
    (List.forall₂_same.mpr fun event _ => decodes_readCpuEvent event))).bind ?_
  refine (decodes_readEoi _).bind (.check ?_ ?_)
  · rintro ⟨vector, hvector, hlow⟩
    exact h.eoi vector hvector hlow
  refine (decodes_readBool _).bind ((decodes_readActivation _).bind ?_)
  exact (decodes_readBool _).bind_last (Decodes.pure _)

theorem decodes_readLocalApic (hldr : s.LdrOk) : Decodes readLocalApic t s.savedBytes s := by
  rw [savedBytes]
  simp only [append_assoc]
  refine decodes_live.bind_nil ((decodes_readSetup hid h).bind ?_)
  refine (decodes_readLogical (s := s) (t := t.withSetup s) rfl hid h hldr).bind ?_
  refine (decodes_readRegisters (t := (t.withSetup s).withLogical s) h).bind ?_
  refine (decodes_readTimerState (s := s) (t := ((t.withSetup s).withLogical s).withRegisters s) hid rfl
    h).bind ((decodes_readAuxiliary h).bind ?_)
  refine (decodes_readQueues (t := ((((t.withSetup s).withLogical s).withRegisters s).withTimerState
    s).withAuxiliary s) hid h).bind_last ?_
  rw [with_all hid]
  exact (decodes_fromExcept h.timers).bind_nil (Decodes.pure s)

theorem refuses_readLocalApic (hldr : ¬ s.LdrOk) :
    Refuses readLocalApic t s.savedBytes (snapshotInvalid "LAPIC LDR has reserved bits") := by
  rw [savedBytes]
  simp only [append_assoc]
  refine decodes_live.bind_refuses ((decodes_readSetup hid h).bind_refuses ?_)
  exact (refuses_readLogical (s := s) (t := t.withSetup s) rfl hid hldr).bind _

end

/-! ## Saving -/

theorem length_vectorBytes (reg : VectorBits) : (vectorBytes reg).length = 32 := by
  simp [vectorBytes, Function.comp_def]

/-- An optional field: a presence byte, and the field. -/
theorem ite_le_ten {c : Prop} [Decidable c] {n : Nat} (hn : n ≤ 10) : (if c then n else 1) ≤ 10 := by
  split
  · exact hn
  · decide

theorem length_snapshotHandleBytes (handle : Option (BitVec 64)) :
    (snapshotHandleBytes handle).length = if handle.isSome then 9 else 1 := by
  cases handle <;> simp [snapshotHandleBytes]

theorem length_eoiBytes (vector : Option (BitVec 8)) :
    (eoiBytes vector).length = if vector.isSome then 2 else 1 := by
  cases vector <;> simp [eoiBytes]

theorem length_activationBytes (request : Option LocalApicTimerActivation) :
    (activationBytes request).length = if request.isSome then 10 else 1 := by
  cases request <;> simp [activationBytes]

theorem length_queuedIpis (ipis : List PendingIpi) :
    (ipis.map ipiBytes).flatten.length = ipis.length * 11 := by
  simp [Function.comp_def, ipiBytes]

theorem length_cpuEventBytes_le (event : LocalApicCpuEvent) : (cpuEventBytes event).length ≤ 2 := by
  cases event <;> simp [cpuEventBytes]

theorem length_queuedEvents_le (events : List LocalApicCpuEvent) :
    (events.map fun event => (cpuEventBytes event).length).sum ≤ events.length * 2 := by
  induction events with
  | nil => exact Nat.zero_le _
  | cons event events ih =>
    have hevent := length_cpuEventBytes_le event
    rw [map_cons, sum_cons, length_cons]
    omega

theorem length_savedBytes (s : BxLocalApic) :
    s.savedBytes.length =
      264 + (if s.timer.timerHandle.isSome then 9 else 1) +
        (if s.auxiliary.vmxTimerHandle.isSome then 9 else 1) +
        (if s.auxiliary.mwaitxTimerHandle.isSome then 9 else 1) + 31 + s.pendingIpis.length * 11 + 4 +
        (s.pendingCpuEvents.map fun event => (cpuEventBytes event).length).sum +
        (if s.pendingEoiVector.isSome then 2 else 1) + 1 +
        (if s.timer.timerActivateRequest.isSome then 10 else 1) + 1 := by
  have hlvt : ((finRange 7).map fun i => wordBytes (s.lvt i)).flatten.length = 28 := by
    simp [Function.comp_def]
  have hevents : (s.pendingCpuEvents.map cpuEventBytes).flatten.length =
      (s.pendingCpuEvents.map fun event => (cpuEventBytes event).length).sum := by
    rw [length_flatten, map_map]
    rfl
  simp only [savedBytes, setupBytes, logicalBytes, registerBytes, timerBytes, auxiliaryBytes,
    queueBytes, length_append, length_leBytes, length_wordBytes, length_boolByte,
    length_vectorBytes, length_snapshotHandleBytes, length_eoiBytes, length_activationBytes,
    length_queuedIpis]
  omega

section

variable (hipis : s.pendingIpis.length ≤ pendingIpiCapacity)
  (hevents : s.pendingCpuEvents.length ≤ pendingCpuEventCapacity)
include hipis hevents

/-- The length announced before the body is the length of the body. -/
theorem snapshotV3BodyLen_eq : s.snapshotV3BodyLen = .ok s.savedBytes.length := by
  have hsection : maxSectionLen = 4294967296 := rfl
  have hipiCapacity : pendingIpiCapacity = 256 := rfl
  have heventCapacity : pendingCpuEventCapacity = 32 := rfl
  have hqueued := length_queuedEvents_le s.pendingCpuEvents
  have htimer := ite_le_ten (c := s.timer.timerHandle.isSome) (n := 9) (by decide)
  have hvmx := ite_le_ten (c := s.auxiliary.vmxTimerHandle.isSome) (n := 9) (by decide)
  have hmwaitx := ite_le_ten (c := s.auxiliary.mwaitxTimerHandle.isSome) (n := 9) (by decide)
  have heoi := ite_le_ten (c := s.pendingEoiVector.isSome) (n := 2) (by decide)
  have hactivate := ite_le_ten (c := s.timer.timerActivateRequest.isSome) (n := 10) (by decide)
  rw [length_savedBytes]
  refine check_bind_eq_ok.mpr ⟨failIf_eq_ok.mpr (by omega), ?_⟩
  refine bind_eq_ok.mpr ⟨_, foldlM_checkedSnapshotLenAdd _ _ ?_, ?_⟩
  · simp only [map_cons, map_nil, sum_cons, sum_nil]
    omega
  simp only [map_cons, map_nil, sum_cons, sum_nil]
  refine bind_eq_ok.mpr ⟨_, checkedSnapshotLenAdd_ok (by omega), ?_⟩
  refine bind_eq_ok.mpr ⟨_, checkedSnapshotLenMul_ok (by omega), ?_⟩
  iterate 2 refine bind_eq_ok.mpr ⟨_, checkedSnapshotLenAdd_ok (by omega), ?_⟩
  refine bind_eq_ok.mpr ⟨_, foldlM_checkedSnapshotLenAdd _ _ (by omega), ?_⟩
  iterate 3 refine bind_eq_ok.mpr ⟨_, checkedSnapshotLenAdd_ok (by omega), ?_⟩
  rw [checkedSnapshotLenAdd_ok (by omega)]
  exact congrArg _ (by omega)

theorem save_of_queues : s.saveSnapshotV3Body = .ok s.savedBytes := by
  have hipiMax : s.pendingIpis.length ≤ u32Max := hipis.trans (by decide)
  have heventMax : s.pendingCpuEvents.length ≤ u32Max := hevents.trans (by decide)
  rw [saveSnapshotV3Body, snapshotV3BodyLen_eq hipis hevents, failIf,
    if_neg (Nat.not_lt.mpr hipiMax), failIf, if_neg (Nat.not_lt.mpr heventMax)]
  rfl

end

/-- The device can be saved, and what is saved comes back in a device of the same identity,
whatever else that device holds. -/
def RoundTrips (s : BxLocalApic) : Prop :=
  ∃ bytes, s.saveSnapshotV3Body = .ok bytes ∧
    ∀ (t : BxLocalApic) (rest : List UInt8), t.identity = s.identity →
      restoreSnapshotV3Body.run ⟨t, bytes ++ rest⟩ = .ok s.snapshotHandles ⟨s, rest⟩

theorem restore_refused (h : s.Coherent) (hldr : ¬ s.LdrOk) (rest : List UInt8) :
    ∃ stream, restoreSnapshotV3Body.run ⟨s, s.savedBytes ++ rest⟩ =
      .error (snapshotInvalid "LAPIC LDR has reserved bits") stream := by
  obtain ⟨stream, hrefused⟩ := (refuses_readLocalApic (t := s) rfl h hldr) rest
  exact ⟨stream, run_bind_of_error (run_bind_of_error hrefused)⟩

/-- Where all the other rules hold, the LDR decides. -/
theorem roundTrips_iff (h : s.Coherent) : s.RoundTrips ↔ s.LdrOk := by
  have hsave := save_of_queues h.ipis.1 h.cpuEvents
  constructor
  · rintro ⟨bytes, hbytes, hrestore⟩
    obtain rfl : s.savedBytes = bytes := Except.ok.inj (hsave.symm.trans hbytes)
    by_contra hldr
    obtain ⟨stream, hfailed⟩ := restore_refused h hldr []
    rw [hrestore s [] rfl] at hfailed
    exact nomatch hfailed
  · intro hldr
    refine ⟨_, hsave, fun t rest hid => ?_⟩
    exact run_bind_of_ok (run_restoring (decodes_readLocalApic hid h hldr) rest)

end BxLocalApic

end RustyBox
