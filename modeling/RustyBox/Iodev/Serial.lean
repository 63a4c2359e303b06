-- SUMMARY: A port of the 16550 UART: its registers, its FIFOs, the two timers and the validator.
import RustyBox.Lib.ExceptRules
import RustyBox.PcSystem.Snapshot

/-!
# The UART

One port of `iodev/serial.rs`. Timers are one-shots that the scheduler owns: a deadline that is set
is armed, and an expiry calls back. The edges of the interrupt line that an access leaves are kept
until they are drained. Ports are independent, so there is one port here and no address decoding.
-/

namespace RustyBox

open Lib

/-- `FIFO_SIZE` and `TX_OUTPUT_CAPACITY`. -/
def fifoSize : Nat := 16
def txOutputCapacity : Nat := 4096

/-- `RX_FIFO_TRIGGERS`. -/
def rxFifoTriggers : List Nat := [1, 4, 8, 14]

/-- `push_back` of a ring with so many places: a full one drops its oldest element. -/
def ringPush {α : Type} (capacity : Nat) (ring : List α) (x : α) : List α :=
  (if ring.length = capacity then ring.tail else ring) ++ [x]

/-- `IntSource`. -/
inductive IntSource
  | ier
  | rxData
  | txHold
  | rxLstat
  | modStat
  | fifo

structure IntEnable where
  rxdata : Bool := false
  txhold : Bool := false
  rxlstat : Bool := false
  modstat : Bool := false

structure LineControl where
  wordlenSel : BitVec 8 := 0#8
  stopbits : Bool := false
  parityEnable : Bool := false
  evenparitySel : Bool := false
  stickParity : Bool := false
  breakCntl : Bool := false
  dlab : Bool := false

structure ModemControl where
  dtr : Bool := false
  rts : Bool := false
  out1 : Bool := false
  out2 : Bool := false
  localLoopback : Bool := false

def LineControl.ofByte (value : BitVec 8) : LineControl :=
  ⟨value &&& 0x03#8, value.getLsbD 2, value.getLsbD 3, value.getLsbD 4, value.getLsbD 5,
    value.getLsbD 6, value.getLsbD 7⟩

def ModemControl.ofByte (value : BitVec 8) : ModemControl :=
  ⟨value.getLsbD 0, value.getLsbD 1, value.getLsbD 2, value.getLsbD 3, value.getLsbD 4⟩

structure LineStatus where
  rxdataReady : Bool := false
  overrunError : Bool := false
  parityError : Bool := false
  framingError : Bool := false
  breakInt : Bool := false
  thrEmpty : Bool := true
  tsrEmpty : Bool := true
  fifoError : Bool := false

structure ModemStatus where
  deltaCts : Bool := false
  deltaDsr : Bool := false
  riTrailedge : Bool := false
  deltaDcd : Bool := false
  cts : Bool := true
  dsr : Bool := true
  ri : Bool := false
  dcd : Bool := false

/-- The interrupts that are raised, and those that wait for their enable bit. -/
structure IntTracking where
  ls : Bool := false
  ms : Bool := false
  rx : Bool := false
  tx : Bool := false
  fifo : Bool := false
  lsPending : Bool := false
  msPending : Bool := false
  rxPending : Bool := false
  fifoPending : Bool := false

/-- The edge of the interrupt line that is not yet drained. -/
structure IrqEdge where
  raise : Bool := false
  lower : Bool := false

/-- The defaults are those of `SerialPort::new`. -/
structure SerialPort where
  ints : IntTracking := {}
  irq : IrqEdge := {}
  rxFifo : List (BitVec 8) := []
  txFifo : List (BitVec 8) := []
  rxbuffer : BitVec 8 := 0#8
  thrbuffer : BitVec 8 := 0#8
  tsrbuffer : BitVec 8 := 0#8
  intEnable : IntEnable := {}
  intId : Nat := 0
  fifoEnable : Bool := false
  rxtrigger : BitVec 8 := 0#8
  lineCntl : LineControl := {}
  modemCntl : ModemControl := {}
  lineStatus : LineStatus := {}
  modemStatus : ModemStatus := {}
  scratch : BitVec 8 := 0#8
  divisorLsb : BitVec 8 := 1#8
  divisorMsb : BitVec 8 := 0#8
  baudrate : Nat := 115200
  databyteUsec : Nat := 87
  fifoTimeoutDelayUsec : Option Nat := none
  fifoTimerRequestPending : Bool := false
  txTimerDelayUsec : Option Nat := none
  txTimerRequestPending : Bool := false
  txOutput : List (BitVec 8) := []

/-- `serial_timing_from_registers`: the baud rate, and the microseconds of a byte. -/
def serialTimingFromRegisters (divisorLsb divisorMsb wordlenSel : BitVec 8) : Option (Nat × Nat) :=
  if 3 < wordlenSel.toNat then none
  else
    let divisor := divisorLsb.toNat + 256 * divisorMsb.toNat
    if divisor = 0 then none
    else
      let baudrate := 1843200 / (divisor * 16)
      if baudrate = 0 then none
      else some (baudrate, 1000000 * (wordlenSel.toNat + 7) / baudrate)

/-- The register of flags, the lowest bit first. -/
def flagByte : List Bool → BitVec 8
  | [] => 0#8
  | flag :: flags => (flagByte flags <<< 1) ||| BitVec.setWidth 8 (BitVec.ofBool flag)

namespace SerialPort

variable (s : SerialPort)

/-! ## Interrupts -/

/-- The flags after a source fires, and whether the line is to rise. -/
def raised : IntSource → IntTracking × Bool
  | .rxData =>
    if s.intEnable.rxdata then ({ s.ints with rx := true }, true)
    else ({ s.ints with rxPending := true }, false)
  | .txHold => if s.intEnable.txhold then ({ s.ints with tx := true }, true) else (s.ints, false)
  | .rxLstat =>
    if s.intEnable.rxlstat then ({ s.ints with ls := true }, true)
    else ({ s.ints with lsPending := true }, false)
  | .modStat =>
    if s.ints.msPending && s.intEnable.modstat then
      ({ s.ints with ms := true, msPending := false }, true)
    else (s.ints, false)
  | .fifo =>
    if s.intEnable.rxdata then ({ s.ints with fifo := true }, true)
    else ({ s.ints with fifoPending := true }, false)
  | .ier => (s.ints, true)

def raiseInterrupt (source : IntSource) : SerialPort :=
  { s with
    ints := (s.raised source).1
    irq := if (s.raised source).2 && s.modemCntl.out2 then ⟨true, false⟩ else s.irq }

def lowerInterrupt : SerialPort :=
  { s with
    irq :=
      if s.ints.ls || s.ints.ms || s.ints.rx || s.ints.tx || s.ints.fifo then s.irq
      else ⟨false, true⟩ }

/-! ## Reception -/

/-- The level at which a received byte is announced. -/
def trigger : Nat := rxFifoTriggers.getD s.rxtrigger.toNat 0

/-- Level 1 is reached by every byte, the others only when the FIFO is exactly as full. -/
def reachesTrigger (level : Nat) : Bool :=
  match s.rxtrigger.toNat with
  | 1 => level == 4
  | 2 => level == 8
  | 3 => level == 14
  | _ => true

variable (data : BitVec 8)

def rxFifoEnq : SerialPort :=
  if s.fifoEnable then
    if fifoSize ≤ s.rxFifo.length then
      { s with lineStatus.overrunError := true }.raiseInterrupt .rxLstat
    else
      let pushed :=
        { s with rxFifo := ringPush fifoSize s.rxFifo data, fifoTimerRequestPending := true }
      if s.reachesTrigger pushed.rxFifo.length then
        { pushed with
          fifoTimeoutDelayUsec := none
          lineStatus.rxdataReady := true }.raiseInterrupt .rxData
      else { pushed with fifoTimeoutDelayUsec := some (s.databyteUsec * 3) }
  else
    let s :=
      if s.lineStatus.rxdataReady then
        { s with lineStatus.overrunError := true }.raiseInterrupt .rxLstat
      else s
    { s with rxbuffer := data, lineStatus.rxdataReady := true }.raiseInterrupt .rxData

def rxHasRoom : Bool :=
  if s.fifoEnable then s.rxFifo.length < fifoSize else !s.lineStatus.rxdataReady

/-- A byte of the host, and whether it is taken. -/
def receiveByte : Bool × SerialPort :=
  if !s.rxHasRoom then (false, s)
  else if s.modemCntl.localLoopback then (true, s)
  else (true, s.rxFifoEnq data)

def fifoTimerFired : SerialPort :=
  let fired := { s with fifoTimeoutDelayUsec := none, fifoTimerRequestPending := false }
  if s.fifoTimeoutDelayUsec.isSome && s.fifoEnable && !s.rxFifo.isEmpty &&
      decide (s.rxFifo.length < s.trigger) then
    { fired with lineStatus.rxdataReady := true }.raiseInterrupt .fifo
  else fired

/-! ## Transmission -/

def armTxTimer : SerialPort :=
  { s with txTimerDelayUsec := some s.databyteUsec, txTimerRequestPending := true }

/-- The holding register is empty, which the guest is told. -/
def thrDrained : SerialPort := { s with lineStatus.thrEmpty := true }.raiseInterrupt .txHold

/-- The shift register takes the next byte, if there is one. -/
def reload : SerialPort :=
  if s.fifoEnable && !s.txFifo.isEmpty then
    let next :=
      { s with
        tsrbuffer := s.txFifo.headD 0#8
        txFifo := s.txFifo.tail
        lineStatus.tsrEmpty := false }
    (if s.txFifo.tail.isEmpty then next.thrDrained else next).armTxTimer
  else if !s.lineStatus.thrEmpty then
    { s with tsrbuffer := s.thrbuffer, lineStatus.tsrEmpty := false }.thrDrained.armTxTimer
  else s

def txTimerFired : SerialPort :=
  let fired := { s with txTimerDelayUsec := none, txTimerRequestPending := false }
  if s.lineStatus.tsrEmpty then fired
  else
    { fired with
      txOutput := ringPush txOutputCapacity s.txOutput s.tsrbuffer
      lineStatus.tsrEmpty := true }.reload

/-! ## Reading registers -/

def iir : BitVec 8 :=
  let i := s.ints
  let (ipending, intId) :=
    if i.ls then (false, 3#8) else if i.fifo then (false, 6#8) else if i.rx then (false, 2#8)
    else if i.tx then (false, 1#8) else if i.ms then (false, 0#8) else (true, 0#8)
  flagByte [ipending] ||| (intId <<< 1) ||| if s.fifoEnable then 0xC0#8 else 0#8

def lsr : BitVec 8 :=
  let l := s.lineStatus
  flagByte [l.rxdataReady, l.overrunError, l.parityError, l.framingError, l.breakInt, l.thrEmpty,
    l.tsrEmpty, l.fifoError]

def msr : BitVec 8 :=
  let m := s.modemStatus
  flagByte [m.deltaCts, m.deltaDsr, m.riTrailedge, m.deltaDcd, m.cts, m.dsr, m.ri, m.dcd]

/-- The receive buffer: with FIFOs its oldest byte, whose read cancels the timeout. -/
def readRbr : BitVec 8 × SerialPort :=
  if s.fifoEnable then
    let popped :=
      { s with
        fifoTimeoutDelayUsec := none
        fifoTimerRequestPending := true
        rxFifo := s.rxFifo.tail }
    let cleared :=
      if popped.rxFifo.isEmpty then
        { popped with
          lineStatus.rxdataReady := false
          ints := { s.ints with
            rx := false, rxPending := false, fifo := false, fifoPending := false } }
      else popped
    (s.rxFifo.headD 0#8, cleared.lowerInterrupt)
  else
    (s.rxbuffer,
      { s with
        lineStatus.rxdataReady := false
        ints := { s.ints with rx := false, rxPending := false } }.lowerInterrupt)

/-- A read of the register at an offset. -/
def read : Fin 8 → BitVec 8 × SerialPort
  | 0 => if s.lineCntl.dlab then (s.divisorLsb, s) else s.readRbr
  | 1 =>
    if s.lineCntl.dlab then (s.divisorMsb, s)
    else
      (flagByte [s.intEnable.rxdata, s.intEnable.txhold, s.intEnable.rxlstat,
        s.intEnable.modstat], s)
  | 2 => (s.iir, { s with ints.tx := false }.lowerInterrupt)
  | 3 =>
    let l := s.lineCntl
    (l.wordlenSel ||| flagByte [false, false, l.stopbits, l.parityEnable, l.evenparitySel,
      l.stickParity, l.breakCntl, l.dlab], s)
  | 4 =>
    let m := s.modemCntl
    (flagByte [m.dtr, m.rts, m.out1, m.out2, m.localLoopback], s)
  | 5 =>
    (s.lsr,
      { s with
        lineStatus := { s.lineStatus with
          overrunError := false, framingError := false, breakInt := false }
        ints := { s.ints with ls := false, lsPending := false } }.lowerInterrupt)
  | 6 =>
    (s.msr,
      { s with
        modemStatus := { s.modemStatus with
          deltaCts := false, deltaDsr := false, riTrailedge := false, deltaDcd := false }
        ints := { s.ints with ms := false, msPending := false } }.lowerInterrupt)
  | 7 => (s.scratch, s)

/-! ## Writing registers -/

variable (value : BitVec 8)

/-- The byte of a transmission, cut to the word length. -/
def thrData : BitVec 8 :=
  value &&& (0xFF#8 >>> (3 - s.lineCntl.wordlenSel.toNat))

def usesTxFifo : Bool := s.fifoEnable && !s.modemCntl.localLoopback

/-- The byte in the FIFO or in the holding register. -/
def holdByte : SerialPort :=
  if s.usesTxFifo then
    { s with txFifo := ringPush fifoSize s.txFifo data, lineStatus.thrEmpty := false }
  else { s with thrbuffer := data, lineStatus.thrEmpty := false }

/-- An idle shift register takes the byte at once. -/
def shiftByte : SerialPort :=
  if s.usesTxFifo then
    match s.txFifo with
    | byte :: rest =>
      { s with tsrbuffer := byte, txFifo := rest, lineStatus.thrEmpty := rest.isEmpty }
    | [] => s
  else { s with tsrbuffer := s.thrbuffer, lineStatus.thrEmpty := true }

def writeThr : SerialPort :=
  let data := s.thrData value
  if s.lineStatus.thrEmpty then
    let held := s.holdByte data
    if s.lineStatus.tsrEmpty then
      let shifted := held.shiftByte
      let told := if shifted.lineStatus.thrEmpty then shifted.raiseInterrupt .txHold else shifted
      if s.modemCntl.localLoopback then
        { told with lineStatus.tsrEmpty := true }.rxFifoEnq told.tsrbuffer
      else { told with lineStatus.tsrEmpty := false }.armTxTimer
    else { held with ints.tx := false }.lowerInterrupt
  else if s.fifoEnable && decide (s.txFifo.length < fifoSize) then
    { s with txFifo := ringPush fifoSize s.txFifo data }
  else s

/-- An interrupt source after its enable bit is written. -/
structure Switched where
  raised : Bool
  pending : Bool
  rises : Bool
  falls : Bool

/-- Enabling raises what waits, and disabling lets what is raised wait. -/
def switchEnable (old new raised pending : Bool) : Switched :=
  if new && !old then ⟨raised || pending, false, pending, false⟩
  else if !new && old then ⟨false, pending || raised, false, raised⟩
  else ⟨raised, pending, false, false⟩

def writeIer : SerialPort :=
  let old := s.intEnable
  let new : IntEnable := ⟨value.getLsbD 0, value.getLsbD 1, value.getLsbD 2, value.getLsbD 3⟩
  let ms := switchEnable old.modstat new.modstat s.ints.ms s.ints.msPending
  -- an empty holding register interrupts as soon as that is enabled, and never waits
  let tx : Switched :=
    if new.txhold && !old.txhold then
      ⟨s.ints.tx || s.lineStatus.thrEmpty, false, s.lineStatus.thrEmpty, false⟩
    else if !new.txhold && old.txhold then ⟨false, false, false, true⟩
    else ⟨s.ints.tx, false, false, false⟩
  let fifo := switchEnable old.rxdata new.rxdata s.ints.fifo s.ints.fifoPending
  let rx := switchEnable old.rxdata new.rxdata s.ints.rx s.ints.rxPending
  let ls := switchEnable old.rxlstat new.rxlstat s.ints.ls s.ints.lsPending
  let switched :=
    { s with
      intEnable := new
      ints := ⟨ls.raised, ms.raised, rx.raised, tx.raised, fifo.raised, ls.pending, ms.pending,
        rx.pending, fifo.pending⟩ }
  let lowered :=
    if ms.falls || tx.falls || fifo.falls || rx.falls || ls.falls then switched.lowerInterrupt
    else switched
  if ms.rises || tx.rises || fifo.rises || rx.rises || ls.rises then lowered.raiseInterrupt .ier
  else lowered

/-- The FIFOs after a write of FCR: turning them off empties both. -/
def writeFcr : SerialPort :=
  let enable := value.getLsbD 0
  let off := !enable && s.fifoEnable
  let fifos :=
    { s with
      fifoEnable := enable
      rxFifo := if off || value.getLsbD 1 then [] else s.rxFifo
      txFifo := if off || value.getLsbD 2 then [] else s.txFifo
      rxtrigger := (value >>> 6) &&& 0x03#8 }
  if !enable || fifos.rxFifo.isEmpty || decide (fifos.trigger ≤ fifos.rxFifo.length) then
    { fifos with fifoTimeoutDelayUsec := none, fifoTimerRequestPending := true }
  else fifos

/-- A break that is looped back is received as a zero byte. -/
def loopBreak (looped : Bool) : SerialPort :=
  if looped then
    { s with
      lineStatus := { s.lineStatus with breakInt := true, framingError := true } }.rxFifoEnq 0#8
  else s

/-- The timing that a divisor latch gives, if it gives one. -/
def updateTiming : SerialPort :=
  match serialTimingFromRegisters s.divisorLsb s.divisorMsb s.lineCntl.wordlenSel with
  | some (baudrate, databyteUsec) => { s with baudrate, databyteUsec }
  | none => s

def writeLcr : SerialPort :=
  let lineCntl := LineControl.ofByte value
  let broken := { s with lineCntl }.loopBreak (s.modemCntl.localLoopback && lineCntl.breakCntl)
  if s.lineCntl.dlab && !lineCntl.dlab then broken.updateTiming else broken

/-- In loopback the modem outputs are the modem inputs. -/
def loopModemStatus (out : ModemControl) (old : ModemStatus) : ModemStatus where
  deltaCts := old.deltaCts || (out.rts != old.cts)
  deltaDsr := old.deltaDsr || (out.dtr != old.dsr)
  riTrailedge := old.riTrailedge || (!out.out1 && old.ri)
  deltaDcd := old.deltaDcd || (out.out2 != old.dcd)
  cts := out.rts
  dsr := out.dtr
  ri := out.out1
  dcd := out.out2

def setMcr (modemCntl : ModemControl) : SerialPort :=
  { s with modemCntl }.loopBreak
    (!s.modemCntl.localLoopback && modemCntl.localLoopback && s.lineCntl.breakCntl)

def writeMcr : SerialPort :=
  let modemCntl := ModemControl.ofByte value
  let looped := s.modemCntl.localLoopback
  let broken := s.setMcr modemCntl
  if modemCntl.localLoopback then
    let old := s.modemStatus
    let changed :=
      (modemCntl.rts != old.cts) || (modemCntl.dtr != old.dsr) || (modemCntl.out1 != old.ri) ||
        (modemCntl.out2 != old.dcd)
    { broken with
      modemStatus := loopModemStatus modemCntl old
      ints.msPending := broken.ints.msPending || changed }.raiseInterrupt .modStat
  else if looped then
    { broken with
      modemStatus := { s.modemStatus with cts := true, dsr := true, ri := false, dcd := false } }
  else broken

/-- A write of the register at an offset. -/
def write (reg : Fin 8) (value : BitVec 8) : SerialPort :=
  match reg with
  | 0 => if s.lineCntl.dlab then { s with divisorLsb := value } else s.writeThr value
  | 1 => if s.lineCntl.dlab then { s with divisorMsb := value } else s.writeIer value
  | 2 => s.writeFcr value
  | 3 => s.writeLcr value
  | 4 => s.writeMcr value
  | 5 | 6 => s
  | 7 => { s with scratch := value }

/-! ## Snapshots -/

/-- `validate_fifo_timeout_state`. -/
def validateFifoTimeoutState : SnapResult Unit :=
  match s.fifoTimeoutDelayUsec with
  | none => .ok ()
  | some delay => do
    failIf (delay = 0) (.invalid "serial FIFO timeout delay must be nonzero")
    failIf (s.fifoEnable = false ∨ s.rxFifo = [])
      (.invalid "serial FIFO timeout is armed without receive data")
    failIf (rxFifoTriggers.length ≤ s.rxtrigger.toNat) (.invalid "serial FIFO trigger is invalid")
    failIf (s.trigger ≤ s.rxFifo.length)
      (.invalid "serial FIFO timeout is armed at receive trigger")

/-- `validate_serial_ring_len`, with `MAX_SNAPSHOT_QUEUE_LEN` as the second bound. -/
def validateSerialRingLen (capacity : Nat) (ring : List (BitVec 8)) : SnapResult Unit :=
  failIf (min capacity (2 ^ 16) < ring.length)
    (.invalid "serial snapshot ring length exceeds live capacity")

/-- `validate_serial_port_for_snapshot`. -/
def validateForSnapshot : SnapResult Unit := do
  validateSerialRingLen fifoSize s.rxFifo
  validateSerialRingLen fifoSize s.txFifo
  validateSerialRingLen txOutputCapacity s.txOutput
  failIf (s.fifoEnable = false ∧ (s.rxFifo ≠ [] ∨ s.txFifo ≠ []))
    (.invalid "serial FIFOs contain data while FIFO mode is disabled")
  failIf (s.intId ∉ [0, 1, 2, 3, 6]) (.invalid "serial interrupt identifier is invalid")
  failIf (3 < s.rxtrigger.toNat) (.invalid "serial FIFO trigger is invalid")
  failIf ((serialTimingFromRegisters s.divisorLsb s.divisorMsb s.lineCntl.wordlenSel).isNone)
    (.invalid "serial divisor or line format is invalid")
  s.validateFifoTimeoutState

/-! ## Steps -/

/-- What the guest, the host and the timers do to a port. -/
inductive Event
  | read (reg : Fin 8)
  | write (reg : Fin 8) (value : BitVec 8)
  | receive (data : BitVec 8)
  | fifoTimer
  | txTimer
  | drain

def step : Event → SerialPort
  | .read reg => (s.read reg).2
  | .write reg value => s.write reg value
  | .receive data => (s.receiveByte data).2
  | .fifoTimer => s.fifoTimerFired
  | .txTimer => s.txTimerFired
  | .drain => { s with txOutput := [] }

end SerialPort

end RustyBox
