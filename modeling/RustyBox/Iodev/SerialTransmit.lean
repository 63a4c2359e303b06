-- SUMMARY: A UART sends what the guest wrote, in order and once, and when it does not.
import RustyBox.Iodev.Serial
import RustyBox.Lib.Conserve
import RustyBox.Lib.BitSet

/-!
# Transmission

A byte on its way is in the shift register, and behind it in the FIFO or in the holding register.
Which of the two is decided by the FIFO mode alone, so a mode change or a reset of the FIFO while
the holding register counts as full loses a byte or sends an old one.
-/

namespace RustyBox

open Lib List SerialPort Positions

/-- The part of a port that transmits. -/
structure Transmitter where
  fifo : List (BitVec 8)
  enable : Bool
  looped : Bool
  thr : BitVec 8
  thrEmpty : Bool
  tsr : BitVec 8
  tsrEmpty : Bool
  timer : Option Nat
  output : List (BitVec 8)

namespace Transmitter

section

variable (t : Transmitter)

/-- A byte is written, and takes so long to shift. -/
def send (delay : Nat) (data : BitVec 8) : Transmitter :=
  if t.thrEmpty then
    if t.tsrEmpty then
      if t.looped then { t with thr := data, tsr := data }
      else
        { t with
          thr := if t.enable then t.thr else data
          tsr := data
          tsrEmpty := false
          timer := some delay }
    else if t.enable && !t.looped then { t with fifo := [data], thrEmpty := false }
    else { t with thr := data, thrEmpty := false }
  else if t.enable && decide (t.fifo.length < fifoSize) then { t with fifo := t.fifo ++ [data] }
  else t

/-- The FIFO control register is written. -/
def control (value : BitVec 8) : Transmitter :=
  { t with
    enable := value.getLsbD 0
    fifo := if !value.getLsbD 0 && t.enable || value.getLsbD 2 then [] else t.fifo }

/-- The byte in the shift register is out, and the next one takes so long. -/
def expire (delay : Nat) : Transmitter :=
  if t.tsrEmpty then { t with timer := none }
  else
    let sent := { t with output := ringPush txOutputCapacity t.output t.tsr }
    if t.enable && !t.fifo.isEmpty then
      { sent with
        tsr := t.fifo.headD 0#8
        fifo := t.fifo.tail
        thrEmpty := t.thrEmpty || t.fifo.tail.isEmpty
        timer := some delay }
    else if !t.thrEmpty then { sent with tsr := t.thr, thrEmpty := true, timer := some delay }
    else { sent with tsrEmpty := true, timer := none }

/-- The bytes on their way, in order. -/
def inFlight : List (BitVec 8) :=
  (if t.tsrEmpty then [] else [t.tsr]) ++
    if t.thrEmpty then [] else if t.enable then t.fifo else [t.thr]

/-- The holding register is empty, or the FIFO has room behind it. -/
def takes : Bool := t.thrEmpty || (t.enable && decide (t.fifo.length < fifoSize))

end

@[grind cases]
structure Shaped (t : Transmitter) : Prop where
  held : t.thrEmpty = true → t.fifo = []
  off : t.enable = false → t.fifo = []
  size : t.fifo.length ≤ fifoSize
  output : t.output.length ≤ txOutputCapacity

/-- Bytes are where the mode says, and the timer runs as long as one is shifted. -/
@[grind cases]
structure Sound (t : Transmitter) : Prop extends t.Shaped where
  looped : t.looped = false
  shifting : t.tsrEmpty = true → t.thrEmpty = true
  queued : t.thrEmpty = false → t.enable = true → t.fifo ≠ []
  timed : t.tsrEmpty = false → t.timer ≠ none

variable {t : Transmitter}

theorem length_ringPush {ring : List (BitVec 8)} {capacity : Nat} (h : ring.length ≤ capacity)
    (hpos : 0 < capacity) (byte : BitVec 8) : (ringPush capacity ring byte).length ≤ capacity := by
  grind [ringPush]

theorem output_send (delay : Nat) (data : BitVec 8) : (t.send delay data).output = t.output := by
  rw [Transmitter.send]
  repeat' split
  all_goals rfl

theorem output_expire (h : t.output.length < txOutputCapacity) {delay : Nat} :
    (t.expire delay).output = if t.tsrEmpty then t.output else t.output ++ [t.tsr] := by
  grind [Transmitter.expire, ringPush]

theorem Shaped.send (h : t.Shaped) (delay : Nat) (data : BitVec 8) :
    (t.send delay data).Shaped := by
  constructor
  case held =>
    -- whatever puts a byte into the FIFO clears the flag
    grind [Transmitter.send]
  case off => grind [Transmitter.send]
  case size => grind [Transmitter.send, fifoSize]
  case output =>
    rw [output_send]
    exact h.output

theorem Shaped.control (h : t.Shaped) (value : BitVec 8) : (t.control value).Shaped := by
  constructor
  case held => grind [Transmitter.control]
  case off =>
    -- the write that switches the FIFO off empties it
    grind [Transmitter.control]
  case size => grind [Transmitter.control]
  case output => exact h.output

theorem Shaped.expire (h : t.Shaped) (delay : Nat) : (t.expire delay).Shaped := by
  have hpushed := length_ringPush h.output (by decide) t.tsr
  constructor
  case held => grind [Transmitter.expire]
  case off => grind [Transmitter.expire]
  case size => grind [Transmitter.expire]
  case output => grind [Transmitter.expire]

theorem Sound.send (h : t.Sound) (delay : Nat) (data : BitVec 8) : (t.send delay data).Sound := by
  have hshaped := h.toShaped.send delay data
  refine { hshaped with
    looped := ?looped, shifting := ?shifting, queued := ?queued, timed := ?timed }
  case looped => grind [Transmitter.send]
  case shifting =>
    -- the holding register is used only while a byte is shifted
    grind [Transmitter.send]
  case queued => grind [Transmitter.send, append_eq_nil_iff]
  case timed =>
    -- a byte that goes into the shift register starts the timer
    grind [Transmitter.send]

theorem inFlight_send (h : t.Sound) (delay : Nat) (data : BitVec 8) :
    (t.send delay data).inFlight = t.inFlight ++ if t.takes then [data] else [] := by
  grind [Transmitter.send, inFlight, takes]

theorem Sound.shifts (h : t.Sound) (hflight : t.inFlight ≠ []) : t.tsrEmpty = false := by
  grind [inFlight]

theorem Sound.expire (h : t.Sound) (delay : Nat) : (t.expire delay).Sound := by
  have hshaped := h.toShaped.expire delay
  refine { hshaped with
    looped := ?looped, shifting := ?shifting, queued := ?queued, timed := ?timed }
  case looped => grind [Transmitter.expire]
  case shifting =>
    -- the shift register runs empty only when nothing is held
    grind [Transmitter.expire]
  case queued => grind [Transmitter.expire]
  case timed => grind [Transmitter.expire]

theorem inFlight_expire (h : t.Sound) (delay : Nat) :
    (t.expire delay).inFlight = t.inFlight.tail := by
  match hfifo : t.fifo with
  | [] | [_] | _ :: _ :: _ => grind [Transmitter.expire, inFlight]

/-- A write that leaves the FIFO as it is, or comes while there is nothing in it. -/
theorem Sound.control (h : t.Sound) {value : BitVec 8}
    (hvalue : t.thrEmpty = true ∨ value.getLsbD 0 = t.enable ∧ value.getLsbD 2 = false) :
    (t.control value).Sound ∧ (t.control value).inFlight = t.inFlight := by
  have hshaped := h.toShaped.control value
  refine ⟨{ hshaped with
    looped := h.looped, shifting := h.shifting, queued := ?queued, timed := h.timed }, ?inFlight⟩
  case queued => grind [Transmitter.control]
  case inFlight => grind [Transmitter.control, inFlight]

end Transmitter

/-! ## The transmitter and the line of a port -/

/-- The line format and the timing. -/
structure LineTiming where
  lineCntl : LineControl
  databyteUsec : Nat
  intId : Nat
  divisorLsb : BitVec 8
  divisorMsb : BitVec 8

/-- The timing that the divisor latch gives, if it gives one. -/
def LineTiming.retime (l : LineTiming) : LineTiming :=
  { l with
    databyteUsec := ((serialTimingFromRegisters l.divisorLsb l.divisorMsb
      l.lineCntl.wordlenSel).map Prod.snd).getD l.databyteUsec }

namespace SerialPort

variable {s : SerialPort}

def transmitter (s : SerialPort) : Transmitter :=
  ⟨s.txFifo, s.fifoEnable, s.modemCntl.localLoopback, s.thrbuffer, s.lineStatus.thrEmpty,
    s.tsrbuffer, s.lineStatus.tsrEmpty, s.txTimerDelayUsec, s.txOutput⟩

def line (s : SerialPort) : LineTiming :=
  ⟨s.lineCntl, s.databyteUsec, s.intId, s.divisorLsb, s.divisorMsb⟩

/-- What reception does not touch. -/
def unreceived (s : SerialPort) : Transmitter × LineTiming := (s.transmitter, s.line)

theorem unreceived_rxFifoEnq (data : BitVec 8) : (s.rxFifoEnq data).unreceived = s.unreceived := by
  simp only [rxFifoEnq]
  repeat' split
  all_goals rfl

theorem unreceived_loopBreak (looped : Bool) : (s.loopBreak looped).unreceived = s.unreceived := by
  cases looped with
  | false => rfl
  | true => exact unreceived_rxFifoEnq _

theorem unreceived_writeThr (hs : s.transmitter.Shaped) (value : BitVec 8) :
    (s.writeThr value).unreceived =
      (s.transmitter.send s.databyteUsec (s.thrData value), s.line) := by
  simp only [writeThr]
  cases hthr : s.lineStatus.thrEmpty with
  | false =>
    by_cases hroom : s.fifoEnable = true ∧ s.txFifo.length < fifoSize
    · simp [unreceived, line, Transmitter.send, transmitter, hthr, hroom, ringPush,
        Nat.ne_of_lt hroom.2]
    · simp [unreceived, Transmitter.send, transmitter, hthr, hroom]
  | true =>
    have hfifo : s.txFifo = [] := hs.held hthr
    cases htsr : s.lineStatus.tsrEmpty with
    | false =>
      simp only [Transmitter.send]
      simp [unreceived, transmitter, line, holdByte, usesTxFifo, lowerInterrupt, ringPush]
      grind
    | true =>
      cases hloop : s.modemCntl.localLoopback with
      | false =>
        cases henable : s.fifoEnable with
        | false | true =>
          simp [holdByte, shiftByte, usesTxFifo, hloop, henable, hthr, htsr, hfifo, ringPush,
            Transmitter.send, unreceived, transmitter, line, armTxTimer, raiseInterrupt]
      | true =>
        simp [holdByte, shiftByte, usesTxFifo, Transmitter.send]
        rw [unreceived_rxFifoEnq]
        simp [unreceived, transmitter, line, raiseInterrupt, hthr, htsr, hloop]

/-- What an event does to the rest of the port. -/
def unreceivedStep (s : SerialPort) : Event → Transmitter × LineTiming
  | .write 0 value =>
    if s.lineCntl.dlab then (s.transmitter, { s.line with divisorLsb := value })
    else (s.transmitter.send s.databyteUsec (s.thrData value), s.line)
  | .write 1 value =>
    (s.transmitter, if s.lineCntl.dlab then { s.line with divisorMsb := value } else s.line)
  | .write 2 value => (s.transmitter.control value, s.line)
  | .write 3 value =>
    let line := { s.line with lineCntl := .ofByte value }
    (s.transmitter, if s.lineCntl.dlab && !value.getLsbD 7 then line.retime else line)
  | .write 4 value => ({ s.transmitter with looped := value.getLsbD 4 }, s.line)
  | .txTimer => (s.transmitter.expire s.databyteUsec, s.line)
  | .drain => ({ s.transmitter with output := [] }, s.line)
  | _ => s.unreceived

theorem unreceived_updateTiming :
    s.updateTiming.unreceived = (s.unreceived.1, s.unreceived.2.retime) := by
  rw [updateTiming]
  split <;> simp_all [unreceived, transmitter, line, LineTiming.retime]

theorem unreceived_write (hs : s.transmitter.Shaped) (reg : Fin 8) (value : BitVec 8) :
    (s.write reg value).unreceived = s.unreceivedStep (.write reg value) := by
  match reg with
  | 0 =>
    simp only [write, unreceivedStep]
    split
    · rfl
    · exact unreceived_writeThr hs value
  | 1 =>
    simp only [write, writeIer, unreceivedStep]
    repeat' split
    all_goals rfl
  | 2 =>
    simp only [write, writeFcr, unreceivedStep]
    repeat' split
    all_goals simp_all [unreceived, transmitter, line, Transmitter.control]
  | 3 =>
    have hbreak := unreceived_loopBreak (s := { s with lineCntl := .ofByte value })
      (s.modemCntl.localLoopback && (LineControl.ofByte value).breakCntl)
    simp only [write, writeLcr]
    split
    · rw [unreceived_updateTiming, hbreak]
      exact congrArg (Prod.mk _) (if_pos ‹_›).symm
    · rw [hbreak]
      exact congrArg (Prod.mk _) (if_neg ‹_›).symm
  | 4 =>
    have hset : (s.setMcr (.ofByte value)).unreceived =
        ({ s.transmitter with looped := value.getLsbD 4 }, s.line) :=
      unreceived_loopBreak _
    simp only [write, writeMcr]
    repeat' split
    all_goals exact hset
  | 5 | 6 | 7 => rfl

theorem unreceived_step (hs : s.transmitter.Shaped) (e : Event) :
    (s.step e).unreceived = s.unreceivedStep e := by
  cases e with
  | read reg =>
    match reg with
    | 0 =>
      simp only [step, read, readRbr]
      repeat' split
      all_goals rfl
    | 1 =>
      simp only [step, read]
      split <;> rfl
    | 2 | 3 | 4 | 5 | 6 | 7 => rfl
  | write reg value => exact unreceived_write hs reg value
  | receive data =>
    simp only [step, receiveByte]
    repeat' split
    · rfl
    · rfl
    · exact unreceived_rxFifoEnq data
  | fifoTimer =>
    simp only [step, fifoTimerFired]
    split <;> rfl
  | txTimer =>
    simp only [step, txTimerFired, reload, unreceivedStep, Transmitter.expire]
    repeat' split
    all_goals simp_all [armTxTimer, thrDrained, raiseInterrupt, unreceived, transmitter, line]
  | drain => rfl

theorem transmitter_step (hs : s.transmitter.Shaped) (e : Event) :
    (s.step e).transmitter = (s.unreceivedStep e).1 :=
  congrArg Prod.fst (unreceived_step hs e)

/-! ## What is written and what is sent -/

/-- The byte that a write hands to the transmitter. -/
def thrWrite (s : SerialPort) : Event → List (BitVec 8)
  | .write 0 value => if s.lineCntl.dlab then [] else [s.thrData value]
  | _ => []

/-- The bytes that are taken: those written while LSR shows an empty holding register, and those
for which the FIFO has room. -/
def taken (s : SerialPort) (e : Event) : List (BitVec 8) :=
  if s.transmitter.takes then s.thrWrite e else []

/-- What an event pushes to the output. -/
def pushed (s : SerialPort) (e : Event) : List (BitVec 8) :=
  (s.step e).txOutput.drop s.txOutput.length

/-- Loopback stays off, and the output has room. -/
def Plain (s : SerialPort) : Event → Prop
  | .write 4 value => value.getLsbD 4 = false
  | .txTimer => s.txOutput.length < txOutputCapacity
  | _ => True

/-- FIFOs are switched, and that of the transmitter reset, only while the holding register is
empty. -/
def Steady (s : SerialPort) : Event → Prop
  | .write 2 value =>
    s.lineStatus.thrEmpty = true ∨ (value.getLsbD 0 = s.fifoEnable ∧ value.getLsbD 2 = false)
  | _ => True

theorem pushed_of_output {e : Event} {out : List (BitVec 8)}
    (h : (s.step e).transmitter.output = s.txOutput ++ out) : s.pushed e = out := by
  rw [pushed, show (s.step e).txOutput = _ from h, drop_left]

theorem pushed_txTimer (hs : s.transmitter.Shaped) (hroom : s.txOutput.length < txOutputCapacity) :
    s.pushed .txTimer = if s.transmitter.tsrEmpty then [] else [s.tsrbuffer] := by
  apply pushed_of_output
  rw [transmitter_step hs]
  show (s.transmitter.expire s.databyteUsec).output = _
  rw [Transmitter.output_expire hroom]
  split
  · exact (append_nil _).symm
  · rfl

/-- An event that leaves the transmitter alone. -/
theorem transmits_of_eq (hs : s.transmitter.Sound) {e : Event}
    (hstep : (s.step e).transmitter = s.transmitter) (hwrite : s.thrWrite e = []) :
    (s.step e).transmitter.Sound ∧
      s.transmitter.inFlight ++ s.taken e = s.pushed e ++ (s.step e).transmitter.inFlight := by
  have hpushed : s.pushed e = [] := pushed_of_output (by rw [hstep]; exact (append_nil _).symm)
  rw [hstep, taken, hwrite, hpushed, ite_self, append_nil]
  exact ⟨hs, rfl⟩

/-- What one event does to the bytes on their way. -/
theorem transmits (hs : s.transmitter.Sound) {e : Event} (hplain : s.Plain e)
    (hsteady : s.Steady e) :
    (s.step e).transmitter.Sound ∧
      s.transmitter.inFlight ++ s.taken e = s.pushed e ++ (s.step e).transmitter.inFlight := by
  have hstep := transmitter_step hs.toShaped e
  cases e with
  | read | receive | fifoTimer => exact transmits_of_eq hs hstep rfl
  | write reg value =>
    match reg with
    | 0 =>
      cases hdlab : s.lineCntl.dlab with
      | true =>
        simp only [unreceivedStep, hdlab] at hstep
        exact transmits_of_eq hs hstep (by simp [thrWrite, hdlab])
      | false =>
        simp only [unreceivedStep, hdlab, Bool.false_eq_true, if_false] at hstep
        have hpushed : s.pushed (.write 0 value) = [] := pushed_of_output (by
          rw [hstep, Transmitter.output_send]
          exact (append_nil _).symm)
        rw [hstep, hpushed, nil_append, Transmitter.inFlight_send hs, taken]
        simp only [thrWrite, hdlab, Bool.false_eq_true, if_false]
        exact ⟨hs.send _ _, trivial⟩
    | 2 =>
      obtain ⟨hsound, hflight⟩ := hs.control hsteady
      have hpushed : s.pushed (.write 2 value) = [] := pushed_of_output (by
        rw [hstep]
        exact (append_nil _).symm)
      rw [hstep, hpushed, taken]
      exact ⟨hsound, by simp [thrWrite, unreceivedStep, hflight]⟩
    | 4 =>
      have hlooped : s.transmitter = { s.transmitter with looped := value.getLsbD 4 } := by
        rw [show value.getLsbD 4 = false from hplain, ← hs.looped]
      exact transmits_of_eq hs (hstep.trans hlooped.symm) rfl
    | 1 | 3 | 5 | 6 | 7 => exact transmits_of_eq hs hstep rfl
  | txTimer =>
    rw [hstep, pushed_txTimer hs.toShaped hplain]
    show _ ∧ _ = _ ++ (s.transmitter.expire s.databyteUsec).inFlight
    rw [Transmitter.inFlight_expire hs]
    refine ⟨hs.expire _, ?_⟩
    have hshifting := hs.shifting
    simp only [taken, thrWrite, Transmitter.inFlight]
    grind [transmitter]
  | drain =>
    refine ⟨⟨⟨hs.held, hs.off, hs.size, Nat.zero_le _⟩, hs.looped, hs.shifting, hs.queued,
      hs.timed⟩, ?_⟩
    rw [taken, show s.thrWrite .drain = [] from rfl, ite_self, append_nil,
      show s.pushed .drain = [] from drop_nil]
    rfl

def Event.isTxTimer : Event → Bool
  | .txTimer => true
  | _ => false

theorem pushed_of_isTxTimer (s : SerialPort) (e : Event) (hs : s.transmitter.Sound)
    (h : s.Plain e ∧ s.Steady e) (htimer : e.isTxTimer) (hflight : s.transmitter.inFlight ≠ []) :
    s.pushed e ≠ [] := by
  cases e with
  | txTimer =>
    rw [pushed_txTimer hs.toShaped h.1, hs.shifts hflight]
    exact cons_ne_nil _ _
  | _ => cases htimer

theorem conserves_transmission :
    Conserves step (fun s => s.transmitter.Sound) (fun s e => s.Plain e ∧ s.Steady e)
      (fun s => s.transmitter.inFlight) taken pushed where
  inv _ _ hs h := (transmits hs h.1 h.2).1
  balance _ _ hs h := (transmits hs h.1 h.2).2

/-- With loopback off and the output drained in time, and the FIFOs switched and reset only while
the holding register is empty: what is pushed is what was taken, in order and once, the timer runs
while bytes are on their way, and each of them is pushed within as many expiries. -/
theorem transmission_faithful (events : List Event)
    (h : StepsMeet step (fun s e => s.Plain e ∧ s.Steady e) {} events) :
    collect step pushed {} events <+: collect step taken {} events ∧
      (collect step taken {} events).Sublist
        (collect step thrWrite {} events) ∧
      ∀ earlier later, events = earlier ++ later →
        let s := earlier.foldl step {}
        (s.transmitter.inFlight ≠ [] → s.txTimerDelayUsec ≠ none) ∧
          (s.transmitter.inFlight.length ≤ later.countP Event.isTxTimer →
            collect step taken {} earlier <+:
              collect step pushed {} events) := by
  have hstart : ({} : SerialPort).transmitter.Sound :=
    ⟨⟨fun _ => rfl, fun _ => rfl, Nat.zero_le _, Nat.zero_le _⟩, rfl, fun _ => rfl, nofun, nofun⟩
  refine ⟨⟨_, (conserves_transmission.run hstart h).symm⟩, collect_sublist (fun s e => ?_) _ _, ?_⟩
  · rw [taken]
    split
    · exact .refl _
    · exact nil_sublist _
  · rintro earlier later rfl
    obtain ⟨hearlier, hlater⟩ := stepsMeet_append.mp h
    have hs := conserves_transmission.inv_foldl hstart hearlier
    refine ⟨fun hflight => hs.timed (hs.shifts hflight), fun hticks => ?_⟩
    have hout := conserves_transmission.delivers pushed_of_isTxTimer hs hlater
      (prefix_refl _) hticks
    have hbalance := conserves_transmission.run hstart hearlier
    rw [collect_append, show collect step taken {} earlier = _ from hbalance]
    exact (prefix_append_right_inj _).mpr hout

/-- The transmit FIFO is reset while it holds the second of two bytes. -/
def resetInFlight : List Event :=
  [.write 2 0x01#8, .write 0 0x11#8, .write 0 0x12#8, .write 2 0x05#8, .txTimer, .txTimer]

/-- A byte follows that the guest never wrote. -/
theorem resetInFlight_sends :
    collect step thrWrite {} resetInFlight = [0x11#8, 0x12#8] ∧
      collect step pushed {} resetInFlight = [0x11#8, 0x00#8] := by
  decide

/-- Two bytes through the transmit FIFO, which is switched on before and off after them. -/
def fifoRun : List Event :=
  [.write 2 0x01#8, .write 0 0x11#8, .write 0 0x12#8, .txTimer, .txTimer, .write 2 0x00#8]

/-- The second byte is on its way before the first expiry, and both are pushed. -/
theorem fifoRun_sends :
    collect step pushed {} fifoRun <+: collect step taken {} fifoRun ∧
      (collect step taken {} fifoRun).Sublist
        (collect step thrWrite {} fifoRun) ∧
      ((fifoRun.take 3).foldl step {}).txTimerDelayUsec ≠ none ∧
      [0x11#8, 0x12#8] <+: collect step pushed {} fifoRun := by
  obtain ⟨hpushed, htaken, hall⟩ :=
    transmission_faithful fifoRun (by simp [fifoRun, StepsMeet, Plain, Steady]; decide)
  obtain ⟨htimed, hsent⟩ := hall (fifoRun.take 3) (fifoRun.drop 3) rfl
  exact ⟨hpushed, htaken, htimed (by decide), hsent (by decide)⟩

end SerialPort

end RustyBox
