-- SUMMARY: What a UART receives stays in sight of the guest, and when its state can be saved.
import RustyBox.Iodev.Serial
import RustyBox.Lib.Reachability
import RustyBox.Lib.BitSet

/-!
# Reception

Every event does one of five things to the receiver. A byte in the FIFO is announced by data-ready
or by the timeout, unless a read or a lower trigger cancels the timeout before data-ready is set.
-/

namespace RustyBox

open Lib Positions

/-- The part of a port that holds what was received. -/
structure Receiver where
  fifo : List (BitVec 8)
  enable : Bool
  rxtrigger : BitVec 8
  timeout : Option Nat
  ready : Bool

/-- What happens to a receiver. -/
inductive RxOp
  | keep
  | enq (data : BitVec 8)
  | pop
  | control (value : BitVec 8)
  | expire

namespace SerialPort

variable (s : SerialPort)

def receiver : Receiver :=
  ⟨s.rxFifo, s.fifoEnable, s.rxtrigger, s.fifoTimeoutDelayUsec, s.lineStatus.rxdataReady⟩

/-- What an event does to the receiver. -/
def rxOp : Event → RxOp
  | .read 0 => if s.lineCntl.dlab then .keep else .pop
  | .write 0 value =>
    if !s.lineCntl.dlab && s.lineStatus.thrEmpty && s.lineStatus.tsrEmpty &&
      s.modemCntl.localLoopback then .enq (s.thrData value) else .keep
  | .write 2 value => .control value
  | .write 3 value => if s.modemCntl.localLoopback && value.getLsbD 6 then .enq 0#8 else .keep
  | .write 4 value =>
    if !s.modemCntl.localLoopback && value.getLsbD 4 && s.lineCntl.breakCntl then .enq 0#8
    else .keep
  | .receive data => if s.rxHasRoom && !s.modemCntl.localLoopback then .enq data else .keep
  | .fifoTimer => .expire
  | _ => .keep

end SerialPort

namespace Receiver

variable (r : Receiver)

def trigger : Nat := rxFifoTriggers.getD r.rxtrigger.toNat 0

def apply (delay : Nat) : RxOp → Receiver
  | .keep => r
  | .enq data =>
    if !r.enable then { r with ready := true }
    else if fifoSize ≤ r.fifo.length then r
    else if r.rxtrigger.toNat = 0 ∨ r.fifo.length + 1 = r.trigger then
      { r with fifo := r.fifo ++ [data], timeout := none, ready := true }
    else { r with fifo := r.fifo ++ [data], timeout := some delay }
  | .pop =>
    if !r.enable then { r with ready := false }
    else { r with fifo := r.fifo.tail, timeout := none, ready := r.ready && !r.fifo.tail.isEmpty }
  | .control value =>
    let fifo := if (!value.getLsbD 0 && r.enable) || value.getLsbD 1 then [] else r.fifo
    let rxtrigger := (value >>> 6) &&& 0x03#8
    let set : Receiver := { r with fifo, rxtrigger, enable := value.getLsbD 0 }
    { set with
      timeout :=
        if !set.enable || fifo.isEmpty || decide (set.trigger ≤ fifo.length) then none
        else r.timeout }
  | .expire =>
    { r with
      timeout := none
      ready := r.ready || (r.timeout.isSome && r.enable && !r.fifo.isEmpty &&
        decide (r.fifo.length < r.trigger)) }

structure Shaped (r : Receiver) : Prop where
  rxtrigger : r.rxtrigger.toNat ≤ 3
  size : r.fifo.length ≤ fifoSize
  off : r.enable = false → r.fifo = [] ∧ r.timeout = none

/-- A timeout that runs while data-ready is clear will find the FIFO below its trigger. -/
structure Sound (r : Receiver) : Prop extends r.Shaped where
  below : r.ready = false → r.timeout ≠ none → r.fifo.length < r.trigger

/-- A byte that waits is announced, or its timeout runs. -/
def Seen (r : Receiver) : Prop := r.fifo ≠ [] → r.ready = true ∨ r.timeout ≠ none

/-- Nothing cancels the timeout of bytes that are not announced. -/
def Keeps (r : Receiver) : RxOp → Prop
  | .pop => r.enable = true → r.ready = true ∨ r.fifo.length ≤ 1
  | .control value =>
    value.getLsbD 0 = true → value.getLsbD 1 = false →
      r.ready = true ∨ r.fifo = [] ∨
        r.fifo.length < rxFifoTriggers.getD ((value >>> 6) &&& 0x03#8).toNat 0
  | _ => True

section

variable {r : Receiver}

theorem Shaped.trigger_cases (hr : r.Shaped) :
    r.rxtrigger.toNat = 0 ∧ r.trigger = 1 ∨ r.rxtrigger.toNat ≠ 0 ∧ 1 < r.trigger := by
  unfold trigger
  match r.rxtrigger.toNat, hr.rxtrigger with
  | 0, _ | 1, _ | 2, _ | 3, _ => simp [rxFifoTriggers]

theorem Shaped.apply (hr : r.Shaped) (delay : Nat) (op : RxOp) : (r.apply delay op).Shaped := by
  obtain ⟨hrxtrigger, hsize, hoff⟩ := hr
  cases op with
  | keep => exact ⟨hrxtrigger, hsize, hoff⟩
  | enq data =>
    simp only [Receiver.apply]
    repeat' split
    · exact ⟨hrxtrigger, hsize, hoff⟩
    · exact ⟨hrxtrigger, hsize, hoff⟩
    all_goals exact { rxtrigger := hrxtrigger, size := by grind, off := by grind }
  | pop =>
    simp only [Receiver.apply]
    split
    · exact ⟨hrxtrigger, hsize, hoff⟩
    · exact { rxtrigger := hrxtrigger, size := by grind, off := by grind }
  | control value =>
    constructor
    case rxtrigger =>
      show (value >>> 6 &&& 0x03#8).toNat ≤ 3
      exact Nat.and_le_right
    case size =>
      simp only [Receiver.apply]
      grind
    case off =>
      simp only [Receiver.apply]
      grind
  | expire => exact ⟨hrxtrigger, hsize, fun henable => ⟨(hoff henable).1, rfl⟩⟩

theorem Sound.apply (hr : r.Sound) (hseen : r.Seen) (delay : Nat) (op : RxOp) :
    (r.apply delay op).Sound := by
  refine ⟨hr.toShaped.apply delay op, ?_⟩
  have htrigger := hr.trigger_cases
  obtain ⟨⟨_, _, hoff⟩, hbelow⟩ := hr
  cases op with
  | keep => exact hbelow
  | enq data =>
    simp only [Receiver.apply]
    repeat' split
    · nofun
    · exact hbelow
    · nofun
    · by_cases htimeout : r.timeout = none
      · -- neither announced nor timed, the FIFO was empty
        grind [Seen, trigger]
      · grind [trigger]
  | pop =>
    simp only [Receiver.apply]
    grind
  | control value =>
    simp only [Receiver.apply]
    grind
  | expire => exact fun _ htimeout => absurd rfl htimeout

theorem seen_apply_iff (hr : r.Sound) (hseen : r.Seen) (delay : Nat) (op : RxOp) :
    (r.apply delay op).Seen ↔ r.Keeps op := by
  obtain ⟨⟨_, _, hoff⟩, hbelow⟩ := hr
  cases op with
  | keep => exact iff_true_intro hseen
  | enq data =>
    simp only [Receiver.apply, Keeps]
    grind [Seen]
  | pop =>
    simp only [Receiver.apply, Keeps, Seen]
    cases hfifo : r.fifo with
    | nil => grind
    | cons byte rest =>
      cases rest with
      | nil => grind
      | cons next rest => grind
  | control value =>
    simp only [Receiver.apply, Keeps, trigger]
    grind [Seen]
  | expire =>
    simp only [Receiver.apply, Keeps]
    grind [Seen, Option.isSome_iff_ne_none]

end

end Receiver

namespace SerialPort

variable {s : SerialPort}

theorem receiver_rxFifoEnq (htrigger : s.rxtrigger.toNat ≤ 3) (data : BitVec 8) :
    (s.rxFifoEnq data).receiver = s.receiver.apply (s.databyteUsec * 3) (.enq data) := by
  have hreach (level : Nat) :
      s.reachesTrigger level = decide (s.rxtrigger.toNat = 0 ∨ level = s.trigger) := by
    unfold reachesTrigger trigger
    match s.rxtrigger.toNat, htrigger with
    | 0, _ | 1, _ | 2, _ | 3, _ => simp [rxFifoTriggers, BEq.beq]
  rw [rxFifoEnq]
  cases henable : s.fifoEnable with
  | false =>
    simp [Receiver.apply, receiver, raiseInterrupt]
    split <;> simp [*]
  | true =>
    simp [Receiver.apply, receiver, Receiver.trigger, ringPush]
    grind [raiseInterrupt, SerialPort.trigger]

section

variable (htrigger : s.rxtrigger.toNat ≤ 3)
include htrigger

theorem receiver_loopBreak (looped : Bool) :
    (s.loopBreak looped).receiver =
      s.receiver.apply (s.databyteUsec * 3) (if looped then .enq 0#8 else .keep) := by
  cases looped with
  | false => rfl
  | true => exact receiver_rxFifoEnq (by exact htrigger) 0#8

omit htrigger in
theorem receiver_updateTiming : s.updateTiming.receiver = s.receiver := by
  rw [updateTiming]
  split <;> rfl

theorem receiver_writeThr (value : BitVec 8) :
    (s.writeThr value).receiver =
      s.receiver.apply (s.databyteUsec * 3)
        (if s.lineStatus.thrEmpty && s.lineStatus.tsrEmpty && s.modemCntl.localLoopback then
          .enq (s.thrData value) else .keep) := by
  have hheld (t : SerialPort) (data : BitVec 8) : (t.holdByte data).receiver = t.receiver := by
    rw [holdByte]
    split <;> rfl
  have hshifted (t : SerialPort) : t.shiftByte.receiver = t.receiver := by
    rw [shiftByte]
    repeat' split
    all_goals rfl
  rw [writeThr]
  cases hthr : s.lineStatus.thrEmpty with
  | false =>
    simp only [Bool.false_eq_true, if_false]
    split <;> rfl
  | true =>
    cases htsr : s.lineStatus.tsrEmpty with
    | false => exact hheld s _
    | true =>
      cases hloop : s.modemCntl.localLoopback with
      | false =>
        simp only [Bool.false_eq_true, if_false, if_true]
        split <;> exact (hshifted _).trans (hheld s _)
      | true =>
        -- in loopback the byte goes through the holding register
        have hbyte : (s.holdByte (s.thrData value)).shiftByte =
            { s with
              thrbuffer := s.thrData value
              tsrbuffer := s.thrData value
              lineStatus.thrEmpty := true } := by
          simp [holdByte, shiftByte, usesTxFifo, hloop]
        simp only [hbyte]
        exact receiver_rxFifoEnq (by exact htrigger) _

theorem receiver_writeLcr (value : BitVec 8) :
    (s.writeLcr value).receiver =
      s.receiver.apply (s.databyteUsec * 3)
        (if s.modemCntl.localLoopback && value.getLsbD 6 then .enq 0#8 else .keep) := by
  simp only [writeLcr]
  split
  · rw [receiver_updateTiming]
    exact receiver_loopBreak (by exact htrigger) _
  · exact receiver_loopBreak (by exact htrigger) _

theorem receiver_writeMcr (value : BitVec 8) :
    (s.writeMcr value).receiver =
      s.receiver.apply (s.databyteUsec * 3)
        (if !s.modemCntl.localLoopback && value.getLsbD 4 && s.lineCntl.breakCntl then .enq 0#8
          else .keep) := by
  simp only [writeMcr]
  have hset : (s.setMcr (.ofByte value)).receiver = s.receiver.apply (s.databyteUsec * 3) _ :=
    receiver_loopBreak (by exact htrigger) _
  split
  · refine Eq.trans ?_ hset
    rfl
  · split
    · refine Eq.trans ?_ hset
      rfl
    · exact hset

theorem receiver_step (e : Event) :
    (s.step e).receiver = s.receiver.apply (s.databyteUsec * 3) (s.rxOp e) := by
  cases e with
  | read reg =>
    match reg with
    | 0 =>
      show (s.read 0).2.receiver = _
      simp [read, rxOp, Receiver.apply, readRbr, lowerInterrupt, receiver]
      grind
    | 1 => simp [step, read, rxOp, Receiver.apply]; grind
    | 2 | 3 | 4 | 5 | 6 | 7 => rfl
  | write reg value =>
    match reg with
    | 0 =>
      show (if s.lineCntl.dlab then _ else _ : SerialPort).receiver = _
      split
      · simp [*, rxOp]
        rfl
      · simp [*, rxOp, receiver_writeThr htrigger]
    | 1 =>
      show (if s.lineCntl.dlab then _ else _ : SerialPort).receiver = _
      split
      · rfl
      · simp only [writeIer]
        repeat' split
        all_goals rfl
    | 2 =>
      show (s.writeFcr value).receiver = _
      simp [writeFcr, rxOp, Receiver.apply, receiver]
      grind [Receiver.trigger, trigger]
    | 3 => exact receiver_writeLcr htrigger value
    | 4 => exact receiver_writeMcr htrigger value
    | 5 | 6 | 7 => rfl
  | receive data =>
    simp [step, receiveByte, rxOp]
    split
    · simp [*, Receiver.apply]
    · split
      · simp [*, Receiver.apply]
      · simp [*, receiver_rxFifoEnq htrigger]
  | fifoTimer =>
    simp [step, fifoTimerFired, rxOp, Receiver.apply, receiver]
    grind [raiseInterrupt, Receiver.trigger, trigger]
  | txTimer =>
    simp only [step, txTimerFired, reload]
    repeat' split
    all_goals rfl
  | drain => rfl

end

/-! ## In sight of the guest -/

/-- Data-ready is set, and the interrupt raised if it is enabled. -/
def Announced (s : SerialPort) : Prop :=
  s.lineStatus.rxdataReady = true ∧
    (s.intEnable.rxdata = true → s.ints.rx = true ∨ s.ints.fifo = true)

/-- What is received is announced, or its timeout runs and announces it when it expires. -/
def InSight (s : SerialPort) : Prop :=
  s.rxFifo ≠ [] → s.Announced ∨ (s.fifoTimeoutDelayUsec ≠ none ∧ s.fifoTimerFired.Announced)

/-- The event cancels no timeout of bytes that are not announced. -/
def KeepsSight (s : SerialPort) (e : Event) : Prop := s.receiver.Keeps (s.rxOp e)

/-- Data-ready has its interrupt, raised or waiting for the enable bit. -/
def Flagged (s : SerialPort) : Prop :=
  s.lineStatus.rxdataReady = true →
    if s.intEnable.rxdata then s.ints.rx = true ∨ s.ints.fifo = true
    else s.ints.rxPending = true ∨ s.ints.fifoPending = true

theorem Flagged.raiseInterrupt (h : s.Flagged) (source : IntSource) :
    (s.raiseInterrupt source).Flagged := by
  cases source with
  | rxData | fifo => grind [Flagged, SerialPort.raiseInterrupt, raised]
  | ier | txHold | rxLstat | modStat =>
    -- the flags of received data stay as they are
    grind [Flagged, SerialPort.raiseInterrupt, raised]

theorem Flagged.rxFifoEnq (h : s.Flagged) (data : BitVec 8) : (s.rxFifoEnq data).Flagged := by
  grind [Flagged, SerialPort.rxFifoEnq, SerialPort.raiseInterrupt, raised]

theorem Flagged.writeThr (h : s.Flagged) (value : BitVec 8) : (s.writeThr value).Flagged := by
  have hheld (t : SerialPort) (ht : t.Flagged) (data : BitVec 8) : (t.holdByte data).Flagged := by
    rw [holdByte]
    split <;> exact ht
  have hshifted (t : SerialPort) (ht : t.Flagged) : t.shiftByte.Flagged := by
    rw [shiftByte]
    repeat' split
    all_goals exact ht
  have htold (t : SerialPort) (ht : t.Flagged) :
      (if t.lineStatus.thrEmpty then t.raiseInterrupt .txHold else t).Flagged := by
    split
    · exact ht.raiseInterrupt .txHold
    · exact ht
  simp only [SerialPort.writeThr]
  split
  · split
    · have hshift := htold _ (hshifted _ (hheld s h (s.thrData value)))
      split
      · exact Flagged.rxFifoEnq (by exact hshift) _
      · exact hshift
    · exact hheld s h _
  · split <;> exact h

theorem flags_switchEnable : ∀ old new raised pending raised' pending' : Bool,
    (if old then raised = true ∨ raised' = true else pending = true ∨ pending' = true) →
      if new then (switchEnable old new raised pending).raised = true ∨
        (switchEnable old new raised' pending').raised = true
      else (switchEnable old new raised pending).pending = true ∨
        (switchEnable old new raised' pending').pending = true := by
  decide

theorem Flagged.loopBreak (h : s.Flagged) (looped : Bool) : (s.loopBreak looped).Flagged := by
  cases looped with
  | false => exact h
  | true => exact Flagged.rxFifoEnq (by exact h) _

theorem Flagged.write (h : s.Flagged) (reg : Fin 8) (value : BitVec 8) :
    (s.write reg value).Flagged := by
  match reg with
  | 0 =>
    simp only [SerialPort.write]
    split
    · exact h
    · exact h.writeThr value
  | 1 =>
    simp only [SerialPort.write, writeIer]
    repeat' split
    · exact h
    all_goals exact fun hready => flags_switchEnable _ _ _ _ _ _ (h hready)
  | 2 =>
    simp only [SerialPort.write, writeFcr]
    repeat' split
    all_goals exact h
  | 3 =>
    simp only [SerialPort.write, writeLcr, updateTiming]
    repeat' split
    all_goals exact Flagged.loopBreak (by exact h) _
  | 4 =>
    simp only [SerialPort.write, writeMcr]
    have hset : (s.setMcr (.ofByte value)).Flagged := Flagged.loopBreak (by exact h) _
    repeat' split
    · exact Flagged.raiseInterrupt (by exact hset) _
    all_goals exact hset
  | 5 | 6 | 7 => exact h

theorem Flagged.step (h : s.Flagged) (e : Event) : (s.step e).Flagged := by
  cases e with
  | read reg =>
    match reg with
    | 0 =>
      show (s.read 0).2.Flagged
      grind [Flagged, read, readRbr, lowerInterrupt]
    | 1 =>
      show (s.read 1).2.Flagged
      grind [read]
    | 2 | 3 | 4 | 5 | 6 | 7 => exact h
  | write reg value => exact h.write reg value
  | receive data =>
    simp only [SerialPort.step, receiveByte]
    repeat' split
    · exact h
    · exact h
    · exact h.rxFifoEnq data
  | fifoTimer =>
    grind [Flagged, SerialPort.step, fifoTimerFired, SerialPort.raiseInterrupt, raised]
  | txTimer =>
    have hdrained (t : SerialPort) (ht : t.Flagged) : t.thrDrained.Flagged :=
      Flagged.raiseInterrupt (by exact ht) .txHold
    simp only [SerialPort.step, txTimerFired, reload]
    split
    · exact h
    · split
      · split
        · exact hdrained _ h
        · exact h
      · split
        · exact hdrained _ h
        · exact h
  | drain => exact h

theorem inSight_iff (hs : s.receiver.Sound) (hflagged : s.Flagged) :
    s.InSight ↔ s.receiver.Seen := by
  constructor
  · intro h hfifo
    exact (h hfifo).imp (·.1) (·.1)
  · intro h hfifo
    cases hready : s.lineStatus.rxdataReady with
    | true =>
      refine .inl ⟨hready, fun henabled => ?_⟩
      simpa [henabled] using hflagged hready
    | false =>
      have htimeout : s.fifoTimeoutDelayUsec ≠ none :=
        (h hfifo).resolve_left (by simp [receiver, hready])
      have hbelow : s.rxFifo.length < s.trigger := hs.below hready htimeout
      have henable : s.fifoEnable = true := by
        by_contra hoff
        exact hfifo (hs.off (Bool.eq_false_iff.mpr hoff)).1
      grind [Announced, fifoTimerFired, SerialPort.raiseInterrupt, raised,
        Option.isSome_iff_ne_none]

/-- Along every run, what the FIFO holds stays in sight exactly if no event cancels the timeout of
bytes that are not announced. -/
theorem received_inSight_iff (events : List Event) :
    (∀ s ∈ events.scanl SerialPort.step {}, s.InSight) ↔
      StepsMeet SerialPort.step KeepsSight {} events := by
  have hsound : ({} : SerialPort).receiver.Sound :=
    ⟨⟨by decide, by decide, fun _ => ⟨rfl, rfl⟩⟩, nofun⟩
  have hflagged : ({} : SerialPort).Flagged := nofun
  refine forall_scanl_iff_stepsMeet_of_inv (I := fun s => s.receiver.Sound ∧ s.Flagged)
    (fun s e hs h => ?_) (fun s e hs h => ?_) ⟨hsound, hflagged⟩ (fun h => absurd rfl h) events
  · rw [receiver_step hs.1.rxtrigger]
    exact ⟨hs.1.apply ((inSight_iff hs.1 hs.2).mp h) _ _, hs.2.step e⟩
  · have hseen := (inSight_iff hs.1 hs.2).mp h
    have hnext : (s.step e).receiver.Sound := by
      rw [receiver_step hs.1.rxtrigger]
      exact hs.1.apply hseen _ _
    rw [inSight_iff hnext (hs.2.step e), receiver_step hs.1.rxtrigger]
    exact Receiver.seen_apply_iff hs.1 hseen _ _

/-- Two bytes below the trigger, of which one is read. -/
def readOfTwo : List Event := [.write 2 0x41#8, .receive 0x61#8, .receive 0x62#8, .read 0]

theorem readOfTwo_strands :
    let s := readOfTwo.foldl SerialPort.step {}
    s.rxFifo = [0x62#8] ∧ s.lineStatus.rxdataReady = false ∧ s.fifoTimeoutDelayUsec = none := by
  decide

end SerialPort

end RustyBox
