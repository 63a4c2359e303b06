-- SUMMARY: Which states of a UART can be saved, and which events lead out of them.
import RustyBox.Iodev.SerialReceive
import RustyBox.Iodev.SerialTransmit

/-!
# Saving a UART

The validator wants a divisor that gives a baud rate and a timeout that runs below the trigger. The
guest writes the divisor in two halves, and a byte received above the trigger starts the timeout.
-/

namespace RustyBox

open Lib Receiver

namespace Receiver

variable {r : Receiver}

/-- The timeout runs only below the trigger. -/
def Waiting (r : Receiver) : Prop := r.timeout ≠ none → r.fifo ≠ [] ∧ r.fifo.length < r.trigger

/-- A byte is not received above the trigger. -/
def Announces (r : Receiver) : RxOp → Prop
  | .enq _ =>
    r.enable = true → r.fifo.length < fifoSize → r.rxtrigger.toNat = 0 ∨ r.fifo.length < r.trigger
  | _ => True

theorem waiting_apply_iff (hr : r.Shaped) (hwaiting : r.Waiting) (delay : Nat) (op : RxOp) :
    (r.apply delay op).Waiting ↔ r.Announces op := by
  obtain ⟨_, _, hoff⟩ := hr
  cases op with
  | keep => exact iff_true_intro hwaiting
  | enq data =>
    simp only [apply, Announces, Waiting]
    grind [Waiting, trigger]
  | pop =>
    simp only [apply, Announces, Waiting]
    grind
  | control value =>
    simp only [apply, Announces, Waiting, trigger]
    grind [Waiting, trigger]
  | expire =>
    simp only [apply, Announces, Waiting]
    grind

theorem timeout_apply (hr : r.timeout ≠ some 0) {delay : Nat} (hdelay : delay ≠ 0) (op : RxOp) :
    (r.apply delay op).timeout ≠ some 0 := by
  cases op <;> simp only [apply] <;> grind

end Receiver

/-- The divisor latch. -/
def LineTiming.divisor (l : LineTiming) : Nat := l.divisorLsb.toNat + 256 * l.divisorMsb.toNat

theorem LineTiming.divisor_ne_zero_iff {l : LineTiming} :
    l.divisor ≠ 0 ↔ l.divisorLsb ≠ 0#8 ∨ l.divisorMsb ≠ 0#8 := by
  simp only [LineTiming.divisor, BitVec.toNat_eq, ne_eq, BitVec.toNat_ofNat, Nat.zero_mod]
  omega

structure LineTiming.Shaped (l : LineTiming) : Prop where
  wordlen : l.lineCntl.wordlenSel.toNat ≤ 3
  timed : 0 < l.databyteUsec
  ident : l.intId = 0

theorem baudrate_pos (lsb msb : BitVec 8) (h : lsb.toNat + 256 * msb.toNat ≠ 0) :
    0 < 1843200 / ((lsb.toNat + 256 * msb.toNat) * 16) := by
  have hlsb := lsb.isLt
  have hmsb := msb.isLt
  exact Nat.div_pos (by omega) (by omega)

theorem serialTiming_eq {lsb msb wordlenSel : BitVec 8} (h : wordlenSel.toNat ≤ 3) :
    serialTimingFromRegisters lsb msb wordlenSel =
      if lsb.toNat + 256 * msb.toNat = 0 then none
      else
        let baudrate := 1843200 / ((lsb.toNat + 256 * msb.toNat) * 16)
        some (baudrate, 1000000 * (wordlenSel.toNat + 7) / baudrate) := by
  simp only [serialTimingFromRegisters, if_neg (Nat.not_lt.mpr h)]
  split
  · rfl
  · next hdivisor => exact if_neg (Nat.pos_iff_ne_zero.mp (baudrate_pos lsb msb hdivisor))

theorem LineTiming.Shaped.retime {l : LineTiming} (h : l.Shaped) : l.retime.Shaped := by
  refine ⟨h.wordlen, ?_, h.ident⟩
  rw [LineTiming.retime, serialTiming_eq h.wordlen]
  split
  · exact h.timed
  · next hdivisor =>
    have hslow : 1843200 / ((l.divisorLsb.toNat + 256 * l.divisorMsb.toNat) * 16) ≤ 1843200 / 16 :=
      Nat.div_le_div_left (by omega) (by decide)
    exact Nat.div_pos (by omega) (baudrate_pos _ _ hdivisor)

namespace SerialPort

variable {s : SerialPort}

structure Shaped (s : SerialPort) : Prop where
  receiver : s.receiver.Shaped
  delay : s.fifoTimeoutDelayUsec ≠ some 0
  transmitter : s.transmitter.Shaped
  line : s.line.Shaped

theorem validateFifoTimeoutState_iff (hs : s.Shaped) :
    s.validateFifoTimeoutState = .ok () ↔ s.receiver.Waiting := by
  have hrxtrigger : ¬ rxFifoTriggers.length ≤ s.rxtrigger.toNat :=
    Nat.not_le.mpr (Nat.lt_succ_of_le hs.receiver.rxtrigger)
  have hoff := hs.receiver.off
  have hdelay := hs.delay
  rw [validateFifoTimeoutState]
  split
  · next htimeout => simp [Waiting, receiver, htimeout]
  · next delay htimeout =>
    simp only [check_bind_eq_ok, failIf_eq_ok, Waiting]
    simp only [receiver, Receiver.trigger] at *
    grind [trigger]

theorem validateForSnapshot_iff (hs : s.Shaped) :
    s.validateForSnapshot = .ok () ↔ s.line.divisor ≠ 0 ∧ s.receiver.Waiting := by
  rw [← validateFifoTimeoutState_iff hs]
  obtain ⟨⟨hrxtrigger, hrx, hoff⟩, _, ⟨_, htxoff, htx, hout⟩, ⟨hword, _, hident⟩⟩ := hs
  have htiming : serialTimingFromRegisters s.divisorLsb s.divisorMsb s.lineCntl.wordlenSel = _ :=
    serialTiming_eq hword
  simp only [validateForSnapshot, validateSerialRingLen, check_bind_eq_ok, failIf_eq_ok, htiming,
    show s.intId = 0 from hident]
  simp only [receiver, transmitter] at *
  grind [line, LineTiming.divisor, fifoSize, txOutputCapacity]

/-- A write of one half of the divisor latch leaves it nonzero. -/
def KeepsDivisor (s : SerialPort) : Event → Prop
  | .write 0 value => s.lineCntl.dlab = true → value ≠ 0#8 ∨ s.divisorMsb ≠ 0#8
  | .write 1 value => s.lineCntl.dlab = true → value ≠ 0#8 ∨ s.divisorLsb ≠ 0#8
  | _ => True

/-- The event leaves a divisor, and receives no byte above the trigger. -/
def StaysSavable (s : SerialPort) (e : Event) : Prop :=
  s.KeepsDivisor e ∧ s.receiver.Announces (s.rxOp e)

theorem line_step (hs : s.transmitter.Shaped) (e : Event) :
    (s.step e).line = (s.unreceivedStep e).2 :=
  congrArg Prod.snd (unreceived_step hs e)

theorem divisor_step_iff (hs : s.Shaped) (h : s.line.divisor ≠ 0) (e : Event) :
    (s.step e).line.divisor ≠ 0 ↔ s.KeepsDivisor e := by
  rw [line_step hs.transmitter]
  unfold unreceivedStep
  split
  · simp only [KeepsDivisor]
    split
    · simp [*, LineTiming.divisor_ne_zero_iff, line]
    · simp [*]
  · simp only [KeepsDivisor]
    split
    · simp [*, LineTiming.divisor_ne_zero_iff, line, or_comm]
    · simp [*]
  · exact iff_of_true h trivial
  · simp only [KeepsDivisor, iff_true]
    split <;> exact h
  iterate 3 exact iff_of_true h trivial
  · refine iff_of_true h ?_
    unfold KeepsDivisor
    split <;> simp_all

theorem Shaped.step (hs : s.Shaped) (e : Event) : (s.step e).Shaped := by
  obtain ⟨hreceiver, hdelay, htransmitter, hline⟩ := hs
  refine ⟨?_, ?_, ?_, ?_⟩
  · rw [receiver_step hreceiver.rxtrigger]
    exact hreceiver.apply _ _
  · have htimed : s.databyteUsec * 3 ≠ 0 :=
      Nat.mul_ne_zero (Nat.pos_iff_ne_zero.mp hline.timed) (by decide)
    show (s.step e).receiver.timeout ≠ some 0
    rw [receiver_step hreceiver.rxtrigger]
    exact timeout_apply hdelay htimed _
  · rw [transmitter_step htransmitter]
    unfold unreceivedStep
    split
    · split
      · exact htransmitter
      · exact htransmitter.send _ _
    · exact htransmitter
    · exact htransmitter.control _
    · exact htransmitter
    · exact ⟨htransmitter.held, htransmitter.off, htransmitter.size, htransmitter.output⟩
    · exact htransmitter.expire _
    · exact ⟨htransmitter.held, htransmitter.off, htransmitter.size, Nat.zero_le _⟩
    · exact htransmitter
  · rw [line_step htransmitter]
    have hlatch (lsb msb : BitVec 8) :
        LineTiming.Shaped { s.line with divisorLsb := lsb, divisorMsb := msb } :=
      ⟨hline.wordlen, hline.timed, hline.ident⟩
    unfold unreceivedStep
    split
    · split <;> exact hlatch _ _
    · show LineTiming.Shaped (if _ then _ else _)
      split <;> exact hlatch _ _
    · exact hline
    · next value =>
      have hmask : (value &&& 0x03#8).toNat ≤ 3 := by
        rw [BitVec.toNat_and]
        exact Nat.and_le_right
      have hset : LineTiming.Shaped { s.line with lineCntl := .ofByte value } :=
        ⟨hmask, hline.timed, hline.ident⟩
      show LineTiming.Shaped (if _ then _ else _)
      split
      · exact hset.retime
      · exact hset
    all_goals exact hline

/-- Along every run, the port can be saved exactly if no event zeroes the divisor latch or receives
a byte above the trigger. -/
theorem savable_iff (events : List Event) :
    (∀ s ∈ events.scanl SerialPort.step {}, s.validateForSnapshot = .ok ()) ↔
      StepsMeet SerialPort.step StaysSavable {} events := by
  have hstart : ({} : SerialPort).Shaped := by
    refine ⟨⟨by decide, by decide, fun _ => ⟨rfl, rfl⟩⟩, nofun, ?_, by decide, by decide, rfl⟩
    exact ⟨fun _ => rfl, fun _ => rfl, by decide, by decide⟩
  refine forall_scanl_iff_stepsMeet_of_inv (fun s e hs _ => hs.step e) (fun s e hs h => ?_) hstart
    (by decide) events
  rw [validateForSnapshot_iff hs] at h
  rw [validateForSnapshot_iff (hs.step e), divisor_step_iff hs h.1,
    receiver_step hs.receiver.rxtrigger, waiting_apply_iff hs.receiver h.2]
  rfl

/-- The divisor latch is cleared. -/
theorem zeroDivisor_unsavable :
    (([.write 3 0x80#8, .write 0 0x00#8] : List Event).foldl step {}).validateForSnapshot =
      .error (.invalid "serial divisor or line format is invalid") := by
  decide

end SerialPort

end RustyBox
