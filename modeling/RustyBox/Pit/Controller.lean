-- SUMMARY: The PIT: three counters behind its ports, moved by absolute clock readings.
import RustyBox.Pit.Counter
import Mathlib.Logic.Function.Basic

/-!
# The PIT

`BxPitC` without a host clock. Time comes as a reading of the emulated clock together with its
rate. Each access first moves the counters to the microsecond of the reading, in whole PIT
clocks; the part of a clock that is left is carried in `pitUsecAccumulator`.
-/

namespace RustyBox

open Lib BitVec

/-! ## The clock -/

/-- Ticks per second, never 0. -/
structure ClockHz where
  hz : BitVec 64
  hz_ne_zero : hz ≠ 0#64

def saturate (value : Nat) : BitVec 64 :=
  if 2 ^ 64 - 1 < value then allOnes 64 else BitVec.ofNat 64 value

theorem toNat_saturate (value : Nat) : (saturate value).toNat = min value (2 ^ 64 - 1) := by
  rw [saturate]
  split
  next hbig =>
    rw [toNat_allOnes]
    omega
  next hsmall =>
    rw [toNat_ofNat]
    omega

structure MicrosPhase where
  micros : BitVec 64
  remainder : Nat

/-- A reading of the clock. -/
structure VmClock where
  now : BitVec 64
  rate : ClockHz

def VmClock.micros (clock : VmClock) : BitVec 64 :=
  saturate (clock.now.toNat * 1000000 / clock.rate.hz.toNat)

def VmClock.microsPhase (clock : VmClock) : MicrosPhase where
  micros := saturate (clock.now.toNat * 1000000 / clock.rate.hz.toNat)
  remainder := clock.now.toNat * 1000000 % clock.rate.hz.toNat

/-- `ticks_from_micros_ceil` before it saturates: rounded up, and never 0. -/
def ClockHz.ceilTicks (rate : ClockHz) (micros : BitVec 64) : Nat :=
  let ticks := (micros.toNat * rate.hz.toNat + 999999) / 1000000
  if ticks = 0 then 1 else ticks

def ClockHz.ticksFromMicrosCeil (rate : ClockHz) (micros : BitVec 64) : BitVec 64 :=
  saturate (rate.ceilTicks micros)

def clockReadingMicros (rate : ClockHz) (usec : BitVec 64) : VmClock :=
  ⟨rate.ticksFromMicrosCeil usec, rate⟩

namespace ClockHz

variable (rate : ClockHz) (usec : BitVec 64)

theorem hz_pos : 0 < rate.hz.toNat :=
  Nat.pos_of_ne_zero fun h => rate.hz_ne_zero (eq_of_toNat_eq h)

/-- The rounded-up tick is the first one, tick 0 apart, that is not before the microsecond. -/
theorem ceilTicks_le_iff {tick : Nat} :
    rate.ceilTicks usec ≤ tick ↔ 0 < tick ∧ usec.toNat * rate.hz.toNat ≤ tick * 1000000 := by
  unfold ceilTicks
  dsimp only
  split <;> omega

/-- Where a tick lies within the microsecond; the last microsecond is read at saturation. -/
def TickWithin : Prop :=
  usec = allOnes 64 ∨ ∃ tick > 0, usec.toNat * rate.hz.toNat ≤ tick * 1000000 ∧
    tick * 1000000 < (usec.toNat + 1) * rate.hz.toNat

variable {rate usec}

theorem micros_clockReadingMicros_iff (hfits : rate.ceilTicks usec < 2 ^ 64) :
    (clockReadingMicros rate usec).micros = usec ↔ rate.TickWithin usec := by
  obtain ⟨hpos, hle⟩ := (rate.ceilTicks_le_iff usec).mp (Nat.le_refl _)
  have hread : usec.toNat ≤ rate.ceilTicks usec * 1000000 / rate.hz.toNat :=
    (Nat.le_div_iff_mul_le rate.hz_pos).mpr hle
  have hlast : usec = allOnes 64 ↔ usec.toNat = 2 ^ 64 - 1 := by
    rw [← toNat_inj, toNat_allOnes]
  rw [VmClock.micros, clockReadingMicros, ticksFromMicrosCeil, toNat_saturate,
    Nat.min_eq_left (Nat.le_sub_one_of_lt hfits), ← toNat_inj, toNat_saturate, TickWithin, hlast]
  -- the reading is never below the microsecond, so it is the microsecond or past its end
  have hexact : rate.ceilTicks usec * 1000000 / rate.hz.toNat ≤ usec.toNat ↔
      ∃ tick > 0, usec.toNat * rate.hz.toNat ≤ tick * 1000000 ∧
        tick * 1000000 < (usec.toNat + 1) * rate.hz.toNat := by
    rw [← Nat.lt_add_one_iff, Nat.div_lt_iff_lt_mul rate.hz_pos]
    refine ⟨fun h => ⟨_, hpos, hle, h⟩, fun ⟨tick, htick, hafter, hbefore⟩ => ?_⟩
    have hfirst := (rate.ceilTicks_le_iff usec).mpr ⟨htick, hafter⟩
    exact Nat.lt_of_le_of_lt (Nat.mul_le_mul_right _ hfirst) hbefore
  rw [← hexact]
  dsimp only
  omega

end ClockHz

/-- A clock that is set to a microsecond reads it back exactly when one of its ticks lies within
the microsecond. For every microsecond that is so exactly when it runs above 1 MHz. -/
theorem clock_reading_exact_iff (rate : ClockHz) :
    (∀ usec, rate.ceilTicks usec < 2 ^ 64 →
      ((clockReadingMicros rate usec).micros = usec ↔ rate.TickWithin usec)) ∧
    ((∀ usec, rate.ceilTicks usec < 2 ^ 64 → (clockReadingMicros rate usec).micros = usec) ↔
      1000000 < rate.hz.toNat) := by
  refine ⟨fun _ => ClockHz.micros_clockReadingMicros_iff, fun h => ?_, fun hrate usec hfits => ?_⟩
  · -- 0 is rounded up to the first tick, which must lie within the first microsecond
    have hone : rate.ceilTicks 0#64 = 1 := by simp [ClockHz.ceilTicks]
    have hfits : rate.ceilTicks 0#64 < 2 ^ 64 := by rw [hone]; decide
    obtain hlast | ⟨tick, htick, -, hbefore⟩ :=
      (ClockHz.micros_clockReadingMicros_iff hfits).mp (h 0#64 hfits)
    · exact absurd hlast (by decide)
    · simp only [toNat_ofNat, Nat.zero_mod, Nat.zero_add, Nat.one_mul] at hbefore
      omega
  · -- the tick is less than a tick above the microsecond, so it is below the next one
    obtain ⟨hpos, hle⟩ := (rate.ceilTicks_le_iff usec).mp (Nat.le_refl _)
    refine (ClockHz.micros_clockReadingMicros_iff hfits).mpr (.inr ⟨_, hpos, hle, ?_⟩)
    rw [Nat.add_one_mul]
    unfold ClockHz.ceilTicks
    dsimp only
    split <;> omega

def halfMegahertz : ClockHz := ⟨500000#64, by decide⟩

/-- At 500 kHz a clock set to 1 reads 2. -/
theorem slow_clock_misread : halfMegahertz.ceilTicks 1#64 < 2 ^ 64 ∧
    (clockReadingMicros halfMegahertz 1#64).micros = 2#64 := by
  decide

/-! ## The device -/

def ticksPerSecond : Nat := 1193181

def usecPerSecond : Nat := 1000000

/-- The counters of power-on: only counter 0 has a handler on its output. -/
def powerOnCounters : Fin 3 → PitCounter
  | 0 => { outHandlerAttached := true }
  | _ => {}

structure BxPitC where
  counters : Fin 3 → PitCounter := powerOnCounters
  irqEnabled : Bool := true
  totalTicks : BitVec 64 := 0#64
  timerHandle : Option (BitVec 64) := none
  speakerDataOn : Bool := false
  speakerActive : Bool := false
  speakerLevel : Bool := false
  ips : BitVec 64 := 0#64
  icountAtLastSync : BitVec 64 := 0#64
  totalUsec : BitVec 64 := 0#64
  usecRemainder : Nat := 0
  pitUsecAccumulator : Nat := 0

structure PitTimerCallback where
  irq0Transitions : BitVec 32
  irq0Level : Bool
  rearmUsec : Option Nat

namespace BxPitC

variable (s : BxPitC) (ticksDelta : Nat)

/-- `init` keeps the rate and the timer. -/
def init : BxPitC := { timerHandle := s.timerHandle, ips := s.ips }

def new : BxPitC := init {}

section

variable (s : BxPitC)

/-! ### Time -/

/-- A counter 0 without a change ahead hides the changes of the others. -/
def getNextEventTime : BitVec 32 :=
  let time1 := (s.counters 1).nextChangeTime
  let time2 := (s.counters 2).nextChangeTime
  let out := (s.counters 0).nextChangeTime
  let out := if time1 ≠ 0#32 ∧ time1 < out then time1 else out
  if time2 ≠ 0#32 ∧ time2 < out then time2 else out

def nextEventUsec : Option Nat :=
  let eventTicks := s.getNextEventTime
  if eventTicks = 0#32 then none
  else some (max (eventTicks.toNat * usecPerSecond / ticksPerSecond) 1)

end

def maxChunk : Nat := 0x3FFFFFFF

/-- The clocks that one pass of `clockPitTicks` takes. -/
def timeDelta : Nat :=
  let maxchange := s.getNextEventTime.toNat
  if maxchange = 0 ∨ ticksDelta < maxchange then min ticksDelta maxChunk else maxchange

def clockPitPass : BxPitC × Nat :=
  let timedelta := s.timeDelta ticksDelta
  ({ s with
      counters := fun i => (s.counters i).clockMultiple (timedelta % 2 ^ 32)
      totalTicks := s.totalTicks + BitVec.ofNat 64 timedelta },
    ticksDelta - timedelta)

def clockPitTicks : BxPitC := spend clockPitPass s ticksDelta

section

variable (s : BxPitC)

/-- The clocks of the elapsed time are cut to 64 bits. -/
def advanceByUsec (usec : BitVec 64) : BxPitC :=
  let accumulator := s.pitUsecAccumulator + usec.toNat * ticksPerSecond
  { s with
    totalUsec := s.totalUsec + usec
    pitUsecAccumulator := accumulator % usecPerSecond }.clockPitTicks
      (accumulator / usecPerSecond % 2 ^ 64)

/-- Time does not run back. -/
def advanceTo (usec : BitVec 64) : BxPitC :=
  if s.totalUsec < usec then s.advanceByUsec (usec - s.totalUsec) else s

variable (clock : VmClock)

def syncToIcount : BxPitC :=
  { s with
    icountAtLastSync := clock.now
    usecRemainder := clock.microsPhase.remainder }.advanceTo clock.microsPhase.micros

def syncToSystemTicks : BxPitC := s.advanceTo clock.micros

def drainIrq0Events : (BitVec 32 × Bool) × BxPitC :=
  let (transitions, counter) := (s.counters 0).takeOutTransitions
  ((transitions, (s.counters 0).output),
    { s with counters := Function.update s.counters 0 counter })

def timerCallback : PitTimerCallback × BxPitC :=
  let ((irq0Transitions, irq0Level), s) := (s.syncToSystemTicks clock).drainIrq0Events
  ({ irq0Transitions, irq0Level, rearmUsec := s.nextEventUsec }, s)

/-! ### Ports -/

def updateCounter (i : Fin 3) (f : PitCounter → PitCounter) : BxPitC :=
  { s with counters := Function.update s.counters i (f (s.counters i)) }

/-- Port 0x61: the output of counter 2, the refresh clock, the speaker data and the gate. -/
def readSystemControlB : BitVec 32 :=
  (ofBool (s.counters 2).output).setWidth 32 <<< 5 |||
    (s.totalUsec / 15#64 &&& 1#64).setWidth 32 <<< 4 |||
    (ofBool s.speakerDataOn).setWidth 32 <<< 1 |||
    (ofBool (s.counters 2).gate).setWidth 32

def readCounter (i : Fin 3) : BitVec 32 × BxPitC :=
  let (value, counter) := (s.counters i).read
  (value.setWidth 32, { s with counters := Function.update s.counters i counter })

def read (port : BitVec 16) (clock : VmClock) : BitVec 32 × BxPitC :=
  let s := s.syncToIcount clock
  match port.toNat with
  | 0x40 => s.readCounter 0
  | 0x41 => s.readCounter 1
  | 0x42 => s.readCounter 2
  | 0x43 => (0#32, s)
  | 0x61 => (s.readSystemControlB, s)
  | _ => (0xFF#32, s)

variable (value : BitVec 8)

def writePort61 : BxPitC :=
  let s := { s.updateCounter 2 (·.setGate (value &&& 1#8 != 0#8)) with
    speakerDataOn := value >>> 1 &&& 1#8 != 0#8 }
  if (s.counters 2).mode = 3#8 then { s with speakerActive := value &&& 3#8 == 3#8 }
  else { s with speakerLevel := s.speakerDataOn && (s.counters 2).output }

/-- The count is latched before the status. -/
def readBackCounter (c : PitCounter) : PitCounter :=
  let c := if value &&& 0x20#8 = 0#8 then c.latchCount else c
  if value &&& 0x10#8 = 0#8 then c.latchStatus else c

def readBack : BxPitC :=
  { s with
    counters := fun i =>
      if value &&& 2#8 <<< i.val ≠ 0#8 then readBackCounter value (s.counters i) else s.counters i }

def writeControl : BxPitC :=
  let command (i : Fin 3) :=
    if value >>> 4 &&& 3#8 = 0#8 then s.updateCounter i PitCounter.latchCount
    else s.updateCounter i (·.program value)
  match (value >>> 6 &&& 3#8).toNat with
  | 0 => command 0
  | 1 => command 1
  | 2 => command 2
  | _ => s.readBack value

def write (port : BitVec 16) (value : BitVec 32) (clock : VmClock) : BxPitC :=
  let s := s.syncToIcount clock
  let value : BitVec 8 := value.setWidth 8
  match port.toNat with
  | 0x40 => s.updateCounter 0 (·.write value)
  | 0x41 => s.updateCounter 1 (·.write value)
  | 0x42 => s.updateCounter 2 (·.write value)
  | 0x43 => s.writeControl value
  | 0x61 => s.writePort61 value
  | _ => s

end

end BxPitC

/-! ## Runs -/

inductive PitOp
  | read (port : BitVec 16) (clock : VmClock)
  | write (port : BitVec 16) (value : BitVec 32) (clock : VmClock)
  | timerCallback (clock : VmClock)
  | syncToIcount (clock : VmClock)
  | syncToSystemTicks (clock : VmClock)
  | drainIrq0Events
  | setGate2 (gate : Bool)
  | enableIrq (enabled : Bool)
  | setTimerHandle (handle : BitVec 64)
  | initIcountSync (icount ips : BitVec 64)
  | init

namespace BxPitC

def step (s : BxPitC) : PitOp → BxPitC
  | .read port clock => (s.read port clock).2
  | .write port value clock => s.write port value clock
  | .timerCallback clock => (s.timerCallback clock).2
  | .syncToIcount clock => s.syncToIcount clock
  | .syncToSystemTicks clock => s.syncToSystemTicks clock
  | .drainIrq0Events => s.drainIrq0Events.2
  | .setGate2 gate => s.updateCounter 2 (·.setGate gate)
  | .enableIrq enabled => { s with irqEnabled := enabled }
  | .setTimerHandle handle => { s with timerHandle := some handle }
  | .initIcountSync icount ips => { s with ips, icountAtLastSync := icount }
  | .init => s.init

def run (s : BxPitC) (ops : List PitOp) : BxPitC := ops.foldl step s

end BxPitC

end RustyBox
