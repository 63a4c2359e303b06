-- SUMMARY: One counter of the 8254 PIT: its registers, the six modes, ports, gate, and bulk clocking.
import RustyBox.Lib.Budget
import Mathlib.Algebra.Group.Nat.Defs

/-!
# A counter of the PIT

The state machine of `PitCounter`. `clock` is one input clock with every branch of the six modes.
Between two changes of state the counter is moved in bulk: `nextChangeTime` counts the clocks up
to the next change, and 0 means that none is scheduled.
-/

namespace RustyBox

open Lib

/-- Which byte is read or written next. -/
inductive RWState
  | lsByte
  | msByte
  | lsByteMultiple
  | msByteMultiple
  deriving DecidableEq, Repr

/-- The defaults are those of power-on. -/
structure PitCounter where
  mode : BitVec 8 := 4#8
  inlatch : BitVec 16 := 0#16
  count : BitVec 16 := 0#16
  /-- The value of `count`, which in BCD mode is not `count` itself. -/
  countBinary : BitVec 16 := 0#16
  outlatch : BitVec 16 := 0#16
  rwMode : BitVec 8 := 1#8
  readState : RWState := .lsByte
  writeState : RWState := .lsByte
  countLsbLatched : Bool := false
  countMsbLatched : Bool := false
  statusLatched : Bool := false
  latchedStatus : BitVec 8 := 0#8
  nullCount : Bool := false
  gate : Bool := true
  output : Bool := true
  triggerGate : Bool := false
  bcdMode : Bool := false
  countWritten : Bool := true
  firstPass : Bool := false
  stateBit1 : Bool := false
  stateBit2 : Bool := false
  nextChangeTime : BitVec 32 := 0#32
  outHandlerAttached : Bool := false
  outTransitions : BitVec 32 := 0#32
  deriving DecidableEq, Repr

namespace PitCounter

/-! ## The count -/

section

variable (c : PitCounter)

/-- The transition is recorded only if the pin moves; the record saturates. -/
def setOut (data : Bool) : PitCounter :=
  { c with
    output := data
    outTransitions :=
      if c.output != data && c.outHandlerAttached && c.outTransitions != BitVec.allOnes 32 then
        c.outTransitions + 1#32
      else c.outTransitions }

def takeOutTransitions : BitVec 32 × PitCounter :=
  (c.outTransitions, { c with outTransitions := 0#32 })

/-- The value of the four digits of a BCD count. -/
def bcdValue (count : BitVec 16) : BitVec 16 :=
  (count &&& 0xF#16) + 10#16 * (count >>> 4 &&& 0xF#16) + 100#16 * (count >>> 8 &&& 0xF#16) +
    1000#16 * (count >>> 12 &&& 0xF#16)

/-- The last four decimal digits of a value. -/
def bcdDigits (value : BitVec 16) : BitVec 16 :=
  value % 10#16 ||| (value / 10#16 % 10#16) <<< 4 ||| (value / 100#16 % 10#16) <<< 8 |||
    (value / 1000#16 % 10#16) <<< 12

def setBinaryToCount : PitCounter :=
  { c with countBinary := if c.bcdMode then bcdValue c.count else c.count }

def setCount (data : BitVec 16) : PitCounter := { c with count := data }.setBinaryToCount

def setCountToBinary : PitCounter :=
  { c with count := if c.bcdMode then bcdDigits c.countBinary else c.countBinary }

/-- The count after 0. -/
def wrapped : PitCounter :=
  { c with
    count := if c.bcdMode then 0x9999#16 else 0xFFFF#16
    countBinary := if c.bcdMode then 9999#16 else 0xFFFF#16 }

def decrement : PitCounter :=
  if c.count = 0#16 then c.wrapped
  else { c with countBinary := c.countBinary - 1#16 }.setCountToBinary

end

variable (c : PitCounter) (cycles : Nat)

/-- One pass of `decrementMultiple`: down to the end, or around by way of 0. -/
def decrementPass : PitCounter × Nat :=
  if cycles ≤ c.countBinary.toNat then
    ({ c with countBinary := c.countBinary - BitVec.ofNat 16 cycles }.setCountToBinary, 0)
  else
    ({ c with countBinary := 0#16 }.setCountToBinary.decrement,
      cycles - (c.countBinary.toNat + 1))

def decrementMultiple : PitCounter := spend decrementPass c cycles

/-! ## One clock -/

section

variable (c : PitCounter)

/-- The clocks to a change of state that is due when the count is used up. -/
def clocksToZero : BitVec 32 :=
  if c.countBinary = 0#16 then 1#32 else c.countBinary.setWidth 32

/-! What a mode does with a clock: it loads the count that was written, or it counts. -/

def loadTerminalCount : PitCounter :=
  let loaded := c.setCount c.inlatch
  { loaded with
    nextChangeTime := if c.gate then loaded.clocksToZero else 0#32
    nullCount := false }

def countTerminalCount : PitCounter :=
  let lowered := c.decrement
  if !lowered.output then
    let timed := { lowered with nextChangeTime := lowered.countBinary.setWidth 32 }
    if timed.count = 0#16 then timed.setOut true else timed
  else { lowered with nextChangeTime := 0#32 }

def loadOneShot : PitCounter :=
  let loaded := c.setCount c.inlatch
  { loaded with nextChangeTime := loaded.clocksToZero, nullCount := false }.setOut false

def countOneShot : PitCounter :=
  let lowered := c.decrement
  if !lowered.output then
    let timed := { lowered with nextChangeTime := lowered.clocksToZero }
    if timed.count = 0#16 then timed.setOut true else timed
  else { lowered with nextChangeTime := 0#32 }

def loadRate : PitCounter :=
  let loaded := c.setCount c.inlatch
  { loaded with
    nextChangeTime := (loaded.countBinary - 1#16).setWidth 32
    nullCount := false
    firstPass := false }.setOut true

/-- At a count of 1 the output goes low for the one clock before the reload. -/
def countRate : PitCounter :=
  let lowered := c.decrement
  if lowered.count = 1#16 then
    { lowered with nextChangeTime := 1#32, firstPass := true }.setOut false
  else { lowered with nextChangeTime := (lowered.countBinary - 1#16).setWidth 32 }

/-- Half of the count, in clocks, less one for the shorter half wave. -/
def halfWave (short : Bool) (countBinary : BitVec 16) : BitVec 32 :=
  if short then countBinary.setWidth 32 / 2#32 - 1#32 else countBinary.setWidth 32 / 2#32

/-- A half wave of no clocks takes one. -/
def loadSquareWave : PitCounter :=
  let loaded := c.setCount (c.inlatch &&& 0xFFFE#16)
  let odd := c.inlatch &&& 1#16 != 0#16
  let half := halfWave (!c.output || !odd) loaded.countBinary
  let timed :=
    { loaded with
      stateBit1 := odd
      nextChangeTime := if half = 0#32 then 1#32 else half &&& 0xFFFF#32
      nullCount := false
      stateBit2 := false
      firstPass := false }
  if !c.output then timed.setOut true
  else if !c.firstPass then timed.setOut false
  else timed

def countSquareWave : PitCounter :=
  let lowered := c.decrement.decrement
  let short := !lowered.output || !lowered.stateBit1
  if lowered.count == 0#16 || (lowered.count == 2#16 && short) then
    { lowered with stateBit2 := true, nextChangeTime := 1#32 }
  else { lowered with nextChangeTime := halfWave short lowered.countBinary &&& 0xFFFF#32 }

def loadSoftwareStrobe : PitCounter :=
  let loaded := c.setCount c.inlatch
  { loaded with
    nextChangeTime := if c.gate then loaded.clocksToZero else 0#32
    nullCount := false
    firstPass := true }

def loadHardwareStrobe : PitCounter :=
  let loaded := c.setCount c.inlatch
  { loaded with nextChangeTime := loaded.clocksToZero, nullCount := false, firstPass := true }

def countStrobe : PitCounter :=
  let lowered := c.decrement
  if lowered.firstPass then
    if lowered.count = 0#16 then
      { lowered with nextChangeTime := 1#32, firstPass := false }.setOut false
    else { lowered with nextChangeTime := lowered.countBinary.setWidth 32 }
  else { lowered with nextChangeTime := 0#32 }

/-- The low output of a strobe lasts one clock. -/
def endStrobe : PitCounter := if c.countWritten then c.setOut true else c

/-- The shape of all six modes. A count that is not complete, or that stands still, schedules
nothing. -/
def clockBy (loading counting : Bool) (load count : PitCounter → PitCounter) : PitCounter :=
  let clocked :=
    if c.countWritten then
      if loading then load c
      else if counting then count c
      else { c with nextChangeTime := 0#32 }
    else { c with nextChangeTime := 0#32 }
  { clocked with triggerGate := false }

/-- Mode 0, interrupt on terminal count. -/
def clockTerminalCount : PitCounter :=
  c.clockBy c.nullCount (c.gate && c.writeState != .msByteMultiple) loadTerminalCount
    countTerminalCount

/-- Mode 1, the one-shot that the gate starts. -/
def clockOneShot : PitCounter := c.clockBy c.triggerGate true loadOneShot countOneShot

/-- Mode 2, the rate generator. -/
def clockRateGenerator : PitCounter :=
  c.clockBy (c.triggerGate || c.firstPass) c.gate loadRate countRate

/-- Mode 3, the square wave. -/
def clockSquareWave : PitCounter :=
  c.clockBy ((c.triggerGate || c.firstPass || c.stateBit2) && c.gate) c.gate loadSquareWave
    countSquareWave

/-- Mode 4, the strobe that a count starts. -/
def clockSoftwareStrobe : PitCounter :=
  let ended := c.endStrobe
  ended.clockBy ended.nullCount ended.gate loadSoftwareStrobe countStrobe

/-- Mode 5, the strobe that the gate starts. -/
def clockHardwareStrobe : PitCounter :=
  let ended := c.endStrobe
  ended.clockBy ended.triggerGate true loadHardwareStrobe countStrobe

end

def clockMode : Nat → PitCounter → PitCounter
  | 0 => clockTerminalCount
  | 1 => clockOneShot
  | 2 | 6 => clockRateGenerator
  | 3 | 7 => clockSquareWave
  | 4 => clockSoftwareStrobe
  | 5 => clockHardwareStrobe
  | _ => fun c => { c with nextChangeTime := 0#32, triggerGate := false }

def clock : PitCounter := clockMode c.mode.toNat c

/-! ## Clocks in bulk -/

/-- The clocks of a counter that has no change of state ahead. -/
def clockIdle : PitCounter :=
  if c.countWritten then
    match c.mode.toNat with
    | 0 => if c.gate && c.writeState != .msByteMultiple then c.decrementMultiple cycles else c
    | 1 => c.decrementMultiple cycles
    | 2 => if !c.firstPass && c.gate then c.decrementMultiple cycles else c
    | 3 => if !c.firstPass && c.gate then c.decrementMultiple (2 * cycles % 2 ^ 32) else c
    | 4 => if c.gate then c.decrementMultiple cycles else c
    | 5 => c.decrementMultiple cycles
    | _ => c
  else c

/-- One pass of `clockMultiple`: to the end, or to the next change of state and through it. -/
def clockPass : PitCounter × Nat :=
  if c.nextChangeTime = 0#32 then (c.clockIdle cycles, 0)
  else
    match c.mode.toNat with
    | 0 | 1 | 2 | 4 | 5 =>
      if cycles < c.nextChangeTime.toNat then
        ({ c.decrementMultiple cycles with
            nextChangeTime := c.nextChangeTime - BitVec.ofNat 32 cycles }, 0)
      else
        ((c.decrementMultiple (c.nextChangeTime.toNat - 1)).clock, cycles - c.nextChangeTime.toNat)
    | 3 =>
      if cycles < c.nextChangeTime.toNat then
        ({ c.decrementMultiple (cycles * 2 % 2 ^ 32) with
            nextChangeTime := c.nextChangeTime - BitVec.ofNat 32 cycles }, 0)
      else
        ((c.decrementMultiple ((c.nextChangeTime.toNat - 1) * 2 % 2 ^ 32)).clock,
          cycles - c.nextChangeTime.toNat)
    | _ => (c, 0)

def clockMultiple : PitCounter := spend clockPass c cycles

/-! ## Ports and gate -/

section

variable (c : PitCounter)

/-- The count is latched once; in the middle of a two-byte read the read starts over. -/
def latchCount : PitCounter :=
  if c.countLsbLatched || c.countMsbLatched then c
  else
    match c.readState with
    | .msByte => { c with outlatch := c.count, countMsbLatched := true }
    | .lsByte => { c with outlatch := c.count, countLsbLatched := true }
    | .lsByteMultiple =>
      { c with outlatch := c.count, countLsbLatched := true, countMsbLatched := true }
    | .msByteMultiple =>
      { c with
        readState := .lsByteMultiple
        outlatch := c.count
        countLsbLatched := true
        countMsbLatched := true }

def statusByte : BitVec 8 :=
  (BitVec.ofBool c.output).setWidth 8 <<< 7 ||| (BitVec.ofBool c.nullCount).setWidth 8 <<< 6 |||
    (c.rwMode &&& 3#8) <<< 4 ||| (c.mode &&& 7#8) <<< 1 ||| (BitVec.ofBool c.bcdMode).setWidth 8

def latchStatus : PitCounter :=
  if !c.statusLatched then { c with latchedStatus := c.statusByte, statusLatched := true } else c

/-- The status if it is latched, then the latched count, then the count itself. -/
def read : BitVec 8 × PitCounter :=
  if c.statusLatched then
    if c.countMsbLatched && c.readState == .msByteMultiple then (0#8, c)
    else (c.latchedStatus, { c with statusLatched := false })
  else if c.countLsbLatched then
    (c.outlatch.setWidth 8,
      { c with
        readState := if c.readState = .lsByteMultiple then .msByteMultiple else c.readState
        countLsbLatched := false })
  else if c.countMsbLatched then
    ((c.outlatch >>> 8).setWidth 8,
      { c with
        readState := if c.readState = .msByteMultiple then .lsByteMultiple else c.readState
        countMsbLatched := false })
  else
    match c.readState with
    | .lsByte => (c.count.setWidth 8, c)
    | .msByte => ((c.count >>> 8).setWidth 8, c)
    | .lsByteMultiple => (c.count.setWidth 8, { c with readState := .msByteMultiple })
    | .msByteMultiple => ((c.count >>> 8).setWidth 8, { c with readState := .lsByteMultiple })

variable (data : BitVec 8)

/-- The byte goes to the latch. The first byte of two leaves the count incomplete. -/
def writeLatch : PitCounter :=
  match c.writeState with
  | .lsByteMultiple =>
    { c with
      inlatch := data.setWidth 16
      writeState := .msByteMultiple
      countWritten := false }
  | .lsByte => { c with inlatch := data.setWidth 16, countWritten := true }
  | .msByteMultiple =>
    { c with
      writeState := .lsByteMultiple
      inlatch := c.inlatch ||| data.setWidth 16 <<< 8
      countWritten := true }
  | .msByte => { c with inlatch := data.setWidth 16 <<< 8, countWritten := true }

/-- A complete count is taken over at once, although it is loaded at the next clock only. -/
def written : PitCounter :=
  let latched := c.writeLatch data
  if latched.countWritten then { latched with nullCount := true }.setCount latched.inlatch
  else latched

def write : PitCounter :=
  let written := c.written data
  match written.mode.toNat with
  | 0 =>
    { (if written.countWritten then written.setOut false else written) with nextChangeTime := 1#32 }
  | 1 | 5 => if written.triggerGate then { written with nextChangeTime := 1#32 } else written
  | 2 | 6 | 3 | 7 | 4 => { written with nextChangeTime := 1#32 }
  | _ => written

/-- Only a change of the gate counts; a rising edge is remembered as a trigger. -/
def setGate (data : Bool) : PitCounter :=
  if c.gate = data then c
  else
    let c := { c with gate := data, triggerGate := data || c.triggerGate }
    match c.mode.toNat with
    | 0 =>
      { c with
        nextChangeTime :=
          if data && c.countWritten then
            if c.nullCount then 1#32
            else if !c.output && c.writeState != .msByteMultiple then c.clocksToZero
            else 0#32
          else if c.nullCount then 1#32
          else 0#32 }
    | 1 | 5 => if data && c.countWritten then { c with nextChangeTime := 1#32 } else c
    | 2 | 6 =>
      if !data then { c.setOut true with nextChangeTime := 0#32 }
      else { c with nextChangeTime := if c.countWritten then 1#32 else 0#32 }
    | 3 | 7 =>
      if !data then { c.setOut true with firstPass := true, nextChangeTime := 0#32 }
      else { c with nextChangeTime := if c.countWritten then 1#32 else 0#32 }
    | 4 =>
      { c with
        nextChangeTime :=
          if !c.output || c.nullCount then 1#32
          else if data && c.countWritten then
            if c.firstPass then c.clocksToZero else 0#32
          else 0#32 }
    | _ => c

/-- The counter program command, with the mode, the byte order and the BCD flag of the word. -/
def program (value : BitVec 8) : PitCounter :=
  let rw := value >>> 4 &&& 3#8
  let m := value >>> 1 &&& 7#8
  let states :=
    match rw.toNat with
    | 1 => (RWState.lsByte, RWState.lsByte)
    | 2 => (.msByte, .msByte)
    | 3 => (.lsByteMultiple, .lsByteMultiple)
    | _ => (c.readState, c.writeState)
  { { c with
        nullCount := true
        countLsbLatched := false
        countMsbLatched := false
        statusLatched := false
        inlatch := 0#16
        countWritten := false
        firstPass := true
        rwMode := rw
        bcdMode := value &&& 1#8 != 0#8
        mode := if 5#8 < m then m &&& 3#8 else m
        readState := states.1
        writeState := states.2 }.setOut (m != 0#8) with
    nextChangeTime := 0#32 }

end

end PitCounter

end RustyBox
