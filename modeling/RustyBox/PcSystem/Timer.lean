-- SUMMARY: The timer wheel of the PC system: slots, countdown, tick loop and fired-owner queue.
import Mathlib.Algebra.GroupWithZero.Nat
import Mathlib.Data.List.FinRange
import Mathlib.Logic.Function.Basic
import Mathlib.Tactic.Common

/-!
# The timer wheel

Shallow embedding of the timer part of `BxPcSystemC` (`pc_system.rs`). Slot 0
holds the null timer, the other slots are handed out by `registerTimer`. Virtual
time is `ticksTotal` plus the elapsed part of the current countdown; when the
countdown reaches zero `countdownEvent` scans the slots, fires what is due and
starts the next countdown.

A `u64` or `u32` is a `Nat`. Sums the source leaves unchecked return `none` when
they do not fit, so a run that is `some` is a run without overflow.
-/

namespace RustyBox

/-- `BX_MAX_TIMERS`: one LAPIC timer per supported CPU plus the fixed owners. -/
def maxTimers : Nat := 254 + 21

instance : NeZero maxTimers := ⟨by decide⟩

def maxTimerIdLen : Nat := 32
def nullTimerInterval : Nat := 0xFFFFFFFF
def minAllowableTimerPeriod : Nat := 1
def u64Max : Nat := 0xFFFFFFFFFFFFFFFF
def u32Max : Nat := 0xFFFFFFFF

inductive PcSystemError
  | timerIndexOutOfBounds (index : Nat)
  | nullTimerModification
  | timerNotInUse (index : Nat)
  | noFreeTimerSlots
  | timerStillActive (index : Nat)
  | timerDeadlineOverflow
  | timeConversionOverflow
  deriving DecidableEq, Repr

/-- Which device a timer belongs to. -/
inductive TimerOwner
  | nullTimer
  | pciIdeCh0
  | pciIdeCh1
  | pit
  | keyboard
  | cmosPeriodic
  | cmosOneSecond
  | cmosUip
  | acpiPmOverflow
  | serialFifo (port : Nat)
  | serialTx (port : Nat)
  | lapic (cpu : Nat)
  | slowdown
  | hdSeek (param : Nat)
  | hpet (index : Nat)
  | vgaVertical
  deriving DecidableEq, Repr

structure TimerFlags where
  inUse : Bool
  active : Bool
  continuous : Bool
  deriving DecidableEq, Repr

def TimerFlags.empty : TimerFlags := ⟨false, false, false⟩

structure Timer where
  flags : TimerFlags
  period : Nat
  timeToFire : Nat
  owner : TimerOwner
  id : Vector UInt8 maxTimerIdLen
  deriving DecidableEq, Repr

def zeroId : Vector UInt8 maxTimerIdLen := Vector.replicate maxTimerIdLen 0

/-- `Timer::default()`. -/
def Timer.unused : Timer := ⟨.empty, 0, 0, .nullTimer, zeroId⟩

inductive ResetReason
  | software
  | hardware
  deriving DecidableEq, Repr

/-- `BxPcSystemC`. `fired` is the first `num_fired` entries of the owner and
count arrays; nothing reads the entries behind them. -/
structure PcSystem where
  timers : Fin maxTimers → Timer
  numTimers : Nat
  triggeredTimer : Nat
  currCountdown : Nat
  currCountdownPeriod : Nat
  ticksTotal : Nat
  lastTimeUsec : Nat
  usecSinceLast : Nat
  a20Mask : Nat
  enableA20 : Bool
  ips : Nat
  hrq : Bool
  hrqPending : Bool
  asyncEventPending : Bool
  intrRaised : Bool
  intrCleared : Bool
  killBochsRequest : Bool
  resetRequest : Option ResetReason
  fired : List (TimerOwner × Nat)

/-- A call that may fail; the state is the one the call leaves behind either way. -/
abbrev Outcome (α : Type) := Except PcSystemError α × PcSystem

/-- `checked_add` on `u64`; also an unchecked sum, whose overflow has no result. -/
def checkedAdd (a b : Nat) : Option Nat :=
  if a + b ≤ u64Max then some (a + b) else none

theorem checkedAdd_eq_some {a b c : Nat} :
    checkedAdd a b = some c ↔ c = a + b ∧ a + b ≤ u64Max := by
  unfold checkedAdd
  split <;> simp_all [eq_comm]

namespace PcSystem

def nullTimer : Timer :=
  ⟨⟨true, true, true⟩, nullTimerInterval, nullTimerInterval, .nullTimer, zeroId⟩

def slot0 : Fin maxTimers := ⟨0, by decide⟩

/-- `BxPcSystemC::new()`. -/
def new : PcSystem where
  timers := Function.update (fun _ => .unused) slot0 nullTimer
  numTimers := 1
  triggeredTimer := 0
  currCountdown := nullTimerInterval
  currCountdownPeriod := nullTimerInterval
  ticksTotal := 0
  lastTimeUsec := 0
  usecSinceLast := 0
  a20Mask := 0xFFFFFFFFFFEFFFFF
  enableA20 := false
  ips := 1000000
  hrq := false
  hrqPending := false
  asyncEventPending := false
  intrRaised := false
  intrCleared := false
  killBochsRequest := false
  resetRequest := none
  fired := []

variable (s : PcSystem) (timerIndex : Nat) (i : Fin maxTimers) (deadlineTicks period : Nat)
  (continuous : Bool) (owner : TimerOwner) (useconds : Nat)

def setTimer (t : Timer) : PcSystem :=
  { s with timers := Function.update s.timers i t }

/-- `initialize(ips)`, with `ips` a `u32`. -/
def initializeWith (ips : Nat) : PcSystem :=
  { s.setTimer slot0 { s.timers slot0 with timeToFire := nullTimerInterval } with
    ticksTotal := 0
    currCountdown := nullTimerInterval
    currCountdownPeriod := nullTimerInterval
    lastTimeUsec := 0
    usecSinceLast := 0
    triggeredTimer := 0
    hrq := false
    hrqPending := false
    killBochsRequest := false
    resetRequest := none
    ips := max ips 1 }

/-! ## Time -/

/-- `time_ticks()`: whole countdowns so far plus the elapsed part of this one. -/
def timeTicks : Nat :=
  s.ticksTotal + (s.currCountdownPeriod - s.currCountdown)

/-- `usec_to_ticks`; the product is taken in `u128`. -/
def usecToTicks : Except PcSystemError Nat :=
  let ticks := useconds * s.ips / 1000000
  if ticks ≤ u64Max then .ok ticks else .error .timeConversionOverflow

def deadlineFromNow (ticks : Nat) : Except PcSystemError Nat :=
  match checkedAdd s.timeTicks ticks with
  | some d => .ok d
  | none => .error .timerDeadlineOverflow

/-- Move the countdown only when `deadlineTicks` is earlier than the event already
scheduled; the current epoch is kept. -/
def shortenCountdownTo : PcSystem :=
  let now := s.timeTicks
  if deadlineTicks < now then s
  else
    let ticksUntilFire := deadlineTicks - now
    if ticksUntilFire = 0 ∨ s.currCountdown ≤ ticksUntilFire then s
    else
      let elapsed := s.currCountdownPeriod - s.currCountdown
      { s with
        currCountdown := ticksUntilFire
        currCountdownPeriod := elapsed + ticksUntilFire }

/-! ## The countdown event -/

/-- `saturating_add(1)` on the count of the first entry for `owner`. -/
def bumpCount (owner : TimerOwner) : List (TimerOwner × Nat) → List (TimerOwner × Nat)
  | [] => []
  | (o, c) :: rest =>
    if o = owner then (o, min (c + 1) u32Max) :: rest else (o, c) :: bumpCount owner rest

/-- `record_fired_owner`: one more fire for `owner`; a new owner is appended while
there is room and dropped otherwise. -/
def recordFiredOwner (fired : List (TimerOwner × Nat)) (owner : TimerOwner) :
    List (TimerOwner × Nat) :=
  if owner = .nullTimer then fired
  else if owner ∈ fired.map Prod.fst then bumpCount owner fired
  else if fired.length < maxTimers then fired ++ [(owner, 1)]
  else fired

/-- `while time_to_fire <= ticks_total { time_to_fire += period }`. -/
def advanceDeadline (ticksTotal period : Nat) : Nat → Nat → Option Nat
  | 0, _ => none
  | fuel + 1, timeToFire =>
    if timeToFire ≤ ticksTotal then
      (checkedAdd timeToFire period).bind (advanceDeadline ticksTotal period fuel)
    else some timeToFire

/-- What the scan of `countdown_event` carries from slot to slot. -/
structure Scan where
  timers : Fin maxTimers → Timer
  minTimeToFire : Nat
  triggered : Fin maxTimers → Bool
  first : Nat
  last : Nat

/-- The accumulators before the first slot. -/
def startScan : Scan where
  timers := s.timers
  minTimeToFire := u64Max
  triggered := fun _ => false
  first := s.numTimers
  last := 0

/-- One iteration of the scan. -/
def scanTimer (ticksTotal : Nat) (a : Scan) (i : Fin maxTimers) : Option Scan :=
  let t := a.timers i
  if t.flags.active then
    if t.timeToFire ≤ ticksTotal then
      let a := { a with
        triggered := Function.update a.triggered i true
        first := if i.val < a.first then i.val else a.first
        last := i.val }
      if !t.flags.continuous then
        -- one-shot: deactivate
        some { a with
          timers := Function.update a.timers i { t with flags := { t.flags with active := false } } }
      else
        (advanceDeadline ticksTotal t.period (ticksTotal - t.timeToFire + 2) t.timeToFire).map
          fun d => { a with
            timers := Function.update a.timers i { t with timeToFire := d }
            minTimeToFire := if d < a.minTimeToFire then d else a.minTimeToFire }
    else
      some { a with
        minTimeToFire := if t.timeToFire < a.minTimeToFire then t.timeToFire else a.minTimeToFire }
  else some a

/-- The slots the scan visits: `enumerate().take(num_timers)`. -/
def liveSlots : List (Fin maxTimers) :=
  (List.finRange maxTimers).filter fun i => i.val < s.numTimers

/-- Ticks to the next countdown event: at least one, at most the `u32` horizon. -/
def nextPeriod (minTimeToFire ticksTotal : Nat) : Nat :=
  let d := if ticksTotal ≤ minTimeToFire then minTimeToFire - ticksTotal
    else minAllowableTimerPeriod
  max minAllowableTimerPeriod (min d nullTimerInterval)

/-- A fire: the tick it happened at and the slot that fired. -/
abbrev Fire := Nat × Fin maxTimers

/-- `countdown_event`. The second component lists the slots the scan triggered, in
the order their owners are recorded. -/
def countdownEvent : Option (PcSystem × List Fire) := do
  let ticksTotal ← checkedAdd s.ticksTotal s.currCountdownPeriod
  let scan ← s.liveSlots.foldlM (scanTimer ticksTotal) s.startScan
  let period := nextPeriod scan.minTimeToFire ticksTotal
  let due := (List.finRange maxTimers).filter fun i =>
    scan.first ≤ i.val && i.val ≤ scan.last && scan.triggered i
  some
    ({ s with
        ticksTotal := ticksTotal
        timers := scan.timers
        currCountdown := period
        currCountdownPeriod := period
        fired := due.foldl (fun q i => recordFiredOwner q (scan.timers i).owner) s.fired
        triggeredTimer := if due = [] then s.triggeredTimer else 0 },
      due.map fun i => (ticksTotal, i))

/-- The loop of `tickn`. Each round consumes a countdown, so `n + 1` rounds are
enough whenever no countdown is zero. -/
def ticknLoop : Nat → PcSystem → Nat → Option (PcSystem × List Fire)
  | 0, _, _ => none
  | fuel + 1, s, remaining =>
    if s.currCountdown ≤ remaining then do
      let (s₁, fires) ← countdownEvent { s with currCountdown := 0 }
      let (s₂, rest) ← ticknLoop fuel s₁ (remaining - s.currCountdown)
      some (s₂, fires ++ rest)
    else some ({ s with currCountdown := s.currCountdown - remaining }, [])

/-- `tickn(n)`, with the fires of the call in order. -/
def tickn (n : Nat) : Option (PcSystem × List Fire) :=
  ticknLoop (n + 1) s n

def tick1 : Option (PcSystem × List Fire) :=
  if s.currCountdown = 0 then none
  else if s.currCountdown - 1 = 0 then
    countdownEvent { s with currCountdown := s.currCountdown - 1 }
  else some ({ s with currCountdown := s.currCountdown - 1 }, [])

/-- `take_fired_timers`. -/
def takeFiredTimers : List (TimerOwner × Nat) × PcSystem :=
  (s.fired, { s with fired := [] })

/-! ## Registration and activation -/

/-- `validate_timer_index`; the index it accepts is the slot the caller then uses. -/
def validateTimerIndex : Except PcSystemError (Fin maxTimers) :=
  if h : timerIndex < maxTimers then
    if timerIndex = 0 then .error .nullTimerModification
    else if (s.timers ⟨timerIndex, h⟩).flags.inUse then .ok ⟨timerIndex, h⟩
    else .error (.timerNotInUse timerIndex)
  else .error (.timerIndexOutOfBounds timerIndex)

/-- The stores of `activate_timer_at_ticks` once its deadline is settled. -/
def arm : PcSystem :=
  let t := s.timers i
  (s.setTimer i { t with
    timeToFire := deadlineTicks
    flags := { t.flags with active := true, continuous := continuous } }).shortenCountdownTo
      deadlineTicks

def activateTimerAtTicks : Outcome Unit :=
  match s.validateTimerIndex timerIndex with
  | .error e => (.error e, s)
  | .ok i =>
    if deadlineTicks ≤ s.timeTicks then
      -- already due: observable on the next tick
      match checkedAdd s.timeTicks minAllowableTimerPeriod with
      | none => (.error .timerDeadlineOverflow, s)
      | some d => (.ok (), s.arm i d continuous)
    else (.ok (), s.arm i deadlineTicks continuous)

def setPeriod : PcSystem :=
  s.setTimer i { s.timers i with period := period }

def activateTimerAtTicksWithPeriod : Outcome Unit :=
  match s.validateTimerIndex timerIndex with
  | .error e => (.error e, s)
  | .ok i =>
    (s.setPeriod i (max period minAllowableTimerPeriod)).activateTimerAtTicks timerIndex
      deadlineTicks continuous

def activateTimer : Outcome Unit :=
  match s.validateTimerIndex timerIndex with
  | .error e => (.error e, s)
  | .ok i =>
    let period := max period minAllowableTimerPeriod
    match s.deadlineFromNow period with
    | .error e => (.error e, s)
    | .ok d => (s.setPeriod i period).activateTimerAtTicks timerIndex d continuous

/-- `activate_timer_usec`; zero reuses the timer's own period. -/
def activateTimerUsec (continuous : Bool) : Outcome Unit :=
  match s.validateTimerIndex timerIndex with
  | .error e => (.error e, s)
  | .ok i =>
    if useconds = 0 then s.activateTimer timerIndex (s.timers i).period continuous
    else match s.usecToTicks useconds with
      | .error e => (.error e, s)
      | .ok ticks =>
        s.activateTimer timerIndex (max ticks minAllowableTimerPeriod) continuous

/-- `activate_timer_nsec`; zero reuses the timer's own period. -/
def activateTimerNsec (nseconds : Nat) (continuous : Bool) : Outcome Unit :=
  match s.validateTimerIndex timerIndex with
  | .error e => (.error e, s)
  | .ok i =>
    if nseconds = 0 then s.activateTimer timerIndex (s.timers i).period continuous
    else
      let ticks := nseconds * s.ips / 1000000000
      if ticks ≤ u64Max then
        s.activateTimer timerIndex (max ticks minAllowableTimerPeriod) continuous
      else (.error .timeConversionOverflow, s)

/-- `reactivate_timer_relative`: the new deadline counts from the previous one. -/
def reactivateTimerRelative : Outcome Unit :=
  match s.validateTimerIndex timerIndex with
  | .error e => (.error e, s)
  | .ok i =>
    let period := max period minAllowableTimerPeriod
    match checkedAdd (s.timers i).timeToFire period with
    | none => (.error .timerDeadlineOverflow, s)
    | some d => (s.setPeriod i period).activateTimerAtTicks timerIndex d false

def deactivateTimer : Outcome Unit :=
  match s.validateTimerIndex timerIndex with
  | .error e => (.error e, s)
  | .ok i =>
    let t := s.timers i
    (.ok (), s.setTimer i { t with flags := { t.flags with active := false } })

/-- The stores of `unregister_timer`: the slot is emptied, and the live range shrinks
when it was the last one. -/
def freeSlot : PcSystem :=
  { s.setTimer i ⟨.empty, u64Max, u64Max, .nullTimer, zeroId⟩ with
    numTimers := if i.val = s.numTimers - 1 then s.numTimers - 1 else s.numTimers }

def unregisterTimer : Outcome Unit :=
  match s.validateTimerIndex timerIndex with
  | .error e => (.error e, s)
  | .ok i =>
    if (s.timers i).flags.active then (.error (.timerStillActive timerIndex), s)
    else (.ok (), s.freeSlot i)

/-- The stored identifier: at most 31 bytes of `id`, then zeros. -/
def timerId (id : List UInt8) : Vector UInt8 maxTimerIdLen :=
  Vector.ofFn fun j =>
    if j.val < min id.length (maxTimerIdLen - 1) then id.getD j.val 0 else 0

/-- The stores of `register_timer` into the slot it picked. -/
def fillSlot (period deadlineTicks : Nat) (continuous : Bool) (id : List UInt8) : PcSystem :=
  { s.setTimer i ⟨⟨true, false, continuous⟩, period, deadlineTicks, owner, timerId id⟩ with
    numTimers := if s.numTimers ≤ i.val then i.val + 1 else s.numTimers }

/-- `register_timer`: the first slot after the null timer that is not in use. -/
def registerTimer (period : Nat) (continuous active : Bool) (id : List UInt8) : Outcome Nat :=
  let period := max period minAllowableTimerPeriod
  match (List.finRange maxTimers).find? fun i => i ≠ slot0 && !(s.timers i).flags.inUse with
  | none => (.error .noFreeTimerSlots, s)
  | some i =>
    match s.deadlineFromNow period with
    | .error e => (.error e, s)
    | .ok d =>
      let s := s.fillSlot i owner period d continuous id
      if active then
        match s.activateTimerAtTicks i.val d continuous with
        | (.error e, s) => (.error e, s)
        | (.ok (), s) => (.ok i.val, s)
      else (.ok i.val, s)

def registerTimerUsec (continuous active : Bool) (id : List UInt8) : Outcome Nat :=
  match s.usecToTicks useconds with
  | .error e => (.error e, s)
  | .ok ticks => s.registerTimer owner ticks continuous active id

end PcSystem

end RustyBox
