-- SUMMARY: The comparators of the HPET, and that a periodic one keeps its phase when it fires.
import RustyBox.Pit.Controller
import Mathlib.Tactic.IntervalCases
import RustyBox.Lib.BitSet

/-!
# HPET comparators

The main counter runs at one tick per ten nanoseconds from a reference pair. When the one-shot
behind a comparator fires, `timer_fired` moves a periodic comparator past the counter in whole
periods and folds the ticks passed into the reference pair. Interrupts are queued for the
emulator, which empties the queues after every access and every fire.
-/

namespace RustyBox

open BitVec Lib.Positions

/-! ## The device -/

def VmClock.nanos (clock : VmClock) : BitVec 64 :=
  saturate (clock.now.toNat * 1000000000 / clock.rate.hz.toNat)

/-- `after_nanos_floor`. -/
def VmClock.afterNanosFloor (clock : VmClock) (nanos : BitVec 64) : BitVec 64 :=
  saturate (clock.now.toNat + (saturate (nanos.toNat * clock.rate.hz.toNat / 1000000000)).toNat)

structure HpetTimer where
  config : BitVec 64
  cmp : BitVec 64
  fsb : BitVec 64
  period : BitVec 64
  lastChecked : BitVec 64

namespace HpetTimer

variable (timer : HpetTimer)

/-- `HPET_TN_TYPE_LEVEL`, `HPET_TN_ENABLE`, `HPET_TN_PERIODIC`, `HPET_TN_32BIT` and
`HPET_TN_FSB_ENABLE`. -/
def level : Bool := timer.config.getLsbD 1
def enabled : Bool := timer.config.getLsbD 2
def periodic : Bool := timer.config.getLsbD 3
def narrow : Bool := timer.config.getLsbD 8
def fsbRoute : Bool := timer.config.getLsbD 14

/-- `timer_int_route`. -/
def intRoute : BitVec 8 := ((timer.config &&& 0x3e00#64) >>> 9).setWidth 8

/-- `calculate_diff`. -/
def calculateDiff (current : BitVec 64) : BitVec 64 :=
  if timer.narrow then (timer.cmp.setWidth 32 - current.setWidth 32 : BitVec 32).setWidth 64
  else timer.cmp - current

end HpetTimer

/-- What `timer_fired` uses of `BxHpetC`. `timerOps` are deadlines to arm at. -/
structure BxHpetC where
  config : BitVec 64
  isr : BitVec 64
  hpetReferenceValue : BitVec 64
  hpetReferenceTime : BitVec 64
  timers : Fin 3 → HpetTimer
  clock : VmClock
  irqOps : List (BitVec 8 × Bool)
  fsbWrites : List (BitVec 64 × BitVec 32)
  timerOps : Fin 3 → Option (BitVec 64)

/-- `time_between`. -/
def timeBetween (start stop value : BitVec 64) : Bool :=
  if start ≤ stop then start ≤ value ∧ value ≤ stop else start ≤ value ∨ value ≤ stop

/-- `cmp32_to_cmp64`. -/
def cmp32ToCmp64 (reference : BitVec 64) (value : BitVec 32) : BitVec 64 :=
  if reference.setWidth 32 ≤ value then
    (reference &&& 0xFFFFFFFF00000000#64) ||| value.setWidth 64
  else ((reference + 0x100000000#64) &&& 0xFFFFFFFF00000000#64) ||| value.setWidth 64

/-- `ticks_to_ns`, `ns_to_ticks`. -/
def ticksToNs (value : BitVec 64) : BitVec 64 := value * 10#64
def nsToTicks (value : BitVec 64) : BitVec 64 := value / 10#64

/-- The catch-up loop over a comparator; `none` when the fuel runs out. -/
def catchUp (pending : BitVec 64 → Bool) (period : BitVec 64) : Nat → BitVec 64 → Option (BitVec 64)
  | 0, _ => none
  | fuel + 1, cmp =>
    if pending (cmp + period) then catchUp pending period fuel (cmp + period)
    else some (cmp + period)

namespace BxHpetC

variable (h : BxHpetC)

def hpetGetTicks : BitVec 64 :=
  nsToTicks (h.clock.nanos - h.hpetReferenceTime) + h.hpetReferenceValue

/-- `HPET_CFG_ENABLE`, `HPET_CFG_LEGACY`. -/
def enabled : Bool := h.config.getLsbD 0
def inLegacyMode : Bool := h.config.getLsbD 1

def pushIrq (route : BitVec 8) (level : Bool) : BxHpetC :=
  if 32 ≤ h.irqOps.length then h else { h with irqOps := h.irqOps ++ [(route, level)] }

def pushFsb (address : BitVec 64) (value : BitVec 32) : BxHpetC :=
  if 8 ≤ h.fsbWrites.length then h else { h with fsbWrites := h.fsbWrites ++ [(address, value)] }

variable (index : Fin 3)

/-- The line of a comparator. -/
def route : BitVec 8 :=
  if index ≤ 1 ∧ h.inLegacyMode then if index = 0 then 0#8 else 8#8
  else (h.timers index).intRoute

def updateIrq (set : Bool) : BxHpetC :=
  let timer := h.timers index
  let route := h.route index
  if !set || !h.enabled then h.pushIrq route false
  else
    let h := if timer.level then { h with isr := h.isr ||| 1#64 <<< index.val } else h
    if timer.enabled then
      if timer.fsbRoute then h.pushFsb (timer.fsb >>> 32) (timer.fsb.setWidth 32)
      else if timer.level then h.pushIrq route true
      else (h.pushIrq route false).pushIrq route true
    else h

def setTimer (timer : HpetTimer) : BxHpetC :=
  { h with timers := Function.update h.timers index timer }

/-- `hpet_set_timer`. -/
def hpetSetTimer : BxHpetC :=
  let curTick := h.hpetGetTicks
  let timer := h.timers index
  let diff := (timer.calculateDiff curTick).toNat
  let diff := if diff = 0 then if timer.narrow then 2 ^ 32 else 0x400000000000000 else diff
  let diff := if !timer.periodic && timer.narrow then min diff (2 ^ 32 - curTick.toNat % 2 ^ 32)
    else diff
  let diff := max 1 (min diff 0x400000000000000)
  let deadline := h.clock.afterNanosFloor (ticksToNs (BitVec.ofNat 64 diff))
  { h with timerOps := Function.update h.timerOps index (some deadline) }

/-- The part of `timer_fired` that depends on the kind of comparator. -/
def checkComparator (fuel : Nat) : Option BxHpetC :=
  let timer := h.timers index
  let pending := timeBetween timer.lastChecked h.hpetGetTicks
  let cmp64 := cmp32ToCmp64 timer.lastChecked (timer.cmp.setWidth 32)
  if timer.periodic then
    if timer.narrow then
      if pending cmp64 then
        let h := h.updateIrq index true
        let period32 : BitVec 32 := timer.period.setWidth 32
        if period32 = 0 then some h
        else (catchUp pending (period32.setWidth 64) fuel cmp64).map fun cmp64 =>
          h.setTimer index { timer with cmp := (cmp64.setWidth 32 : BitVec 32).setWidth 64 }
      else some h
    else if pending timer.cmp then
      let h := h.updateIrq index true
      if timer.period = 0 then some h
      else (catchUp pending timer.period fuel timer.cmp).map fun cmp =>
        h.setTimer index { timer with cmp := cmp }
    else some h
  else if timer.narrow then
    if pending cmp64 || pending (cmp32ToCmp64 timer.lastChecked 0#32) then
      some (h.updateIrq index true)
    else some h
  else if pending timer.cmp then some (h.updateIrq index true)
  else some h

def recordCheck (tick : BitVec 64) : BxHpetC :=
  h.setTimer index { h.timers index with lastChecked := tick }

/-- Whole ticks go into the reference pair, and the rest of a tick stays. -/
def foldReference (curTime : BitVec 64) : BxHpetC :=
  let ticksPassed := nsToTicks (curTime - h.hpetReferenceTime)
  if ticksPassed = 0 then h
  else
    { h with
      hpetReferenceTime := h.hpetReferenceTime + ticksToNs ticksPassed
      hpetReferenceValue := h.hpetReferenceValue + ticksPassed }

def timerFired (fuel : Nat) : Option BxHpetC :=
  (h.checkComparator index fuel).map fun h' =>
    ((h'.hpetSetTimer index).recordCheck index h.hpetGetTicks).foldReference h.clock.nanos

end BxHpetC

/-! ## The catch-up loop -/

section CatchUp

variable {l t c p : BitVec 64}

theorem timeBetween_iff (hl : l.toNat ≤ t.toNat) {v : BitVec 64} :
    timeBetween l t v = true ↔ l.toNat ≤ v.toNat ∧ v.toNat ≤ t.toNat := by
  rw [timeBetween, if_pos (show l ≤ t from hl), decide_eq_true_iff]
  rfl

/-- The comparator stays in phase and stops within a period after the counter. -/
theorem catchUp_eq (hl : l.toNat ≤ c.toNat) (hc : c.toNat ≤ t.toNat) (hp : 0 < p.toNat)
    (hwrap : t.toNat + p.toNat < 2 ^ 64) {fuel : Nat} (hfuel : t.toNat < c.toNat + fuel) :
    ∃ r k, catchUp (timeBetween l t) p fuel c = some r ∧ r.toNat = c.toNat + k * p.toNat ∧
      t.toNat < r.toNat ∧ r.toNat ≤ t.toNat + p.toNat := by
  have hwindow := @timeBetween_iff l t (by omega)
  induction fuel generalizing c with
  | zero => omega
  | succ fuel ih =>
    have hnext : (c + p).toNat = c.toNat + p.toNat := by
      rw [toNat_add]
      omega
    simp only [catchUp, hwindow]
    split
    case isTrue hin =>
      obtain ⟨r, k, hr, hval, hstop⟩ := ih (c := c + p) (by omega) (by omega) (by omega)
      refine ⟨r, k + 1, hr, ?_, hstop⟩
      rw [Nat.succ_mul]
      omega
    case isFalse hout => exact ⟨c + p, 1, rfl, by omega, by omega, by omega⟩

end CatchUp

/-- Only one value in phase is within a period after the counter. -/
theorem phase_unique {c p t k : Nat} (hlow : t < c + k * p) (hhigh : c + k * p ≤ t + p) (j : Nat) :
    t < c + j * p ∧ c + j * p ≤ t + p ↔ j = k := by
  constructor
  · rintro ⟨hlow', hhigh'⟩
    have hj : j < k + 1 := Nat.lt_of_mul_lt_mul_right (a := p) (by rw [Nat.succ_mul]; omega)
    have hk : k < j + 1 := Nat.lt_of_mul_lt_mul_right (a := p) (by rw [Nat.succ_mul]; omega)
    omega
  · rintro rfl
    exact ⟨hlow, hhigh⟩

/-- A 32-bit comparator above the last check, while the counter has not passed 32 bits. -/
theorem cmp32ToCmp64_eq {l : BitVec 64} {c : BitVec 32} (h : l.toNat ≤ c.toNat) :
    cmp32ToCmp64 l c = c.setWidth 64 := by
  have hlow : (l.setWidth 32).toNat = l.toNat := by
    rw [toNat_setWidth]
    omega
  have hhigh : l &&& 0xFFFFFFFF00000000#64 = 0#64 := by
    have hl : l = (l.setWidth 32).setWidth 64 := by
      apply eq_of_toNat_eq
      rw [toNat_setWidth]
      omega
    rw [hl]
    apply eq_of_getLsbD_eq
    intro i hi
    interval_cases i <;> simp
  rw [cmp32ToCmp64, if_pos (show l.setWidth 32 ≤ c by rw [le_def, hlow]; exact h), hhigh, zero_or]

theorem counter_fold (now ref val : BitVec 64) :
    nsToTicks (now - (ref + ticksToNs (nsToTicks (now - ref)))) + (val + nsToTicks (now - ref)) =
      nsToTicks (now - ref) + val := by
  have hsub (x : BitVec 64) : now - (ref + x) = now - ref - x := by bv_omega
  unfold nsToTicks ticksToNs
  rw [hsub]
  generalize now - ref = d
  have hrest : (d - d / 10#64 * 10#64) / 10#64 = 0#64 := by
    apply eq_of_toNat_eq
    simp only [toNat_udiv, toNat_sub, toNat_mul, toNat_ofNat, Nat.reducePow, Nat.reduceMod]
    omega
  rw [hrest, BitVec.zero_add, BitVec.add_comm]

namespace BxHpetC

variable {h : BxHpetC} {index : Fin 3}

theorem hpetGetTicks_foldReference (h : BxHpetC) :
    (h.foldReference h.clock.nanos).hpetGetTicks = h.hpetGetTicks := by
  unfold foldReference
  dsimp only
  split
  · rfl
  · exact counter_fold ..

theorem foldReference_frame (h : BxHpetC) (now : BitVec 64) : ∃ time value, h.foldReference now =
    { h with hpetReferenceTime := time, hpetReferenceValue := value } := by
  unfold foldReference
  dsimp only
  split <;> exact ⟨_, _, rfl⟩

/-- What comes after the comparator is checked leaves its value, the queues and the counter. -/
theorem timerFired_of_check {h₁ : BxHpetC} {fuel : Nat}
    (hcheck : h.checkComparator index fuel = some h₁) (hclock : h₁.clock = h.clock) :
    ∃ h', h.timerFired index fuel = some h' ∧ (h'.timers index).cmp = (h₁.timers index).cmp ∧
      h'.irqOps = h₁.irqOps ∧ h'.fsbWrites = h₁.fsbWrites ∧
      h'.hpetGetTicks = h₁.hpetGetTicks := by
  refine ⟨_, by rw [timerFired, hcheck, Option.map_some], ?_⟩
  have hticks := hpetGetTicks_foldReference
    ((h₁.hpetSetTimer index).recordCheck index h.hpetGetTicks)
  obtain ⟨time, value, hfold⟩ := foldReference_frame
    ((h₁.hpetSetTimer index).recordCheck index h.hpetGetTicks) h.clock.nanos
  refine ⟨?_, by rw [hfold]; rfl, by rw [hfold]; rfl, ?_⟩
  · rw [hfold]
    simp [recordCheck, setTimer, hpetSetTimer]
  · rw [← hclock]
    exact hticks

/-- What raising the interrupt of an enabled comparator adds to the queues. -/
def raised (h : BxHpetC) (index : Fin 3) : List (BitVec 8 × Bool) × List (BitVec 64 × BitVec 32) :=
  let timer := h.timers index
  if timer.fsbRoute then ([], [(timer.fsb >>> 32, timer.fsb.setWidth 32)])
  else if timer.level then ([(h.route index, true)], [])
  else ([(h.route index, false), (h.route index, true)], [])

theorem updateIrq_raised (henabled : h.enabled) (htimer : (h.timers index).enabled)
    (hirq : h.irqOps.length + 2 ≤ 32) (hfsb : h.fsbWrites.length < 8) :
    (h.updateIrq index true).irqOps = h.irqOps ++ (h.raised index).1 ∧
      (h.updateIrq index true).fsbWrites = h.fsbWrites ++ (h.raised index).2 := by
  have hone : ¬ 32 ≤ h.irqOps.length := by omega
  have htwo : ¬ 32 ≤ h.irqOps.length + 1 := by omega
  have hroom : ¬ 8 ≤ h.fsbWrites.length := by omega
  cases hlevel : (h.timers index).level <;> cases hroute : (h.timers index).fsbRoute <;>
    simp [updateIrq, raised, pushIrq, pushFsb, henabled, htimer, hlevel, hroute, hone, htwo, hroom]

theorem updateIrq_frame (h : BxHpetC) (index : Fin 3) (set : Bool) : ∃ isr irqOps fsbWrites,
    h.updateIrq index set = { h with isr := isr, irqOps := irqOps, fsbWrites := fsbWrites } := by
  unfold updateIrq pushIrq pushFsb
  dsimp only
  split_ifs <;> exact ⟨_, _, _, rfl⟩

end BxHpetC

/-- The width of a comparator, and its value and its period in that width. -/
def HpetTimer.width (timer : HpetTimer) : Nat := if timer.narrow then 32 else 64
def HpetTimer.comparator (timer : HpetTimer) : Nat := timer.cmp.toNat % 2 ^ timer.width
def HpetTimer.interval (timer : HpetTimer) : Nat := timer.period.toNat % 2 ^ timer.width

/-- An enabled periodic comparator that came due between its last check and `t`. -/
structure HpetTimer.Due (timer : HpetTimer) (t : Nat) : Prop where
  enabled : timer.enabled
  periodic : timer.periodic
  interval_pos : 0 < timer.interval
  last : timer.lastChecked.toNat < timer.comparator
  reached : timer.comparator ≤ t
  bound : t + timer.interval < 2 ^ timer.width

namespace BxHpetC

variable {h : BxHpetC} {index : Fin 3}

theorem checkComparator_due (hdue : (h.timers index).Due h.hpetGetTicks.toNat) {fuel : Nat}
    (hfuel : h.hpetGetTicks.toNat < (h.timers index).comparator + fuel) :
    ∃ cmp k, h.checkComparator index fuel =
        some ((h.updateIrq index true).setTimer index { h.timers index with cmp := cmp }) ∧
      cmp.toNat = (h.timers index).comparator + k * (h.timers index).interval ∧
      h.hpetGetTicks.toNat < cmp.toNat ∧
      cmp.toNat ≤ h.hpetGetTicks.toNat + (h.timers index).interval := by
  obtain ⟨-, hperiodic, hpos, hlast, hreached, hbound⟩ := hdue
  unfold checkComparator
  generalize h.timers index = timer at *
  generalize h.hpetGetTicks = t at *
  unfold HpetTimer.comparator HpetTimer.interval HpetTimer.width at *
  cases hnarrow : timer.narrow with
  | false =>
    simp only [hnarrow, Bool.false_eq_true, if_false, Nat.mod_eq_of_lt timer.cmp.isLt,
      Nat.mod_eq_of_lt timer.period.isLt] at *
    have hin : timeBetween timer.lastChecked t timer.cmp = true :=
      (timeBetween_iff (by omega)).mpr ⟨by omega, hreached⟩
    have hperiod : timer.period ≠ 0#64 := by
      rintro h0
      simp [h0] at hpos
    obtain ⟨cmp, k, hcmp, hval⟩ := catchUp_eq hlast.le hreached hpos hbound hfuel
    refine ⟨cmp, k, ?_, hval⟩
    simp [hperiodic, hin, hperiod, hcmp]
  | true =>
    simp only [hnarrow, if_true] at *
    have hwide (x : BitVec 64) : ((x.setWidth 32).setWidth 64).toNat = x.toNat % 2 ^ 32 := by
      rw [toNat_setWidth_of_le (by decide), toNat_setWidth]
    have hcmp64 := cmp32ToCmp64_eq (l := timer.lastChecked) (c := timer.cmp.setWidth 32)
      (by rw [toNat_setWidth]; exact hlast.le)
    simp only [← hwide] at hpos hlast hreached hbound hfuel ⊢
    have hin := (timeBetween_iff (by omega)).mpr ⟨hlast.le, hreached⟩
    have hperiod : timer.period.setWidth 32 ≠ 0#32 := by
      rintro h0
      simp [h0] at hpos
    obtain ⟨cmp, k, hcmp, hval, hlow, hhigh⟩ :=
      catchUp_eq hlast.le hreached hpos (hbound.trans (by decide)) hfuel
    have hback : (cmp.setWidth 32).setWidth 64 = cmp := by
      apply eq_of_toNat_eq
      rw [hwide]
      omega
    refine ⟨cmp, k, ?_, hval, hlow, hhigh⟩
    simp [hperiodic, hcmp64, hin, hperiod, hcmp, hback]

/-- A periodic comparator that is due raises its interrupt once, stays in phase, and ends up at
the one value in phase within a period after the counter, which goes on undisturbed. -/
theorem hpet_comparator_in_phase (henabled : h.enabled)
    (hdue : (h.timers index).Due h.hpetGetTicks.toNat) {fuel : Nat}
    (hfuel : h.hpetGetTicks.toNat < (h.timers index).comparator + fuel) :
    ∃ h' k, h.timerFired index fuel = some h' ∧
      (h'.timers index).cmp.toNat = (h.timers index).comparator + k * (h.timers index).interval ∧
      (∀ j, h.hpetGetTicks.toNat < (h.timers index).comparator + j * (h.timers index).interval ∧
        (h.timers index).comparator + j * (h.timers index).interval ≤
          h.hpetGetTicks.toNat + (h.timers index).interval ↔ j = k) ∧
      (h.irqOps.length + 2 ≤ 32 → h.fsbWrites.length < 8 →
        h'.irqOps = h.irqOps ++ (h.raised index).1 ∧
          h'.fsbWrites = h.fsbWrites ++ (h.raised index).2) ∧
      h'.hpetGetTicks = h.hpetGetTicks := by
  obtain ⟨cmp, k, hcheck, hval, hlow, hhigh⟩ := checkComparator_due hdue hfuel
  obtain ⟨isr, irqOps, fsbWrites, hframe⟩ := updateIrq_frame h index true
  have hraised := updateIrq_raised henabled hdue.enabled
  rw [hframe] at hcheck hraised
  obtain ⟨h', hrun, hcmp, hirq, hfsb, hticks⟩ := timerFired_of_check hcheck rfl
  have hcmp' : (h'.timers index).cmp = cmp := by
    rw [hcmp]
    simp [setTimer]
  rw [hval] at hlow hhigh
  refine ⟨h', k, hrun, by rw [hcmp', hval], phase_unique hlow hhigh, ?_, hticks⟩
  rwa [hirq, hfsb]

/-- The counter at 50 nanoseconds, its fifth tick, and comparator 0 due since tick 1, every
three ticks. -/
def tickingHpet : BxHpetC where
  config := 1#64
  isr := 0
  hpetReferenceValue := 0
  hpetReferenceTime := 0
  timers _ := ⟨0xC#64, 1#64, 0, 3#64, 0⟩
  clock := ⟨50#64, ⟨1000000000#64, by decide⟩⟩
  irqOps := []
  fsbWrites := []
  timerOps _ := none

/-- The comparator goes on by two periods, past tick 4, to the next one in phase. -/
theorem tickingHpet_in_phase : ∃ h', tickingHpet.timerFired 0 5 = some h' ∧
    (h'.timers 0).cmp.toNat = 7 ∧ h'.irqOps = [(0#8, false), (0#8, true)] ∧
    h'.hpetGetTicks = 5#64 := by
  have hdue : (tickingHpet.timers 0).Due tickingHpet.hpetGetTicks.toNat := by
    constructor <;> decide
  obtain ⟨h', k, hrun, hcmp, hphase, hraised, hticks⟩ :=
    @hpet_comparator_in_phase tickingHpet 0 (by decide) hdue 5 (by decide)
  obtain rfl : 2 = k := (hphase 2).mp (by decide)
  exact ⟨h', hrun, hcmp, (hraised (by decide) (by decide)).1, hticks⟩

end BxHpetC

end RustyBox
