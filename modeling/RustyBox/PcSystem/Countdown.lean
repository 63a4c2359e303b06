-- SUMMARY: What one countdown event does to a wheel whose active deadlines are not overdue.
import RustyBox.PcSystem.Timer
import Mathlib.Data.List.Pairwise
import Mathlib.Order.Basic

/-!
# The countdown event

The scan of `countdown_event` visits the slots one by one and carries four
accumulators. When no active deadline lies before the tick of the event, its
outcome has a closed form, slot by slot: `Timer.fireAt` for the slots and
`Timer.due` for the fires. `countdownEvent_eq` states it; the rest of the
development uses only that equation.
-/

namespace RustyBox

open PcSystem Function List Timer

namespace Timer

/-- The timer fires at `tick`. -/
def due (tick : Nat) (t : Timer) : Bool :=
  t.flags.active && t.timeToFire == tick

/-- The timer after an event at `tick`: a due one-shot is deactivated, a due
continuous timer is moved one period on. -/
def fireAt (tick : Nat) (t : Timer) : Timer :=
  if t.due tick then
    if t.flags.continuous then { t with timeToFire := tick + t.period }
    else { t with flags := { t.flags with active := false } }
  else t

/-- The next deadline of a continuous timer due at `tick` fits in a `u64`. -/
def Rearms (tick : Nat) (t : Timer) : Prop :=
  t.due tick → t.flags.continuous → tick + t.period ≤ u64Max

instance (tick : Nat) (t : Timer) : Decidable (t.Rearms tick) := by
  unfold Rearms; infer_instance

/-- An active timer is not overdue at `tick`, and its period moves it forward. -/
structure Pending (tick : Nat) (t : Timer) : Prop where
  not_overdue : t.flags.active → tick ≤ t.timeToFire
  period_pos : t.flags.active → 1 ≤ t.period

theorem fireAt_of_inactive {tick : Nat} {t : Timer} (h : t.flags.active = false) :
    t.fireAt tick = t := by
  simp [fireAt, due, h]

variable (tick : Nat) (t : Timer)

@[simp] theorem fireAt_owner : (t.fireAt tick).owner = t.owner := by
  unfold fireAt; split_ifs <;> rfl

@[simp] theorem fireAt_id : (t.fireAt tick).id = t.id := by
  unfold fireAt; split_ifs <;> rfl

@[simp] theorem fireAt_period : (t.fireAt tick).period = t.period := by
  unfold fireAt; split_ifs <;> rfl

@[simp] theorem fireAt_inUse : (t.fireAt tick).flags.inUse = t.flags.inUse := by
  unfold fireAt; split_ifs <;> rfl

/-- A timer still active after the event is due strictly later. -/
theorem fireAt_later {tick : Nat} {t : Timer} (hp : t.Pending tick)
    (h : (t.fireAt tick).flags.active) : tick < (t.fireAt tick).timeToFire := by
  by_cases hd : t.due tick
  · by_cases hc : t.flags.continuous
    · simp only [fireAt, hd, hc, ↓reduceIte] at h ⊢
      have := hp.period_pos h
      omega
    · simp [fireAt, hd, hc] at h
  · simp only [fireAt, hd, Bool.false_eq_true, ↓reduceIte] at h ⊢
    have hne : t.timeToFire ≠ tick := fun he => hd (by simp [due, h, he])
    have := hp.not_overdue h
    omega

end Timer

namespace PcSystem

variable {tick : Nat} {a : Scan} {i : Fin maxTimers}

/-- The rearming loop of a timer due exactly now adds one period. -/
theorem advanceDeadline_due {period : Nat} (hp : 1 ≤ period) :
    advanceDeadline tick period 2 tick = checkedAdd tick period := by
  simp only [advanceDeadline, le_refl, ↓reduceIte]
  cases h : checkedAdd tick period with
  | none => rfl
  | some d =>
    have := (checkedAdd_eq_some.mp h).1
    simp only [Option.bind_some, ite_eq_right_iff]
    omega

/-! ## One slot of the scan -/

/-- What one iteration makes of the accumulators when it does not overflow. -/
def scanResult (tick : Nat) (a : Scan) (i : Fin maxTimers) : Scan where
  timers := update a.timers i ((a.timers i).fireAt tick)
  minTimeToFire :=
    if ((a.timers i).fireAt tick).flags.active then
      min ((a.timers i).fireAt tick).timeToFire a.minTimeToFire
    else a.minTimeToFire
  triggered := update a.triggered i (a.triggered i || (a.timers i).due tick)
  first := if (a.timers i).due tick then min i.val a.first else a.first
  last := if (a.timers i).due tick then i.val else a.last

theorem scanTimer_eq (hp : (a.timers i).Pending tick) :
    scanTimer tick a i =
      if (a.timers i).Rearms tick then some (scanResult tick a i) else none := by
  unfold scanTimer scanResult
  generalize hT : a.timers i = t at hp ⊢
  have hmin : ∀ x y : Nat, (if x < y then x else y) = min x y := fun x y => by
    split <;> omega
  have hsame : update a.timers i t = a.timers := by
    rw [← hT, update_eq_self]
  by_cases hact : t.flags.active
  · by_cases hdue : t.timeToFire ≤ tick
    · have heq : t.timeToFire = tick := le_antisymm hdue (hp.not_overdue hact)
      have hd : t.due tick = true := by simp [due, hact, heq]
      by_cases hc : t.flags.continuous
      · have hadv : advanceDeadline tick t.period 2 tick = checkedAdd tick t.period :=
          advanceDeadline_due (hp.period_pos hact)
        by_cases hfit : tick + t.period ≤ u64Max
        · simp [hact, heq, hd, hc, hadv, hmin, Rearms, fireAt,
            checkedAdd]
        · simp [hact, heq, hd, hc, hfit, hadv, Rearms, checkedAdd]
      · simp [hact, heq, hd, hc, hmin, Rearms, fireAt]
    · have hd : t.due tick = false := by
        simp only [due, Bool.and_eq_false_imp, beq_eq_false_iff_ne]
        omega
      simp [hact, hdue, hd, hmin, hsame, Rearms, fireAt]
  · have hd : t.due tick = false := by simp [due, hact]
    simp [hact, hd, hsame, Rearms, fireAt]

/-! ## The whole scan -/

theorem scanResult_timers_of_ne {j : Fin maxTimers} (h : j ≠ i) :
    (scanResult tick a i).timers j = a.timers j :=
  update_of_ne h _ _

variable {l : List (Fin maxTimers)} {s : PcSystem}

theorem foldlM_scanTimer (hnd : l.Nodup) (hp : ∀ i ∈ l, (a.timers i).Pending tick) :
    l.foldlM (scanTimer tick) a =
      if ∀ i ∈ l, (a.timers i).Rearms tick then some (l.foldl (scanResult tick) a) else none := by
  induction l generalizing a with
  | nil => simp
  | cons i rest ih =>
    obtain ⟨hi, hrest⟩ := List.nodup_cons.mp hnd
    -- the slots still to come are the ones the step at `i` left alone
    have hkeep : ∀ j ∈ rest, (scanResult tick a i).timers j = a.timers j := fun j hj =>
      scanResult_timers_of_ne fun he => hi (he ▸ hj)
    rw [foldlM_cons, scanTimer_eq (hp i (by simp))]
    by_cases hr : (a.timers i).Rearms tick
    · have hiff : (∀ j ∈ rest, ((scanResult tick a i).timers j).Rearms tick) ↔
          ∀ j ∈ i :: rest, (a.timers j).Rearms tick := by
        simp only [mem_cons, forall_eq_or_imp, hr, true_and]
        exact forall₂_congr fun j hj => by rw [hkeep j hj]
      rw [if_pos hr]
      simp only [Option.bind_eq_bind, Option.bind_some]
      rw [ih hrest fun j hj => by rw [hkeep j hj]; exact hp j (by simp [hj])]
      exact if_congr hiff rfl rfl
    · have hnot : ¬ ∀ j ∈ i :: rest, (a.timers j).Rearms tick := fun h => hr (h i (by simp))
      rw [if_neg hr, if_neg hnot]
      rfl

theorem foldl_scanResult_timers (hnd : l.Nodup) (j : Fin maxTimers) :
    (l.foldl (scanResult tick) a).timers j =
      if j ∈ l then (a.timers j).fireAt tick else a.timers j := by
  induction l generalizing a with
  | nil => simp
  | cons i rest ih =>
    obtain ⟨hi, hrest⟩ := List.nodup_cons.mp hnd
    rw [foldl_cons, ih hrest]
    by_cases hj : j = i
    · subst hj
      simp [hi, scanResult]
    · simp [scanResult_timers_of_ne hj, hj]

theorem foldl_scanResult_triggered (hnd : l.Nodup) (j : Fin maxTimers) :
    (l.foldl (scanResult tick) a).triggered j =
      (a.triggered j || (decide (j ∈ l) && (a.timers j).due tick)) := by
  induction l generalizing a with
  | nil => simp
  | cons i rest ih =>
    obtain ⟨hi, hrest⟩ := List.nodup_cons.mp hnd
    rw [foldl_cons, ih hrest]
    by_cases hj : j = i
    · subst hj
      simp [hi, scanResult]
    · simp [hj, scanResult]

/-- The scan's minimum is the earliest deadline still active after it. -/
theorem le_foldl_scanResult_min {m : Nat} (hnd : l.Nodup) :
    m ≤ (l.foldl (scanResult tick) a).minTimeToFire ↔
      m ≤ a.minTimeToFire ∧ ∀ j ∈ l, ((a.timers j).fireAt tick).flags.active →
        m ≤ ((a.timers j).fireAt tick).timeToFire := by
  induction l generalizing a with
  | nil => simp
  | cons i rest ih =>
    obtain ⟨hi, hrest⟩ := List.nodup_cons.mp hnd
    have hkeep : ∀ j ∈ rest, (scanResult tick a i).timers j = a.timers j := fun j hj =>
      scanResult_timers_of_ne fun he => hi (he ▸ hj)
    have hstep : m ≤ (scanResult tick a i).minTimeToFire ↔
        m ≤ a.minTimeToFire ∧ (((a.timers i).fireAt tick).flags.active →
          m ≤ ((a.timers i).fireAt tick).timeToFire) := by
      unfold scanResult
      by_cases hact : ((a.timers i).fireAt tick).flags.active
      · simp only [hact, ↓reduceIte, Nat.le_min, forall_const]
        exact and_comm
      · simp [hact]
    rw [foldl_cons, ih hrest, hstep, forall_mem_cons, and_assoc]
    refine and_congr_right fun _ => and_congr_right fun _ => forall₂_congr fun j hj => ?_
    rw [hkeep j hj]

/-- `first` and `last` enclose every triggered slot, so recording only that range
misses none. -/
theorem foldl_scanResult_range (hsorted : l.Pairwise (· < ·)) (hlast : ∀ i ∈ l, a.last ≤ i.val)
    (hin : ∀ j, a.triggered j → a.first ≤ j.val ∧ j.val ≤ a.last) (j : Fin maxTimers)
    (hj : (l.foldl (scanResult tick) a).triggered j) :
    (l.foldl (scanResult tick) a).first ≤ j.val ∧ j.val ≤ (l.foldl (scanResult tick) a).last := by
  induction l generalizing a with
  | nil => exact hin j hj
  | cons i rest ih =>
    obtain ⟨hlt, hrest⟩ := List.pairwise_cons.mp hsorted
    refine ih hrest (fun k hk => ?_) (fun k hk => ?_) hj
    · have hik : i.val < k.val := hlt k hk
      have := hlast k (by simp [hk])
      simp only [scanResult]
      split_ifs <;> omega
    · have hi := hlast i (by simp)
      by_cases hd : (a.timers i).due tick
      · by_cases hki : k = i
        · subst hki
          simp [scanResult, hd]
        · have hk' : a.triggered k := by
            simpa [scanResult, update_of_ne hki] using hk
          have := hin k hk'
          simp only [scanResult, hd, ↓reduceIte]
          omega
      · have hk' : a.triggered k := by
          by_cases hki : k = i
          · simpa [scanResult, hd] using hk
          · simpa [scanResult, update_of_ne hki] using hk
        simpa [scanResult, hd] using hin k hk'

/-! ## The event -/

theorem nextPeriod_le (m tick : Nat) : nextPeriod m tick ≤ nullTimerInterval := by
  exact max_le (by decide) (min_le_right _ _)

/-- The next countdown does not overshoot a deadline that the minimum bounds. -/
theorem nextPeriod_fits {m d : Nat} (hm : m ≤ d) (hd : tick < d) :
    tick + nextPeriod m tick ≤ d := by
  have hone : minAllowableTimerPeriod = 1 := rfl
  simp only [nextPeriod]
  split_ifs <;> omega

/-- The slots an event at `tick` fires. -/
def dueSlots (s : PcSystem) (tick : Nat) : List (Fin maxTimers) :=
  (finRange maxTimers).filter fun i => (s.timers i).due tick

theorem mem_dueSlots : i ∈ s.dueSlots tick ↔ (s.timers i).due tick = true := by
  simp [dueSlots]

/-- The fired queue after the fires of `slots` are recorded. -/
def recordFires (s : PcSystem) (slots : List (Fin maxTimers)) : List (TimerOwner × Nat) :=
  slots.foldl (fun q i => recordFiredOwner q (s.timers i).owner) s.fired

/-- The wheel after an event at `tick` that starts a countdown of `period`. -/
def afterEvent (s : PcSystem) (tick period : Nat) : PcSystem :=
  { s with
    ticksTotal := tick
    timers := fun i => (s.timers i).fireAt tick
    currCountdown := period
    currCountdownPeriod := period
    fired := s.recordFires (s.dueSlots tick)
    triggeredTimer := if s.dueSlots tick = [] then s.triggeredTimer else 0 }

/-- `period` is a countdown the wheel may start at `tick`: within the `u32` horizon
and not beyond any deadline still active after the event. -/
structure NextCountdown (s : PcSystem) (tick period : Nat) : Prop where
  pos : 1 ≤ period
  le : period ≤ nullTimerInterval
  fits : ∀ i, ((s.timers i).fireAt tick).flags.active →
    tick + period ≤ ((s.timers i).fireAt tick).timeToFire

theorem liveSlots_sorted (s : PcSystem) : s.liveSlots.Pairwise (· < ·) :=
  (pairwise_lt_finRange maxTimers).filter _

theorem mem_liveSlots : i ∈ s.liveSlots ↔ i.val < s.numTimers := by
  simp [liveSlots]

/-- The countdown event of a wheel none of whose active timers is overdue: it fires
the timers due at the tick it reaches, and fails only when rearming one of them
overflows. -/
theorem countdownEvent_eq (htick : tick = s.ticksTotal + s.currCountdownPeriod)
    (hfit : tick ≤ u64Max) (hp : ∀ i, (s.timers i).Pending tick)
    (hlive : ∀ i, (s.timers i).flags.active → i.val < s.numTimers) :
    ∃ period, s.NextCountdown tick period ∧
      s.countdownEvent =
        if ∀ i, (s.timers i).Rearms tick then
          some (s.afterEvent tick period, (s.dueSlots tick).map fun i => (tick, i))
        else none := by
  set a := s.liveSlots.foldl (scanResult tick) s.startScan with ha
  have hnd : s.liveSlots.Nodup := s.liveSlots_sorted.imp ne_of_lt
  have hinactive : ∀ i, i ∉ s.liveSlots → (s.timers i).flags.active = false := fun i hi => by
    by_contra hact
    exact hi (mem_liveSlots.mpr (hlive i (by simpa using hact)))
  have htimers : a.timers = fun i => (s.timers i).fireAt tick := by
    funext i
    rw [foldl_scanResult_timers hnd]
    split_ifs with hi
    · rfl
    · exact (fireAt_of_inactive (hinactive i hi)).symm
  have htriggered : ∀ i, a.triggered i = (s.timers i).due tick := fun i => by
    rw [foldl_scanResult_triggered hnd]
    by_cases hi : i ∈ s.liveSlots
    · simp [hi, startScan]
    · simp [startScan, due, hinactive i hi]
  have hdue : ((finRange maxTimers).filter fun i =>
      a.first ≤ i.val && i.val ≤ a.last && a.triggered i) = s.dueSlots tick := by
    refine filter_congr fun i _ => ?_
    rw [← htriggered i]
    by_cases ht : a.triggered i
    · have hrange : a.first ≤ i.val ∧ i.val ≤ a.last :=
        foldl_scanResult_range s.liveSlots_sorted (fun _ _ => Nat.zero_le _) (by simp [startScan]) i ht
      simp [hrange]
    · simp [ht]
  have hrearms : (∀ i ∈ s.liveSlots, (s.timers i).Rearms tick) ↔ ∀ i, (s.timers i).Rearms tick := by
    refine ⟨fun h i => ?_, fun h i _ => h i⟩
    by_cases hi : i ∈ s.liveSlots
    · exact h i hi
    · intro hd
      simp [due, hinactive i hi] at hd
  have hscan : s.liveSlots.foldlM (scanTimer tick) s.startScan =
      if ∀ i, (s.timers i).Rearms tick then some a else none :=
    (foldlM_scanTimer hnd fun i _ => hp i).trans (if_congr hrearms rfl rfl)
  refine ⟨nextPeriod a.minTimeToFire tick, ⟨le_max_left _ _, nextPeriod_le _ _, ?_⟩, ?_⟩
  · intro i hact
    refine nextPeriod_fits ?_ (fireAt_later (hp i) hact)
    have hi : i ∈ s.liveSlots := by
      by_contra hi
      rw [fireAt_of_inactive (hinactive i hi), hinactive i hi] at hact
      simp at hact
    exact ((le_foldl_scanResult_min hnd).mp (le_refl a.minTimeToFire)).2 i hi hact
  · unfold countdownEvent
    rw [show checkedAdd s.ticksTotal s.currCountdownPeriod = some tick from
      checkedAdd_eq_some.mpr ⟨htick, htick ▸ hfit⟩]
    simp only [Option.bind_eq_bind, Option.bind_some, hscan]
    split_ifs with hr
    · simp only [Option.bind_some, hdue, htimers, fireAt_owner]
      rfl
    · rfl

end PcSystem

end RustyBox
