-- SUMMARY: The invariant of the timer wheel, kept by every operation, and the reachable wheels.
import RustyBox.PcSystem.Countdown
import RustyBox.PcSystem.FiredQueue

/-!
# Well-formed wheels

`WellFormed` ties the countdown pair to the active deadlines: the countdown is
positive and the event it leads to comes no later than any active deadline. Each
operation keeps it, so it holds of every wheel reached from `new` and
`initialize`.
-/

namespace RustyBox

open PcSystem

/-- What holds of slot `i` when `numTimers` slots are live and the next countdown
event is at tick `horizon`. -/
structure SlotOk (numTimers horizon : Nat) (i : Fin maxTimers) (t : Timer) : Prop where
  inUse_lt : t.flags.inUse → i.val < numTimers
  unused : t.flags.inUse = false → t.flags = .empty ∧ t.owner = .nullTimer ∧ t.id = zeroId
  period_pos : t.flags.inUse → 1 ≤ t.period
  horizon_le : t.flags.active → horizon ≤ t.timeToFire
  deadline_fits : t.timeToFire ≤ u64Max
  period_fits : t.period ≤ u64Max
  id_terminated : t.id[31] = 0
  null_slot : i = slot0 → t = { nullTimer with timeToFire := t.timeToFire }

namespace SlotOk

variable {numTimers horizon : Nat} {i : Fin maxTimers} {t : Timer}

theorem active_inUse (h : SlotOk numTimers horizon i t) (hact : t.flags.active) :
    t.flags.inUse := by
  by_contra hu
  have := (h.unused (by simpa using hu)).1
  simp [this, TimerFlags.empty] at hact

/-- An earlier event and more live slots only weaken what is asked of a slot. -/
theorem mono {numTimers' horizon' : Nat} (h : SlotOk numTimers horizon i t)
    (hn : numTimers ≤ numTimers') (hh : horizon' ≤ horizon) : SlotOk numTimers' horizon' i t :=
  { h with
    inUse_lt := fun hu => (h.inUse_lt hu).trans_le hn
    horizon_le := fun ha => hh.trans (h.horizon_le ha) }

theorem pending (h : SlotOk numTimers horizon i t) : t.Pending horizon where
  not_overdue := h.horizon_le
  period_pos := fun ha => h.period_pos (h.active_inUse ha)

end SlotOk

/-- The invariant of the wheel. -/
structure WellFormed (s : PcSystem) : Prop where
  countdown_pos : 0 < s.currCountdown
  countdown_le : s.currCountdown ≤ s.currCountdownPeriod
  period_le : s.currCountdownPeriod ≤ nullTimerInterval
  numTimers_pos : 0 < s.numTimers
  numTimers_le : s.numTimers ≤ maxTimers
  slots : ∀ i, SlotOk s.numTimers (s.ticksTotal + s.currCountdownPeriod) i (s.timers i)
  queue : QueueOk s.fired
  triggered : s.triggeredTimer = 0
  ips_pos : 0 < s.ips
  a20 : s.a20Mask = if s.enableA20 then 0xFFFFFFFFFFFFFFFF else 0xFFFFFFFFFFEFFFFF

namespace WellFormed

variable {s : PcSystem}

variable (h : WellFormed s)
include h

theorem null_slot : s.timers slot0 = { nullTimer with timeToFire := (s.timers slot0).timeToFire } :=
  (h.slots slot0).null_slot rfl

theorem horizon_fits : s.ticksTotal + s.currCountdownPeriod ≤ u64Max := by
  -- the null timer is always active, so its deadline bounds the next event
  have hact : (s.timers slot0).flags.active := by rw [h.null_slot]; rfl
  exact ((h.slots slot0).horizon_le hact).trans (h.slots slot0).deadline_fits

/-- `time_ticks()` never overflows. -/
theorem timeTicks_fits : s.timeTicks ≤ u64Max := by
  have := h.horizon_fits
  unfold timeTicks
  omega

theorem active_lt {i : Fin maxTimers} (hact : (s.timers i).flags.active) : i.val < s.numTimers :=
  (h.slots i).inUse_lt ((h.slots i).active_inUse hact)

/-- The event is the elapsed time plus what is left of the countdown. -/
theorem horizon_eq : s.ticksTotal + s.currCountdownPeriod = s.timeTicks + s.currCountdown := by
  have := h.countdown_le
  unfold timeTicks
  omega

/-- A new countdown that ends no later than the old event keeps the invariant. -/
theorem withCountdown {c p : Nat} (hc : 0 < c) (hcp : c ≤ p) (hp : p ≤ s.currCountdownPeriod) :
    WellFormed { s with currCountdown := c, currCountdownPeriod := p } :=
  { h with
    countdown_pos := hc
    countdown_le := hcp
    period_le := hp.trans h.period_le
    slots := fun i => (h.slots i).mono le_rfl (Nat.add_le_add_left hp _) }

/-- Replacing one slot by a timer that meets the slot invariant. -/
theorem setTimer {i : Fin maxTimers} {t : Timer}
    (ht : SlotOk s.numTimers (s.ticksTotal + s.currCountdownPeriod) i t) :
    WellFormed (s.setTimer i t) :=
  { h with
    slots := fun j => by
      by_cases hj : j = i
      · subst hj
        simpa [PcSystem.setTimer] using ht
      · simpa [PcSystem.setTimer, Function.update_of_ne hj] using h.slots j }

end WellFormed

/-! ## The start state -/

theorem zeroId_terminated : zeroId[31] = 0 := by decide

theorem slotOk_unused (numTimers horizon : Nat) {i : Fin maxTimers} (hi : i ≠ slot0) :
    SlotOk numTimers horizon i .unused where
  inUse_lt := by simp [Timer.unused, TimerFlags.empty]
  unused := fun _ => ⟨rfl, rfl, rfl⟩
  period_pos := by simp [Timer.unused, TimerFlags.empty]
  horizon_le := by simp [Timer.unused, TimerFlags.empty]
  deadline_fits := Nat.zero_le _
  period_fits := Nat.zero_le _
  id_terminated := zeroId_terminated
  null_slot := fun h => absurd h hi

theorem slotOk_nullTimer : SlotOk 1 nullTimerInterval slot0 nullTimer where
  inUse_lt := fun _ => Nat.one_pos
  unused := by simp [nullTimer]
  period_pos := fun _ => by decide
  horizon_le := fun _ => le_rfl
  deadline_fits := by decide
  period_fits := by decide
  id_terminated := zeroId_terminated
  null_slot := fun _ => rfl

theorem start_wellFormed (ips : Nat) : WellFormed (new.initializeWith ips) where
  countdown_pos := by simp [initializeWith, nullTimerInterval]
  countdown_le := le_rfl
  period_le := le_rfl
  numTimers_pos := by simp [initializeWith, PcSystem.setTimer, new]
  numTimers_le := by simp [initializeWith, PcSystem.setTimer, new, maxTimers]
  slots := fun i => by
    by_cases hi : i = slot0
    · subst hi
      simpa [initializeWith, PcSystem.setTimer, new, nullTimer] using slotOk_nullTimer
    · simpa [initializeWith, PcSystem.setTimer, new, hi] using slotOk_unused 1 _ hi
  queue := queueOk_nil
  triggered := rfl
  ips_pos := by simp [initializeWith]
  a20 := rfl

/-! ## Arming and registration -/

variable {s : PcSystem}

/-- A deadline in the future moves the countdown at most forward, keeps the elapsed
part and leaves the next event no later than the deadline. -/
theorem shortenCountdownTo_eq {d : Nat} (hpos : 0 < s.currCountdown)
    (hle : s.currCountdown ≤ s.currCountdownPeriod) (hd : s.timeTicks < d) :
    ∃ c p, s.shortenCountdownTo d = { s with currCountdown := c, currCountdownPeriod := p } ∧
      0 < c ∧ c ≤ p ∧ p ≤ s.currCountdownPeriod ∧
      p - c = s.currCountdownPeriod - s.currCountdown ∧ s.ticksTotal + p ≤ d := by
  unfold shortenCountdownTo
  simp only [Nat.not_lt.mpr hd.le, ↓reduceIte]
  split_ifs with h
  · refine ⟨s.currCountdown, s.currCountdownPeriod, rfl, hpos, hle, le_rfl, rfl, ?_⟩
    unfold timeTicks at h hd
    omega
  · refine ⟨_, _, rfl, ?_⟩
    unfold timeTicks at h hd ⊢
    omega

theorem validateTimerIndex_ok {n : Nat} {i : Fin maxTimers} (h : s.validateTimerIndex n = .ok i) :
    i.val = n ∧ i ≠ slot0 ∧ (s.timers i).flags.inUse := by
  unfold validateTimerIndex at h
  split_ifs at h with hn h0 hu
  cases h
  exact ⟨rfl, fun he => h0 (congrArg Fin.val he), hu⟩

namespace WellFormed

variable {s : PcSystem}

variable {i : Fin maxTimers}

theorem arm (h : WellFormed s) {d : Nat} {continuous : Bool} (hi : i ≠ slot0)
    (hu : (s.timers i).flags.inUse) (hd : s.timeTicks < d) (hfit : d ≤ u64Max) :
    WellFormed (s.arm i d continuous) ∧ (s.arm i d continuous).timeTicks = s.timeTicks := by
  let t : Timer := { s.timers i with
    timeToFire := d
    flags := { (s.timers i).flags with active := true, continuous := continuous } }
  obtain ⟨c, p, heq, hc, hcp, hp, helapsed, hhor⟩ :=
    shortenCountdownTo_eq (s := s.setTimer i t) h.countdown_pos h.countdown_le hd
  have hw := h.withCountdown hc hcp hp
  have ht : SlotOk s.numTimers (s.ticksTotal + p) i t :=
    { (h.slots i) with
      inUse_lt := (h.slots i).inUse_lt
      unused := fun hf => by simp [t, hu] at hf
      period_pos := (h.slots i).period_pos
      horizon_le := fun _ => hhor
      deadline_fits := hfit
      null_slot := fun h0 => absurd h0 hi }
  have harm : s.arm i d continuous =
      { s with currCountdown := c, currCountdownPeriod := p }.setTimer i t := heq
  rw [harm]
  exact ⟨hw.setTimer ht, congrArg (s.ticksTotal + ·) helapsed⟩

theorem setPeriod (h : WellFormed s) {p : Nat} (hi : i ≠ slot0) (hp : 1 ≤ p)
    (hfit : p ≤ u64Max) : WellFormed (s.setPeriod i p) :=
  h.setTimer
    { (h.slots i) with
      period_pos := fun _ => hp
      period_fits := hfit
      null_slot := fun h0 => absurd h0 hi }

end WellFormed

/-- What a call that starts a timer does to the wheel: it may set the period of a timer, and may
give one that is in use a deadline in the future. -/
inductive Arming : PcSystem → PcSystem → Prop
  | still (s : PcSystem) : Arming s s
  | arm {s : PcSystem} {i : Fin maxTimers} {d : Nat} (continuous : Bool) (hi : i ≠ slot0)
    (hu : (s.timers i).flags.inUse) (hd : s.timeTicks < d) (hfit : d ≤ u64Max) :
    Arming s (s.arm i d continuous)
  | setPeriod {s s' : PcSystem} {i : Fin maxTimers} {p : Nat} (hi : i ≠ slot0) (hp : 1 ≤ p)
    (hfit : p ≤ u64Max) (h : Arming (s.setPeriod i p) s') : Arming s s'

theorem Arming.wellFormed {s' : PcSystem} (ha : Arming s s') (h : WellFormed s) :
    WellFormed s' := by
  induction ha with
  | still s => exact h
  | arm _ hi hu hd hfit => exact (h.arm hi hu hd hfit).1
  | setPeriod hi hp hfit _ ih => exact ih (h.setPeriod hi hp hfit)

section Arming

variable (s : PcSystem) (n p : Nat) {d : Nat} (continuous : Bool)

theorem arming_activateTimerAtTicks (hfit : d ≤ u64Max) :
    Arming s (s.activateTimerAtTicks n d continuous).2 := by
  unfold activateTimerAtTicks
  split
  · exact .still s
  · rename_i i hi
    obtain ⟨-, hne, hu⟩ := validateTimerIndex_ok hi
    split_ifs with hd
    · split
      · exact .still s
      · rename_i d' hd'
        obtain ⟨rfl, hle⟩ := checkedAdd_eq_some.mp hd'
        exact .arm _ hne hu (Nat.lt_succ_self _) hle
    · exact .arm _ hne hu (Nat.lt_of_not_le hd) hfit

/-- The period is set first. -/
theorem arming_setPeriod {i : Fin maxTimers} (hi : s.validateTimerIndex n = .ok i)
    (hp : max p minAllowableTimerPeriod ≤ u64Max) (hd : d ≤ u64Max) :
    Arming s ((s.setPeriod i (max p minAllowableTimerPeriod)).activateTimerAtTicks n d
      continuous).2 :=
  .setPeriod (validateTimerIndex_ok hi).2.1 (le_max_right _ _) hp
    (arming_activateTimerAtTicks _ n continuous hd)

theorem arming_activateTimerAtTicksWithPeriod (hd : d ≤ u64Max) (hp : p ≤ u64Max) :
    Arming s (s.activateTimerAtTicksWithPeriod n d p continuous).2 := by
  unfold activateTimerAtTicksWithPeriod
  split
  · exact .still s
  · rename_i i hi
    exact arming_setPeriod s n p continuous hi (max_le hp (by decide)) hd

variable {s p} in
theorem deadlineFromNow_ok {p d : Nat} (h : s.deadlineFromNow p = .ok d) :
    d = s.timeTicks + p ∧ d ≤ u64Max := by
  unfold deadlineFromNow at h
  split at h
  · rename_i d' hd'
    cases h
    obtain ⟨rfl, hle⟩ := checkedAdd_eq_some.mp hd'
    exact ⟨rfl, hle⟩
  · cases h

theorem arming_activateTimer : Arming s (s.activateTimer n p continuous).2 := by
  unfold activateTimer
  split
  · exact .still s
  · rename_i i hi
    dsimp only
    split
    · exact .still s
    · rename_i d hd
      obtain ⟨rfl, hle⟩ := deadlineFromNow_ok hd
      exact arming_setPeriod s n p continuous hi ((Nat.le_add_left _ _).trans hle) hle

theorem arming_activateTimerUsec (useconds : Nat) :
    Arming s (s.activateTimerUsec n useconds continuous).2 := by
  unfold activateTimerUsec
  split
  · exact .still s
  · split_ifs
    · exact arming_activateTimer s n _ continuous
    · split
      · exact .still s
      · exact arming_activateTimer s n _ continuous

theorem arming_activateTimerNsec (nseconds : Nat) :
    Arming s (s.activateTimerNsec n nseconds continuous).2 := by
  unfold activateTimerNsec
  split
  · exact .still s
  · dsimp only
    split_ifs
    iterate 2 exact arming_activateTimer s n _ continuous
    · exact .still s

theorem arming_reactivateTimerRelative : Arming s (s.reactivateTimerRelative n p).2 := by
  unfold reactivateTimerRelative
  split
  · exact .still s
  · rename_i i hi
    dsimp only
    split
    · exact .still s
    · rename_i d hd
      obtain ⟨rfl, hle⟩ := checkedAdd_eq_some.mp hd
      exact arming_setPeriod s n p false hi ((Nat.le_add_left _ _).trans hle) hle

end Arming

namespace WellFormed

variable {i : Fin maxTimers}

theorem deactivateTimer (h : WellFormed s) (n : Nat) : WellFormed (s.deactivateTimer n).2 := by
  unfold PcSystem.deactivateTimer
  split
  · exact h
  · rename_i i hi
    obtain ⟨-, hne, hu⟩ := validateTimerIndex_ok hi
    exact h.setTimer
      { (h.slots i) with
        inUse_lt := (h.slots i).inUse_lt
        unused := fun hf => by simp [hu] at hf
        period_pos := (h.slots i).period_pos
        horizon_le := fun hf => by simp at hf
        null_slot := fun h0 => absurd h0 hne }

/-- A freed slot carries nothing. -/
theorem slotOk_freed (numTimers horizon : Nat) (hi : i ≠ slot0) :
    SlotOk numTimers horizon i ⟨.empty, u64Max, u64Max, .nullTimer, zeroId⟩ where
  inUse_lt := by simp [TimerFlags.empty]
  unused := fun _ => ⟨rfl, rfl, rfl⟩
  period_pos := by simp [TimerFlags.empty]
  horizon_le := by simp [TimerFlags.empty]
  deadline_fits := le_rfl
  period_fits := le_rfl
  id_terminated := zeroId_terminated
  null_slot := fun h0 => absurd h0 hi

theorem freeSlot (h : WellFormed s) (hi : i ≠ slot0)
    (hu : (s.timers i).flags.inUse) : WellFormed (s.freeSlot i) := by
  have hw := h.setTimer (slotOk_freed s.numTimers _ hi)
  unfold PcSystem.freeSlot
  split_ifs with hlast
  · -- the last slot is freed: the live range shrinks by one, and no other slot is in it
    have hipos : 0 < i.val := Nat.pos_of_ne_zero fun h0 => hi (Fin.ext h0)
    have hlt := (h.slots i).inUse_lt hu
    exact
      { hw with
        numTimers_pos := by dsimp only; omega
        numTimers_le := (Nat.sub_le _ _).trans h.numTimers_le
        slots := fun j =>
          { (hw.slots j) with
            inUse_lt := fun hj => by
              have hjn := (hw.slots j).inUse_lt hj
              have hji : j ≠ i := fun he => by
                subst he
                simp [PcSystem.setTimer, TimerFlags.empty] at hj
              have : j.val ≠ i.val := fun he => hji (Fin.ext he)
              simp only [PcSystem.setTimer] at hjn ⊢
              omega } }
  · exact hw

theorem unregisterTimer (h : WellFormed s) (n : Nat) : WellFormed (s.unregisterTimer n).2 := by
  unfold PcSystem.unregisterTimer
  split
  · exact h
  · rename_i i hi
    obtain ⟨-, hne, hu⟩ := validateTimerIndex_ok hi
    split_ifs
    · exact h
    · exact h.freeSlot hne hu

theorem timerId_terminated (id : List UInt8) : (timerId id)[31] = 0 := by
  have hlen : maxTimerIdLen - 1 = 31 := rfl
  simp only [timerId, hlen, Vector.getElem_ofFn]
  rw [if_neg (by omega)]

theorem fillSlot (h : WellFormed s) {owner : TimerOwner} {p d : Nat} {continuous : Bool}
    {id : List UInt8} (hi : i ≠ slot0) (hp : 1 ≤ p) (hpfit : p ≤ u64Max)
    (hdfit : d ≤ u64Max) : WellFormed (s.fillSlot i owner p d continuous id) := by
  have hm := h.numTimers_le
  have hil := i.isLt
  -- more live slots, then the new timer in its slot
  have hmore : WellFormed { s with
      numTimers := if s.numTimers ≤ i.val then i.val + 1 else s.numTimers } :=
    { h with
      numTimers_pos := by dsimp only; split_ifs <;> omega
      numTimers_le := by dsimp only; split_ifs <;> omega
      slots := fun j => (h.slots j).mono (by dsimp only; split_ifs <;> omega) le_rfl }
  exact hmore.setTimer (t := ⟨⟨true, false, continuous⟩, p, d, owner, timerId id⟩)
    { inUse_lt := fun _ => by dsimp only; split_ifs <;> omega
      unused := fun hf => by simp at hf
      period_pos := fun _ => hp
      horizon_le := fun hf => by simp at hf
      deadline_fits := hdfit
      period_fits := hpfit
      id_terminated := timerId_terminated id
      null_slot := fun h0 => absurd h0 hi }

theorem registerTimer (h : WellFormed s) (owner : TimerOwner) (p : Nat)
    (continuous active : Bool) (id : List UInt8) :
    WellFormed (s.registerTimer owner p continuous active id).2 := by
  unfold PcSystem.registerTimer
  dsimp only
  split
  · exact h
  · rename_i i hfind
    split
    · exact h
    · rename_i d hd
      obtain ⟨hd, hle⟩ := deadlineFromNow_ok hd
      have hne : i ≠ slot0 := by
        have := List.find?_some hfind
        simp only [ne_eq, Bool.and_eq_true, decide_eq_true_eq] at this
        exact this.1
      have hnew : WellFormed (s.fillSlot i owner (max p minAllowableTimerPeriod) d continuous id) :=
        h.fillSlot hne (le_max_right _ _) (by omega) hle
      split
      · have hact := (arming_activateTimerAtTicks _ i.val continuous hle).wellFormed hnew
        split
        all_goals rename_i heq
        all_goals exact (congrArg (WellFormed ·.2) heq).mp hact
      · exact hnew

theorem registerTimerUsec (h : WellFormed s) (owner : TimerOwner) (useconds : Nat)
    (continuous active : Bool) (id : List UInt8) :
    WellFormed (s.registerTimerUsec owner useconds continuous active id).2 := by
  unfold PcSystem.registerTimerUsec
  split
  · exact h
  · exact h.registerTimer _ _ _ _ _

end WellFormed

/-! ## Ticks -/

namespace WellFormed

variable {s : PcSystem}

/-- The event at the end of the countdown leaves a well-formed wheel. -/
theorem afterEvent (h : WellFormed s) {p : Nat}
    (hp : s.NextCountdown (s.ticksTotal + s.currCountdownPeriod) p)
    (hr : ∀ i, (s.timers i).Rearms (s.ticksTotal + s.currCountdownPeriod)) :
    WellFormed (s.afterEvent (s.ticksTotal + s.currCountdownPeriod) p) where
  countdown_pos := hp.pos
  countdown_le := le_rfl
  period_le := hp.le
  numTimers_pos := h.numTimers_pos
  numTimers_le := h.numTimers_le
  slots := fun i => by
    have hs := h.slots i
    have hfits := hp.fits i
    have hri := hr i
    simp only [PcSystem.afterEvent]
    constructor
    · simpa using hs.inUse_lt
    · intro hu
      rw [Timer.fireAt_inUse] at hu
      have hoff : (s.timers i).flags.active = false := by rw [(hs.unused hu).1]; rfl
      rw [Timer.fireAt_of_inactive hoff]
      exact hs.unused hu
    · simpa using hs.period_pos
    · exact hfits
    · unfold Timer.fireAt
      split_ifs with hd hc
      · exact hri hd hc
      · exact hs.deadline_fits
      · exact hs.deadline_fits
    · simpa using hs.period_fits
    · simpa using hs.id_terminated
    · intro h0
      -- the null timer is continuous, so only its deadline moves
      have hn := hs.null_slot h0
      have hc : (s.timers i).flags.continuous := by rw [hn]; rfl
      unfold Timer.fireAt
      split_ifs with hd
      · rw [hn]
      · exact hn
  queue := List.foldlRecOn _ _ h.queue fun _ hq _ _ => hq.recordFiredOwner _
  triggered := by
    simp only [PcSystem.afterEvent, h.triggered, ite_self]
  ips_pos := h.ips_pos
  a20 := h.a20

end WellFormed

end RustyBox
