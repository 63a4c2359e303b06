-- SUMMARY: What `tickn` does: time advances by n and every deadline in between fires exactly once.
import RustyBox.PcSystem.WellFormed
import Mathlib.Tactic.Ring

/-!
# Ticks

`Timer.DueAt` is the schedule of a timer: the ticks at which it is to fire if
nothing touches it. `Ticked` relates a wheel to the wheel `n` ticks later and the
fires in between, and `ticknLoop_ticked` establishes it round by round: one
countdown event takes the schedule from one tick to a later one (`afterEvent`
lemmas), and rounds compose (`Ticked.trans`).
-/

namespace RustyBox

open PcSystem Timer

namespace Timer

/-- The timer is scheduled to fire at tick `x`. -/
def DueAt (t : Timer) (x : Nat) : Prop :=
  t.flags.active ∧ if t.flags.continuous then ∃ k, x = t.timeToFire + k * t.period
    else x = t.timeToFire

theorem DueAt.le {t : Timer} {x : Nat} (h : t.DueAt x) : t.timeToFire ≤ x := by
  obtain ⟨-, h⟩ := h
  split_ifs at h
  · obtain ⟨k, rfl⟩ := h
    exact Nat.le_add_right _ _
  · exact h.ge

/-- At the earliest tick a pending timer can fire, the schedule is `due`. -/
theorem Pending.dueAt_iff {t : Timer} {tick : Nat} (hp : t.Pending tick) :
    t.DueAt tick ↔ t.due tick = true := by
  constructor
  · intro h
    have heq : t.timeToFire = tick := le_antisymm h.le (hp.not_overdue h.1)
    simp [due, h.1, heq]
  · intro h
    simp only [due, Bool.and_eq_true, beq_iff_eq] at h
    refine ⟨h.1, ?_⟩
    split_ifs
    · exact ⟨0, by simp [h.2]⟩
    · exact h.2.symm

/-- An event at `tick` changes nothing in the schedule after `tick`. -/
theorem dueAt_fireAt {t : Timer} {tick x : Nat} (hx : tick < x) :
    (t.fireAt tick).DueAt x ↔ t.DueAt x := by
  by_cases hd : t.due tick
  · have h : t.flags.active = true ∧ t.timeToFire = tick := by simpa [due] using hd
    by_cases hc : t.flags.continuous
    · simp only [fireAt, hd, hc, DueAt, ↓reduceIte, h.1, h.2, true_and]
      constructor
      · rintro ⟨k, rfl⟩
        exact ⟨k + 1, by ring⟩
      · rintro ⟨k, rfl⟩
        obtain _ | k := k
        · omega
        · exact ⟨k, by ring⟩
    · simp only [fireAt, hd, hc, DueAt, ↓reduceIte, h.2, Bool.false_eq_true, false_and,
        false_iff, not_and]
      omega
  · simp [fireAt, hd]

end Timer

/-- The same slots are in use, by the same owners and under the same names. -/
structure SameRoster (s s' : PcSystem) : Prop where
  inUse : ∀ i, (s'.timers i).flags.inUse = (s.timers i).flags.inUse
  owner : ∀ i, (s'.timers i).owner = (s.timers i).owner
  id : ∀ i, (s'.timers i).id = (s.timers i).id

theorem SameRoster.trans {s s' s'' : PcSystem} (h : SameRoster s s')
    (h' : SameRoster s' s'') : SameRoster s s'' where
  inUse := fun i => (h'.inUse i).trans (h.inUse i)
  owner := fun i => (h'.owner i).trans (h.owner i)
  id := fun i => (h'.id i).trans (h.id i)

/-- `s'` is the wheel `n` ticks after `s`, with `fires` in between. -/
structure Ticked (s : PcSystem) (n : Nat) (s' : PcSystem) (fires : List Fire) : Prop
    extends SameRoster s s' where
  wellFormed : WellFormed s'
  time : s'.timeTicks = s.timeTicks + n
  nodup : fires.Nodup
  fires_iff : ∀ x i, (x, i) ∈ fires ↔
    (s.timers i).DueAt x ∧ s.timeTicks < x ∧ x ≤ s.timeTicks + n
  schedule : ∀ i x, s'.timeTicks < x → ((s'.timers i).DueAt x ↔ (s.timers i).DueAt x)
  queue : s'.fired = s.recordFires (fires.map Prod.snd)
  period : ∀ i, (s'.timers i).period = (s.timers i).period

/-- Two stretches of time compose. -/
theorem Ticked.trans {s s₁ s₂ : PcSystem} {n m : Nat} {f₁ f₂ : List Fire}
    (h₁ : Ticked s n s₁ f₁) (h₂ : Ticked s₁ m s₂ f₂) : Ticked s (n + m) s₂ (f₁ ++ f₂) where
  wellFormed := h₂.wellFormed
  time := by rw [h₂.time, h₁.time, Nat.add_assoc]
  nodup := by
    refine List.nodup_append.mpr ⟨h₁.nodup, h₂.nodup, ?_⟩
    rintro ⟨x, i⟩ hx _ hy rfl
    have hle := ((h₁.fires_iff x i).mp hx).2.2
    have hlt := ((h₂.fires_iff x i).mp hy).2.1
    have := h₁.time
    omega
  fires_iff := fun x i => by
    have ht := h₁.time
    rw [List.mem_append, h₁.fires_iff, h₂.fires_iff]
    by_cases hx : s₁.timeTicks < x
    · rw [h₁.schedule i x hx]
      constructor
      · rintro (h | h)
        · exact ⟨h.1, h.2.1, by omega⟩
        · exact ⟨h.1, by omega, by omega⟩
      · rintro ⟨h, -, hle⟩
        exact .inr ⟨h, hx, by omega⟩
    · constructor
      · rintro (h | h)
        · exact ⟨h.1, h.2.1, by omega⟩
        · exact absurd h.2.1 hx
      · rintro ⟨h, hlt, -⟩
        exact .inl ⟨h, hlt, by omega⟩
  schedule := fun i x hx => by
    have := h₂.time
    rw [h₂.schedule i x hx, h₁.schedule i x (by omega)]
  queue := by
    rw [h₂.queue, List.map_append, recordFires, recordFires, List.foldl_append, h₁.queue]
    simp only [recordFires, h₁.owner]
  period := fun i => by rw [h₂.period, h₁.period]
  toSameRoster := h₁.toSameRoster.trans h₂.toSameRoster

namespace WellFormed

variable {s : PcSystem}

/-- The countdown event of a well-formed wheel, either way it can end. -/
theorem countdownEvent_eq (h : WellFormed s) :
    ∃ p, s.NextCountdown (s.timeTicks + s.currCountdown) p ∧
      { s with currCountdown := 0 }.countdownEvent =
        if ∀ i, (s.timers i).Rearms (s.timeTicks + s.currCountdown) then
          some (s.afterEvent (s.timeTicks + s.currCountdown) p,
            (s.dueSlots (s.timeTicks + s.currCountdown)).map
              fun i => (s.timeTicks + s.currCountdown, i))
        else none := by
  rw [← h.horizon_eq]
  obtain ⟨p, hp, he⟩ := PcSystem.countdownEvent_eq (s := { s with currCountdown := 0 }) rfl
    h.horizon_fits (fun i => (h.slots i).pending) fun i hi => h.active_lt hi
  exact ⟨p, ⟨hp.pos, hp.le, hp.fits⟩, he⟩

/-- Ticks that do not reach the end of the countdown fire nothing. -/
theorem ticked_within (h : WellFormed s) {n : Nat} (hn : n < s.currCountdown) :
    Ticked s n { s with currCountdown := s.currCountdown - n } [] where
  wellFormed := h.withCountdown (Nat.sub_pos_of_lt hn) ((Nat.sub_le _ _).trans h.countdown_le) le_rfl
  time := by
    have := h.countdown_le
    simp only [timeTicks]
    omega
  nodup := List.nodup_nil
  fires_iff := fun x i => by
    simp only [List.not_mem_nil, false_iff, not_and]
    intro hd hlt
    have hle := (h.slots i).horizon_le hd.1
    have := hd.le
    have := h.horizon_eq
    omega
  schedule := fun _ _ _ => Iff.rfl
  queue := rfl
  period := fun _ => rfl
  toSameRoster := ⟨fun _ => rfl, fun _ => rfl, fun _ => rfl⟩

/-- The ticks up to the end of the countdown fire exactly what is due there. -/
theorem ticked_event (h : WellFormed s) {p : Nat}
    (hp : s.NextCountdown (s.timeTicks + s.currCountdown) p)
    (hr : ∀ i, (s.timers i).Rearms (s.timeTicks + s.currCountdown)) :
    Ticked s s.currCountdown (s.afterEvent (s.timeTicks + s.currCountdown) p)
      ((s.dueSlots (s.timeTicks + s.currCountdown)).map
        fun i => (s.timeTicks + s.currCountdown, i)) := by
  have hpend : ∀ i, (s.timers i).Pending (s.timeTicks + s.currCountdown) := fun i =>
    h.horizon_eq ▸ (h.slots i).pending
  have htime : (s.afterEvent (s.timeTicks + s.currCountdown) p).timeTicks =
      s.timeTicks + s.currCountdown := by simp [PcSystem.afterEvent, timeTicks]
  have hpos := h.countdown_pos
  refine ⟨⟨fun i => fireAt_inUse _ _, fun i => fireAt_owner _ _,
    fun i => fireAt_id _ _⟩, ?_, htime, ?_, ?_, ?_, ?_, fun i => fireAt_period _ _⟩
  · rw [← h.horizon_eq] at hp hr ⊢
    exact h.afterEvent hp hr
  · exact ((List.nodup_finRange _).filter _).map fun i j hij => (Prod.mk.inj hij).2
  · intro x i
    simp only [List.mem_map, Prod.mk.injEq, mem_dueSlots]
    constructor
    · rintro ⟨j, hj, rfl, rfl⟩
      exact ⟨(hpend j).dueAt_iff.mpr hj, by omega, le_rfl⟩
    · rintro ⟨hd, -, hle⟩
      have hge := ((hpend i).not_overdue hd.1).trans hd.le
      obtain rfl : x = s.timeTicks + s.currCountdown := by omega
      exact ⟨i, (hpend i).dueAt_iff.mp hd, rfl, rfl⟩
  · intro i x hx
    rw [htime] at hx
    exact dueAt_fireAt hx
  · simp [PcSystem.afterEvent, Function.comp_def]

/-- A round of the loop, in terms of `Ticked`. -/
theorem countdownEvent_ticked (h : WellFormed s) {s₁ : PcSystem} {fires : List Fire}
    (he : { s with currCountdown := 0 }.countdownEvent = some (s₁, fires)) :
    Ticked s s.currCountdown s₁ fires := by
  obtain ⟨p, hp, heq⟩ := h.countdownEvent_eq
  rw [heq] at he
  split_ifs at he with hr
  cases he
  exact h.ticked_event hp hr

end WellFormed

/-! ## The loop -/

/-- Every result of the loop is the wheel the given number of ticks later. -/
theorem ticknLoop_ticked {fuel n : Nat} {s s' : PcSystem} {fires : List Fire}
    (h : WellFormed s) (ht : ticknLoop fuel s n = some (s', fires)) : Ticked s n s' fires := by
  induction fuel generalizing s n fires with
  | zero => simp [ticknLoop] at ht
  | succ fuel ih =>
    simp only [ticknLoop] at ht
    split_ifs at ht with hn
    · simp only [Option.bind_eq_bind, Option.bind_eq_some_iff, Prod.exists, Option.some.injEq,
        Prod.mk.injEq] at ht
      obtain ⟨s₁, f₁, he, s₂, f₂, hl, rfl, rfl⟩ := ht
      have h₁ := h.countdownEvent_ticked he
      have h₂ := h₁.trans (ih h₁.wellFormed hl)
      rwa [Nat.add_sub_cancel' hn] at h₂
    · cases ht
      exact h.ticked_within (Nat.lt_of_not_le hn)

/-- `tick1` is `tickn(1)`. -/
theorem WellFormed.tick1_eq {s : PcSystem} (h : WellFormed s) : s.tick1 = s.tickn 1 := by
  have hpos := h.countdown_pos
  unfold tick1 tickn
  rw [if_neg hpos.ne']
  by_cases hone : s.currCountdown = 1
  · -- the countdown ends here: one round, and none after it
    simp only [ticknLoop, hone, le_refl, ↓reduceIte, Nat.sub_self]
    cases he : { s with currCountdown := 0 }.countdownEvent with
    | none => rfl
    | some r =>
      have hw := (h.countdownEvent_ticked he).wellFormed
      simp [hw.countdown_pos.ne']
  · have hn : ¬ s.currCountdown ≤ 1 := by omega
    have hz : ¬ s.currCountdown - 1 = 0 := by omega
    simp [ticknLoop, hn, hz]

/-- Rounds beyond the ticks that are left are not used. -/
theorem ticknLoop_fuel {fuel fuel' n : Nat} {s : PcSystem} (h : WellFormed s) (hn : n < fuel)
    (hn' : n < fuel') : ticknLoop fuel s n = ticknLoop fuel' s n := by
  induction fuel generalizing s n fuel' with
  | zero => omega
  | succ fuel ih =>
    obtain ⟨fuel', rfl⟩ := Nat.exists_eq_add_one.mpr (Nat.zero_lt_of_lt hn')
    have hpos := h.countdown_pos
    simp only [ticknLoop]
    refine ite_congr rfl (fun _ => ?_) fun _ => rfl
    refine Option.bind_congr fun r hr => ?_
    have hw := (h.countdownEvent_ticked hr).wellFormed
    have heq : ticknLoop fuel r.1 (n - s.currCountdown) = ticknLoop fuel' r.1 (n - s.currCountdown) :=
      ih hw (by omega) (by omega)
    rw [heq]

namespace WellFormed

variable {s : PcSystem}

/-- One round of `tickn`. -/
theorem tickn_eq (h : WellFormed s) (n : Nat) :
    (s.tickn n).map Prod.fst =
      if s.currCountdown ≤ n then
        { s with currCountdown := 0 }.countdownEvent.bind fun r =>
          (r.1.tickn (n - s.currCountdown)).map Prod.fst
      else some { s with currCountdown := s.currCountdown - n } := by
  have hpos := h.countdown_pos
  unfold PcSystem.tickn
  rw [ticknLoop]
  split_ifs
  · simp only [Option.bind_eq_bind, Option.map_bind]
    refine Option.bind_congr fun r hr => ?_
    have hw := (h.countdownEvent_ticked hr).wellFormed
    have heq : ticknLoop n r.1 (n - s.currCountdown) = r.1.tickn (n - s.currCountdown) :=
      ticknLoop_fuel hw (by omega) (Nat.lt_succ_self _)
    dsimp only [Function.comp_apply]
    rw [heq, Option.map_bind, Option.map_eq_bind]
    rfl
  · rfl

/-- A stretch of ticks may be cut anywhere, also at a deadline. -/
theorem tickn_add (h : WellFormed s) (a b : Nat) :
    (((s.tickn a).map Prod.fst).bind fun s' => (s'.tickn b).map Prod.fst) =
      (s.tickn (a + b)).map Prod.fst := by
  induction a using Nat.strong_induction_on generalizing s with
  | _ a ih =>
    have hpos := h.countdown_pos
    rw [h.tickn_eq (a + b), h.tickn_eq a]
    by_cases ha : s.currCountdown ≤ a
    · -- a countdown ends before the cut
      rw [if_pos ha, if_pos (by omega), Option.bind_assoc]
      refine Option.bind_congr fun r hr => ?_
      rw [ih _ (by omega) (h.countdownEvent_ticked hr).wellFormed]
      congr 2
      omega
    · -- the cut shortens the current countdown
      have hcut := (h.ticked_within (Nat.lt_of_not_le ha)).wellFormed
      rw [if_neg ha, Option.bind_some, hcut.tickn_eq]
      refine if_congr (by dsimp only; omega) ?_ ?_
      · rw [show b - (s.currCountdown - a) = a + b - s.currCountdown by omega]
      · rw [show s.currCountdown - a - b = s.currCountdown - (a + b) by omega]

end WellFormed

/-- Room to rearm: every continuous timer's next deadline after the last tick fits. -/
def RoomFor (s : PcSystem) (n : Nat) : Prop :=
  ∀ i, (s.timers i).flags.active → (s.timers i).flags.continuous →
    s.timeTicks + n + (s.timers i).period ≤ u64Max

theorem fireAt_flags {tick : Nat} {t : Timer} (ha : (t.fireAt tick).flags.active) :
    (t.fireAt tick).flags = t.flags := by
  by_cases hd : t.due tick
  · by_cases hc : t.flags.continuous
    · simp [fireAt, hd, hc]
    · simp [fireAt, hd, hc] at ha
  · simp [fireAt, hd]

/-- The loop ends, within `n + 1` rounds, unless rearming a timer overflows. -/
theorem ticknLoop_returns {fuel n : Nat} {s : PcSystem} (h : WellFormed s) (hroom : RoomFor s n)
    (hfuel : n < fuel) : ∃ r, ticknLoop fuel s n = some r := by
  induction fuel generalizing s n with
  | zero => omega
  | succ fuel ih =>
    simp only [ticknLoop]
    split_ifs with hn
    · have hpos := h.countdown_pos
      obtain ⟨p, hp, he⟩ := h.countdownEvent_eq
      have hr : ∀ i, (s.timers i).Rearms (s.timeTicks + s.currCountdown) := fun i hd hc => by
        have := hroom i (by simp only [due, Bool.and_eq_true] at hd; exact hd.1) hc
        omega
      rw [if_pos hr] at he
      have h₁ := h.ticked_event hp hr
      have hroom' : RoomFor (s.afterEvent (s.timeTicks + s.currCountdown) p)
          (n - s.currCountdown) := by
        intro i ha hc
        have hflags := fireAt_flags ha
        have := hroom i (hflags ▸ ha) (hflags ▸ hc)
        rw [h₁.time, h₁.period i]
        omega
      obtain ⟨⟨s₂, rest⟩, hloop⟩ := ih h₁.wellFormed hroom' (by omega)
      simp only [he, hloop, Option.bind_eq_bind, Option.bind_some]
      exact ⟨_, rfl⟩
    · exact ⟨_, rfl⟩

theorem tickn_ticked {n : Nat} {s s' : PcSystem} {fires : List Fire} (h : WellFormed s)
    (ht : s.tickn n = some (s', fires)) : Ticked s n s' fires :=
  ticknLoop_ticked h ht

theorem tickn_returns {n : Nat} {s : PcSystem} (h : WellFormed s) (hroom : RoomFor s n) :
    ∃ s' fires, s.tickn n = some (s', fires) := by
  obtain ⟨⟨s', fires⟩, hr⟩ := ticknLoop_returns h hroom (Nat.lt_succ_self n)
  exact ⟨s', fires, hr⟩

end RustyBox
