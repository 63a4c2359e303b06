-- SUMMARY: Bulk clocking of a PIT counter refines single ticks.
import RustyBox.Pit.Counter

/-!
# Ticks of a PIT counter

`tick` says what one input clock does to a counter, whether the clock comes alone or in bulk.
`clockMultiple` is an iteration of it, so how a stretch of time is cut does not matter, unless
mode 3 counts so far at once that twice the clocks overflow 32 bits.
-/

namespace RustyBox

open Lib Function

namespace PitCounter

variable {c : PitCounter} {n : Nat}

/-! ## The count -/

/-- One step of the counting element. Unlike `decrement`, it looks at the value only. -/
def lower (c : PitCounter) : PitCounter :=
  if c.countBinary = 0#16 then c.wrapped
  else { c with countBinary := c.countBinary - 1#16 }.setCountToBinary

theorem lower_of_pos (h : 0 < c.countBinary.toNat) :
    c.lower = { c with countBinary := c.countBinary - 1#16 }.setCountToBinary := by
  refine if_neg fun hzero => ?_
  rw [hzero] at h
  exact Nat.lt_irrefl 0 h

theorem iterate_lower_of_le (hn : 0 < n) (hle : n ≤ c.countBinary.toNat) :
    lower^[n] c = { c with countBinary := c.countBinary - BitVec.ofNat 16 n }.setCountToBinary := by
  induction n with
  | zero => exact absurd hn (Nat.lt_irrefl 0)
  | succ n ih =>
    cases n with
    | zero => exact lower_of_pos hle
    | succ n =>
      rw [iterate_succ_apply', ih (Nat.succ_pos n) (Nat.le_of_succ_le hle)]
      have hpos : 0 < (c.countBinary - BitVec.ofNat 16 (n + 1)).toNat := by bv_omega
      rw [lower_of_pos hpos]
      have hsub : c.countBinary - BitVec.ofNat 16 (n + 1) - 1#16 =
          c.countBinary - BitVec.ofNat 16 (n + 1 + 1) := by bv_omega
      rw [← hsub]
      rfl

theorem decrement_setCountToBinary (h : c.countBinary = 0#16) :
    c.setCountToBinary.decrement = c.wrapped := by
  have hcount : c.setCountToBinary.count = 0#16 := by
    show (if c.bcdMode then bcdDigits c.countBinary else c.countBinary) = 0#16
    rw [h]
    split
    · decide
    · rfl
  rw [decrement, if_pos hcount]
  rfl

theorem spends_decrementPass : Spends lower (fun _ _ => True) decrementPass := by
  intro c n _ hn
  rw [decrementPass]
  split
  next hle =>
    refine ⟨n, hn, Nat.le_refl n, ?_, trivial⟩
    rw [iterate_lower_of_le hn hle, Nat.sub_self]
  next hgt =>
    refine ⟨c.countBinary.toNat + 1, Nat.succ_pos _, Nat.not_le.mp hgt, ?_, trivial⟩
    rw [iterate_succ_apply', decrement_setCountToBinary rfl]
    have hwrap : lower (lower^[c.countBinary.toNat] c) = c.wrapped := by
      rcases Nat.eq_zero_or_pos c.countBinary.toNat with hzero | hpos
      · rw [hzero]
        exact if_pos (BitVec.eq_of_toNat_eq hzero)
      · rw [iterate_lower_of_le hpos (Nat.le_refl _)]
        refine if_pos ?_
        show c.countBinary - BitVec.ofNat 16 c.countBinary.toNat = 0#16
        rw [BitVec.ofNat_toNat, BitVec.setWidth_eq, BitVec.sub_self]
    rw [hwrap]
    rfl

theorem decrementMultiple_eq (c : PitCounter) (n : Nat) : c.decrementMultiple n = lower^[n] c :=
  spend_eq_iterate spends_decrementPass trivial

/-! ## One tick -/

/-- What a clock takes off the count: mode 3 counts by two. -/
def lowerClock (c : PitCounter) : PitCounter := if c.mode.toNat = 3 then c.lower.lower else c.lower

/-- The counter counts although no change of state is ahead. -/
def Counting (c : PitCounter) : Prop :=
  c.countWritten = true ∧
    match c.mode.toNat with
    | 0 => c.gate = true ∧ c.writeState ≠ .msByteMultiple
    | 2 | 3 => c.firstPass = false ∧ c.gate = true
    | 4 => c.gate = true
    | _ => True

instance (c : PitCounter) : Decidable c.Counting := by
  unfold Counting
  split <;> infer_instance

/-- One input clock. -/
def tick (c : PitCounter) : PitCounter :=
  if 5 < c.mode.toNat then c
  else if c.nextChangeTime = 0#32 then if c.Counting then c.lowerClock else c
  else if c.nextChangeTime = 1#32 then c.clock
  else { c.lowerClock with nextChangeTime := c.nextChangeTime - 1#32 }

/-! ### Schedules -/

/-- The next change of state is less than 2 ^ 16 clocks ahead. -/
def Near (c : PitCounter) : Prop := c.nextChangeTime.toNat < 2 ^ 16

/-- `f` schedules the next change of state by itself: it does not look at an earlier schedule, it
keeps the mode, and the change is near. -/
structure Schedules (f : PitCounter → PitCounter) : Prop where
  fresh : ∀ c time, f { c with nextChangeTime := time } = f c
  spec : ∀ c, (f c).mode = c.mode ∧ (f c).Near

theorem decrement_nextChangeTime (c : PitCounter) (time : BitVec 32) :
    { c with nextChangeTime := time }.decrement = { c.decrement with nextChangeTime := time } := by
  rw [decrement, decrement]
  split <;> rfl

theorem mode_decrement (c : PitCounter) : c.decrement.mode = c.mode := by
  rw [decrement]
  split <;> rfl

theorem near_setWidth (x : BitVec 16) : (x.setWidth 32).toNat < 2 ^ 16 := by
  rw [BitVec.toNat_setWidth]
  exact Nat.lt_of_le_of_lt (Nat.mod_le _ _) x.isLt

theorem near_zero : (0#32).toNat < 2 ^ 16 := by decide

theorem near_one : (1#32).toNat < 2 ^ 16 := by decide

theorem near_ite {p : Prop} [Decidable p] {x y : BitVec 32} (hx : x.toNat < 2 ^ 16)
    (hy : y.toNat < 2 ^ 16) : (if p then x else y).toNat < 2 ^ 16 := by
  split
  · exact hx
  · exact hy

theorem near_clocksToZero (c : PitCounter) : c.clocksToZero.toNat < 2 ^ 16 :=
  near_ite near_one (near_setWidth _)

theorem near_and_mask (x : BitVec 32) : (x &&& 0xFFFF#32).toNat < 2 ^ 16 := by
  exact Nat.lt_of_le_of_lt Nat.and_le_right (by decide)

theorem schedules_loadTerminalCount : Schedules loadTerminalCount :=
  ⟨fun _ _ => rfl, fun _ => ⟨rfl, near_ite (near_clocksToZero _) near_zero⟩⟩

theorem schedules_countTerminalCount : Schedules countTerminalCount := by
  refine ⟨fun c time => ?_, fun c => ?_⟩
  · rw [countTerminalCount, countTerminalCount, decrement_nextChangeTime]
  · rw [countTerminalCount]
    dsimp only
    split
    · split <;> exact ⟨mode_decrement c, near_setWidth _⟩
    · exact ⟨mode_decrement c, near_zero⟩

theorem schedules_loadOneShot : Schedules loadOneShot :=
  ⟨fun _ _ => rfl, fun _ => ⟨rfl, near_clocksToZero _⟩⟩

theorem schedules_countOneShot : Schedules countOneShot := by
  refine ⟨fun c time => ?_, fun c => ?_⟩
  · rw [countOneShot, countOneShot, decrement_nextChangeTime]
    rfl
  · rw [countOneShot]
    dsimp only
    split
    · split <;> exact ⟨mode_decrement c, near_clocksToZero _⟩
    · exact ⟨mode_decrement c, near_zero⟩

theorem schedules_loadRate : Schedules loadRate :=
  ⟨fun _ _ => rfl, fun _ => ⟨rfl, near_setWidth _⟩⟩

theorem schedules_countRate : Schedules countRate := by
  refine ⟨fun c time => ?_, fun c => ?_⟩
  · rw [countRate, countRate, decrement_nextChangeTime]
  · rw [countRate]
    split
    · exact ⟨mode_decrement c, near_one⟩
    · exact ⟨mode_decrement c, near_setWidth _⟩

theorem schedules_loadSquareWave : Schedules loadSquareWave := by
  refine ⟨fun _ _ => rfl, fun c => ?_⟩
  have hnear (half : BitVec 32) :
      (if half = 0#32 then 1#32 else half &&& 0xFFFF#32).toNat < 2 ^ 16 :=
    near_ite near_one (near_and_mask half)
  rw [loadSquareWave]
  split
  · exact ⟨rfl, hnear _⟩
  · split <;> exact ⟨rfl, hnear _⟩

theorem schedules_countSquareWave : Schedules countSquareWave := by
  refine ⟨fun c time => ?_, fun c => ?_⟩
  · have hlowered : { c with nextChangeTime := time }.decrement.decrement =
        { c.decrement.decrement with nextChangeTime := time } :=
      (congrArg decrement (decrement_nextChangeTime c time)).trans
        (decrement_nextChangeTime c.decrement time)
    rw [countSquareWave, countSquareWave, hlowered]
  · have hmode := (mode_decrement c.decrement).trans (mode_decrement c)
    rw [countSquareWave]
    split
    · exact ⟨hmode, near_one⟩
    · exact ⟨hmode, near_and_mask _⟩

theorem schedules_loadSoftwareStrobe : Schedules loadSoftwareStrobe :=
  ⟨fun _ _ => rfl, fun _ => ⟨rfl, near_ite (near_clocksToZero _) near_zero⟩⟩

theorem schedules_loadHardwareStrobe : Schedules loadHardwareStrobe :=
  ⟨fun _ _ => rfl, fun _ => ⟨rfl, near_clocksToZero _⟩⟩

theorem schedules_countStrobe : Schedules countStrobe := by
  refine ⟨fun c time => ?_, fun c => ?_⟩
  · rw [countStrobe, countStrobe, decrement_nextChangeTime]
  · rw [countStrobe]
    split
    · split
      · exact ⟨mode_decrement c, near_one⟩
      · exact ⟨mode_decrement c, near_setWidth _⟩
    · exact ⟨mode_decrement c, near_zero⟩

theorem schedules_clockBy {loading counting : PitCounter → Bool}
    {load count : PitCounter → PitCounter}
    (hloading : ∀ c time, loading { c with nextChangeTime := time } = loading c)
    (hcounting : ∀ c time, counting { c with nextChangeTime := time } = counting c)
    (hload : Schedules load) (hcount : Schedules count) :
    Schedules fun c => c.clockBy (loading c) (counting c) load count := by
  refine ⟨fun c time => ?_, fun c => ?_⟩
  · rw [clockBy, clockBy, hloading, hcounting, hload.fresh, hcount.fresh]
  · rw [clockBy]
    split
    · split
      · exact hload.spec c
      · split
        · exact hcount.spec c
        · exact ⟨rfl, near_zero⟩
    · exact ⟨rfl, near_zero⟩

theorem schedules_clockTerminalCount : Schedules clockTerminalCount :=
  schedules_clockBy (fun _ _ => rfl) (fun _ _ => rfl) schedules_loadTerminalCount
    schedules_countTerminalCount

theorem schedules_clockOneShot : Schedules clockOneShot :=
  schedules_clockBy (fun _ _ => rfl) (fun _ _ => rfl)
    schedules_loadOneShot schedules_countOneShot

theorem schedules_clockRateGenerator : Schedules clockRateGenerator :=
  schedules_clockBy (fun _ _ => rfl) (fun _ _ => rfl) schedules_loadRate schedules_countRate

theorem schedules_clockSquareWave : Schedules clockSquareWave :=
  schedules_clockBy (fun _ _ => rfl) (fun _ _ => rfl) schedules_loadSquareWave
    schedules_countSquareWave

/-- A strobe may end before the clock is taken. -/
theorem Schedules.comp {f g : PitCounter → PitCounter} (hf : Schedules f)
    (hfresh : ∀ c time, g { c with nextChangeTime := time } = { g c with nextChangeTime := time })
    (hmode : ∀ c, (g c).mode = c.mode) : Schedules fun c => f (g c) where
  fresh c time := by rw [hfresh, hf.fresh]
  spec c := ⟨(hf.spec (g c)).1.trans (hmode c), (hf.spec (g c)).2⟩

theorem endStrobe_nextChangeTime (c : PitCounter) (time : BitVec 32) :
    { c with nextChangeTime := time }.endStrobe = { c.endStrobe with nextChangeTime := time } := by
  rw [endStrobe, endStrobe]
  split <;> rfl

theorem mode_endStrobe (c : PitCounter) : c.endStrobe.mode = c.mode := by
  rw [endStrobe]
  split <;> rfl

theorem schedules_clockSoftwareStrobe : Schedules clockSoftwareStrobe :=
  (schedules_clockBy (fun _ _ => rfl) (fun _ _ => rfl) schedules_loadSoftwareStrobe
    schedules_countStrobe).comp endStrobe_nextChangeTime mode_endStrobe

theorem schedules_clockHardwareStrobe : Schedules clockHardwareStrobe := by
  have h : Schedules fun c => c.clockBy c.triggerGate true loadHardwareStrobe countStrobe :=
    schedules_clockBy (fun _ _ => rfl) (fun _ _ => rfl) schedules_loadHardwareStrobe
      schedules_countStrobe
  exact h.comp endStrobe_nextChangeTime mode_endStrobe

theorem schedules_clockMode (mode : Nat) : Schedules (clockMode mode) := by
  unfold clockMode
  split
  · exact schedules_clockTerminalCount
  · exact schedules_clockOneShot
  iterate 2 exact schedules_clockRateGenerator
  iterate 2 exact schedules_clockSquareWave
  · exact schedules_clockSoftwareStrobe
  · exact schedules_clockHardwareStrobe
  · exact ⟨fun _ _ => rfl, fun _ => ⟨rfl, near_zero⟩⟩

theorem schedules_clock : Schedules clock where
  fresh c time := (schedules_clockMode c.mode.toNat).fresh c time
  spec c := (schedules_clockMode c.mode.toNat).spec c

/-! ### Bulk -/

/-- The two counters differ in the count only. -/
def SameBut (c d : PitCounter) : Prop :=
  ∃ count countBinary, d = { c with count, countBinary }

theorem SameBut.trans {b c d : PitCounter} (hbc : SameBut b c) (hcd : SameBut c d) :
    SameBut b d := by
  obtain ⟨_, _, rfl⟩ := hbc
  obtain ⟨count, countBinary, rfl⟩ := hcd
  exact ⟨count, countBinary, rfl⟩

theorem sameBut_lower (c : PitCounter) : SameBut c c.lower := by
  rw [lower]
  split <;> exact ⟨_, _, rfl⟩

theorem sameBut_lowerClock (c : PitCounter) : SameBut c c.lowerClock := by
  rw [lowerClock]
  split
  · exact (sameBut_lower c).trans (sameBut_lower c.lower)
  · exact sameBut_lower c

theorem sameBut_iterate (c : PitCounter) (n : Nat) : SameBut c (lowerClock^[n] c) := by
  induction n with
  | zero => exact ⟨_, _, rfl⟩
  | succ n ih =>
    rw [iterate_succ_apply']
    exact ih.trans (sameBut_lowerClock _)

theorem SameBut.mode {d : PitCounter} (h : SameBut c d) : d.mode = c.mode := by
  obtain ⟨_, _, rfl⟩ := h
  rfl

theorem SameBut.nextChangeTime {d : PitCounter} (h : SameBut c d) :
    d.nextChangeTime = c.nextChangeTime := by
  obtain ⟨_, _, rfl⟩ := h
  rfl

theorem SameBut.counting {d : PitCounter} (h : SameBut c d) : d.Counting ↔ c.Counting := by
  obtain ⟨_, _, rfl⟩ := h
  exact Iff.rfl

theorem lower_nextChangeTime (c : PitCounter) (time : BitVec 32) :
    { c with nextChangeTime := time }.lower = { c.lower with nextChangeTime := time } := by
  rw [lower, lower]
  split <;> rfl

theorem lowerClock_nextChangeTime (c : PitCounter) (time : BitVec 32) :
    { c with nextChangeTime := time }.lowerClock = { c.lowerClock with nextChangeTime := time } := by
  rw [lowerClock, lowerClock]
  split
  · exact (congrArg lower (lower_nextChangeTime c time)).trans (lower_nextChangeTime c.lower time)
  · exact lower_nextChangeTime c time

theorem iterate_lowerClock_of_ne (hmode : c.mode.toNat ≠ 3) (n : Nat) :
    lowerClock^[n] c = c.decrementMultiple n := by
  rw [decrementMultiple_eq]
  induction n with
  | zero => rfl
  | succ n ih =>
    rw [iterate_succ_apply', iterate_succ_apply', ← ih, lowerClock,
      (sameBut_iterate c n).mode, if_neg hmode]

theorem iterate_lowerClock_of_eq (hmode : c.mode.toNat = 3) (n : Nat) :
    lowerClock^[n] c = c.decrementMultiple (2 * n) := by
  rw [decrementMultiple_eq]
  induction n with
  | zero => rfl
  | succ n ih =>
    rw [Nat.mul_succ, iterate_succ_apply', iterate_succ_apply',
      iterate_succ_apply', ← ih, lowerClock, (sameBut_iterate c n).mode, if_pos hmode]

/-- With no change ahead, the counter counts or stands still. -/
theorem iterate_tick_idle (hmode : ¬ 5 < c.mode.toNat) (hidle : c.nextChangeTime = 0#32) (n : Nat) :
    tick^[n] c = if c.Counting then lowerClock^[n] c else c := by
  split
  next hcounting =>
    induction n with
    | zero => rfl
    | succ n ih =>
      have hsame := sameBut_iterate c n
      rw [iterate_succ_apply', iterate_succ_apply', ih, tick, hsame.mode,
        if_neg hmode, hsame.nextChangeTime, if_pos hidle, if_pos (hsame.counting.mpr hcounting)]
  next hstill =>
    refine iterate_fixed ?_ n
    rw [tick, if_neg hmode, if_pos hidle, if_neg hstill]

section

variable {time : BitVec 32} (hmode : ¬ 5 < c.mode.toNat)
include hmode

/-- Up to the clock before the change, the counter counts. -/
theorem iterate_tick_before (hn : n < time.toNat) :
    tick^[n] { c with nextChangeTime := time } =
      { lowerClock^[n] c with nextChangeTime := time - BitVec.ofNat 32 n } := by
  induction n with
  | zero =>
    show { c with nextChangeTime := time } = { c with nextChangeTime := time - 0#32 }
    rw [BitVec.sub_zero]
  | succ n ih =>
    have htime : time - BitVec.ofNat 32 n - 1#32 = time - BitVec.ofNat 32 (n + 1) := by bv_omega
    have hne0 : time - BitVec.ofNat 32 n ≠ 0#32 := by bv_omega
    have hne1 : time - BitVec.ofNat 32 n ≠ 1#32 := by bv_omega
    have hmode' : ¬ 5 < (lowerClock^[n] c).mode.toNat := by rwa [(sameBut_iterate c n).mode]
    rw [iterate_succ_apply', iterate_succ_apply', ih (Nat.lt_of_succ_lt hn), tick,
      if_neg hmode', if_neg hne0, if_neg hne1, lowerClock_nextChangeTime, htime]

/-- The change itself. -/
theorem iterate_tick_change (htime : 0 < time.toNat) :
    tick^[time.toNat] { c with nextChangeTime := time } =
      (lowerClock^[time.toNat - 1] c).clock := by
  have hlast : time - BitVec.ofNat 32 (time.toNat - 1) = 1#32 := by bv_omega
  obtain ⟨k, hk⟩ : ∃ k, time.toNat = k + 1 := ⟨_, (Nat.succ_pred_eq_of_pos htime).symm⟩
  have hbefore := iterate_tick_before hmode (show k < time.toNat by omega)
  rw [hk, Nat.add_sub_cancel] at hlast ⊢
  have hmode' : ¬ 5 < (lowerClock^[k] c).mode.toNat := by rwa [(sameBut_iterate c k).mode]
  rw [iterate_succ_apply', hbefore, hlast, tick, if_neg hmode',
    if_neg (show 1#32 ≠ 0#32 by decide), if_pos rfl, schedules_clock.fresh]

end

/-- A tick keeps the mode, and brings the change of state nearer or schedules a near one. -/
theorem tick_spec (c : PitCounter) : c.tick.mode = c.mode ∧
    (c.tick.Near ∨ c.tick.nextChangeTime.toNat ≤ c.nextChangeTime.toNat) := by
  have hlowered := sameBut_lowerClock c
  rw [tick]
  split
  · exact ⟨rfl, .inr (Nat.le_refl _)⟩
  · split
    · split
      · exact ⟨hlowered.mode, .inr (Nat.le_of_eq (congrArg _ hlowered.nextChangeTime))⟩
      · exact ⟨rfl, .inr (Nat.le_refl _)⟩
    · split
      · exact ⟨(schedules_clock.spec c).1, .inl (schedules_clock.spec c).2⟩
      · refine ⟨hlowered.mode, .inr ?_⟩
        show (c.nextChangeTime - 1#32).toNat ≤ c.nextChangeTime.toNat
        bv_omega

theorem mode_tick (c : PitCounter) : c.tick.mode = c.mode := (tick_spec c).1

theorem mode_iterate_tick (c : PitCounter) (n : Nat) : (tick^[n] c).mode = c.mode := by
  induction n with
  | zero => rfl
  | succ n ih => rw [iterate_succ_apply', mode_tick, ih]

theorem nextChangeTime_iterate_tick_lt {bound : Nat} (hbound : 2 ^ 16 ≤ bound)
    (h : c.nextChangeTime.toNat < bound) (n : Nat) :
    (tick^[n] c).nextChangeTime.toNat < bound := by
  induction n with
  | zero => exact h
  | succ n ih =>
    rw [iterate_succ_apply']
    exact (tick_spec _).2.elim (Nat.lt_of_lt_of_le · hbound) (Nat.lt_of_le_of_lt · ih)

theorem near_iterate_tick (h : c.Near) (n : Nat) : (tick^[n] c).Near :=
  nextChangeTime_iterate_tick_lt (Nat.le_refl _) h n

/-- The clocks that a stretch of `n` counts for: mode 3 doubles them in 32 bits. -/
def counted (c : PitCounter) (n : Nat) : Nat := if c.mode.toNat = 3 then n % 2 ^ 31 else n

theorem iterate_lowerClock_counted (hmode : c.mode.toNat = 3) (n : Nat) :
    lowerClock^[c.counted n] c = c.decrementMultiple (2 * n % 2 ^ 32) := by
  rw [iterate_lowerClock_of_eq hmode, counted, if_pos hmode, ← Nat.mul_mod_mul_left]
  rfl

theorem mode_cases (hmode : ¬ 5 < c.mode.toNat) :
    c.mode.toNat = 0 ∨ c.mode.toNat = 1 ∨ c.mode.toNat = 2 ∨ c.mode.toNat = 3 ∨
      c.mode.toNat = 4 ∨ c.mode.toNat = 5 := by omega

theorem clockIdle_eq (hmode : ¬ 5 < c.mode.toNat) (n : Nat) :
    c.clockIdle n = if c.Counting then lowerClock^[c.counted n] c else c := by
  rw [clockIdle]
  by_cases hwritten : c.countWritten = true
  · by_cases hsquare : c.mode.toNat = 3
    · rw [iterate_lowerClock_counted hsquare]
      simp [Counting, hwritten, hsquare]
    · rw [counted, if_neg hsquare, ← iterate_lowerClock_of_ne hsquare]
      obtain h | h | h | h | h | h := mode_cases hmode
      all_goals simp [Counting, hwritten, h]
      exact absurd h hsquare
  · rw [if_neg hwritten, if_neg fun hcounting => hwritten hcounting.1]

theorem clockPass_of_modes (hmode : ¬ 5 < c.mode.toNat) (htime : c.nextChangeTime ≠ 0#32) :
    c.clockPass n =
      if n < c.nextChangeTime.toNat then
        ({ lowerClock^[c.counted n] c with
            nextChangeTime := c.nextChangeTime - BitVec.ofNat 32 n }, 0)
      else
        ((lowerClock^[c.counted (c.nextChangeTime.toNat - 1)] c).clock,
          n - c.nextChangeTime.toNat) := by
  rw [clockPass, if_neg htime]
  by_cases hsquare : c.mode.toNat = 3
  · rw [iterate_lowerClock_counted hsquare, iterate_lowerClock_counted hsquare]
    simp only [hsquare, Nat.mul_comm 2]
  · simp only [counted, if_neg hsquare]
    rw [← iterate_lowerClock_of_ne hsquare, ← iterate_lowerClock_of_ne hsquare]
    obtain h | h | h | h | h | h := mode_cases hmode
    · simp only [h]
    · simp only [h]
    · simp only [h]
    · exact absurd h hsquare
    · simp only [h]
    · simp only [h]

/-- Outside the six modes the clocks are ignored. -/
theorem clockPass_of_no_mode (hmode : 5 < c.mode.toNat) (n : Nat) : c.clockPass n = (c, 0) := by
  have hidle : c.clockIdle n = c := by
    rw [clockIdle]
    split
    · split <;> first | rfl | omega
    · rfl
  rw [clockPass, hidle]
  split
  · rfl
  · split <;> first | rfl | omega

/-! ### What 32 bits cut off

A stretch is counted up to the change of state it leads to, or in one go once no change is
ahead. In either, mode 3 may count too far. -/

theorem clockPass_snd_lt (c : PitCounter) {n : Nat} (hn : 0 < n) : (c.clockPass n).2 < n := by
  by_cases hmode : 5 < c.mode.toNat
  · rwa [clockPass_of_no_mode hmode]
  · by_cases hidle : c.nextChangeTime = 0#32
    · rwa [clockPass, if_pos hidle]
    · have htime : c.nextChangeTime.toNat ≠ 0 := fun hzero => hidle (BitVec.eq_of_toNat_eq hzero)
      rw [clockPass_of_modes hmode hidle]
      split
      · exact hn
      · show n - c.nextChangeTime.toNat < n
        omega

theorem clockMultiple_pass (c : PitCounter) {n : Nat} (hn : 0 < n) :
    c.clockMultiple n = (c.clockPass n).1.clockMultiple (c.clockPass n).2 :=
  spend_step (fun c _ => clockPass_snd_lt c) hn

theorem clockMultiple_of_no_mode (hmode : 5 < c.mode.toNat) (n : Nat) : c.clockMultiple n = c := by
  rcases Nat.eq_zero_or_pos n with rfl | hn
  · rfl
  · rw [clockMultiple_pass c hn, clockPass_of_no_mode hmode]
    rfl

theorem clockMultiple_idle (hmode : ¬ 5 < c.mode.toNat) (hidle : c.nextChangeTime = 0#32)
    (n : Nat) : c.clockMultiple n = tick^[c.counted n] c := by
  rw [iterate_tick_idle hmode hidle]
  rcases Nat.eq_zero_or_pos n with rfl | hn
  · have hzero : c.counted 0 = 0 := by simp [counted]
    rw [hzero]
    exact (ite_self c).symm
  · rw [clockMultiple_pass c hn, clockPass, if_pos hidle, clockIdle_eq hmode]
    rfl

/-- In mode 3, 2 ^ 31 of the `n` clocks follow each other with no change of state between them. -/
def LongStretch (c : PitCounter) (n : Nat) : Prop :=
  c.mode.toNat = 3 ∧ ∃ k, k + 2 ^ 31 ≤ n ∧
    ((tick^[k] c).nextChangeTime = 0#32 ∨ 2 ^ 31 < (tick^[k] c).nextChangeTime.toNat)

namespace LongStretch

variable {m : Nat}

theorem le (h : c.LongStretch n) : 2 ^ 31 ≤ n := by
  obtain ⟨-, k, hk, -⟩ := h
  omega

theorem mono (h : c.LongStretch n) (hle : n ≤ m) : c.LongStretch m := by
  obtain ⟨hmode, k, hk, hfar⟩ := h
  exact ⟨hmode, k, by omega, hfar⟩

theorem add (h : (tick^[m] c).LongStretch n) : c.LongStretch (n + m) := by
  obtain ⟨hmode, k, hk, hfar⟩ := h
  rw [mode_iterate_tick] at hmode
  rw [← iterate_add_apply] at hfar
  exact ⟨hmode, k + m, by omega, hfar⟩

/-- A stretch that long does not begin on a shorter way to a change of state. -/
theorem after (h : c.LongStretch (n + m)) (hm : m ≤ c.nextChangeTime.toNat)
    (hnear : c.nextChangeTime.toNat ≤ 2 ^ 31) : (tick^[m] c).LongStretch n := by
  obtain ⟨hmode, k, hk, hfar⟩ := h
  have hle : m ≤ k := by
    by_contra hlt
    rw [iterate_tick_before (c := c) (by omega) (show k < c.nextChangeTime.toNat by omega)] at hfar
    bv_omega
  refine ⟨by rwa [mode_iterate_tick], k - m, by omega, ?_⟩
  rwa [← iterate_add_apply, Nat.sub_add_cancel hle]

end LongStretch

theorem counted_of_quiet (hquiet : c.nextChangeTime = 0#32 ∨ n < c.nextChangeTime.toNat)
    (hn : n < 2 ^ 32) :
    (¬ c.LongStretch n → c.counted n = n) ∧ (c.LongStretch n → c.counted n = n - 2 ^ 31) := by
  rw [counted]
  refine ⟨fun hshort => ?_, fun hlong => ?_⟩
  · split
    next hsquare =>
      refine Nat.mod_eq_of_lt (Nat.lt_of_not_le fun hle => hshort ⟨hsquare, 0, by omega, ?_⟩)
      exact hquiet.imp_right (Nat.lt_of_le_of_lt hle)
    · rfl
  · have hle := hlong.le
    rw [if_pos hlong.1]
    omega

/-- The counter with 2 ^ 31 clocks less to its change of state, if it is that far. -/
def skipLost (c : PitCounter) : PitCounter :=
  if 2 ^ 31 < c.nextChangeTime.toNat then
    { c with nextChangeTime := c.nextChangeTime - 0x80000000#32 }
  else c

theorem skipLost_of_le (h : c.nextChangeTime.toNat ≤ 2 ^ 31) : c.skipLost = c :=
  if_neg (Nat.not_lt.mpr h)

theorem iterate_tick_skipLost (hmode : ¬ 5 < c.mode.toNat)
    (hn : n + 2 ^ 31 < c.nextChangeTime.toNat) :
    tick^[n] c.skipLost = { lowerClock^[n] c with
      nextChangeTime := c.nextChangeTime - BitVec.ofNat 32 (n + 2 ^ 31) } := by
  have htime : c.nextChangeTime - 0x80000000#32 - BitVec.ofNat 32 n =
      c.nextChangeTime - BitVec.ofNat 32 (n + 2 ^ 31) := by bv_omega
  rw [skipLost, if_pos (by omega), ← htime]
  exact iterate_tick_before hmode (by bv_omega)

/-- Bulk clocking is single ticks, but for 2 ^ 31 clocks that mode 3 loses in a long stretch. -/
theorem clockMultiple_spec (hn : n < 2 ^ 32) :
    (¬ c.LongStretch n → c.clockMultiple n = tick^[n] c) ∧
      (c.LongStretch n → c.clockMultiple n = tick^[n - 2 ^ 31] c.skipLost) := by
  induction n using Nat.strongRecOn generalizing c with
  | ind n ih =>
  rcases Nat.eq_zero_or_pos n with rfl | hpos
  · exact ⟨fun _ => rfl, fun h => absurd h.le (by decide)⟩
  by_cases hmode : 5 < c.mode.toNat
  · have hstill : c.tick = c := if_pos hmode
    rw [clockMultiple_of_no_mode hmode, iterate_fixed hstill]
    exact ⟨fun _ => rfl, fun h => absurd h.1 (by omega)⟩
  by_cases hidle : c.nextChangeTime = 0#32
  · obtain ⟨hall, hlost⟩ := counted_of_quiet (.inl hidle) hn
    rw [clockMultiple_idle hmode hidle, skipLost_of_le (by rw [hidle]; decide)]
    exact ⟨fun hshort => by rw [hall hshort], fun hlong => by rw [hlost hlong]⟩
  rw [clockMultiple_pass c hpos, clockPass_of_modes hmode hidle]
  by_cases hbefore : n < c.nextChangeTime.toNat
  · obtain ⟨hall, hlost⟩ := counted_of_quiet (.inr hbefore) hn
    rw [if_pos hbefore]
    refine ⟨fun hshort => ?_, fun hlong => ?_⟩
    · rw [hall hshort]
      exact (iterate_tick_before hmode hbefore).symm
    · have hsum := Nat.sub_add_cancel hlong.le
      rw [hlost hlong, iterate_tick_skipLost hmode (by omega), hsum]
      rfl
  have htime : 0 < c.nextChangeTime.toNat :=
    Nat.pos_of_ne_zero fun hzero => hidle (BitVec.eq_of_toNat_eq hzero)
  have hway : c.nextChangeTime.toNat - 1 < c.nextChangeTime.toNat := by omega
  obtain ⟨hall, hlost⟩ := counted_of_quiet (.inr hway) (by omega)
  rw [if_neg hbefore]
  dsimp only
  by_cases hfar : c.LongStretch (c.nextChangeTime.toNat - 1)
  · -- the clocks are lost on the way to the change, and what is left is short
    have hle := hfar.le
    refine ⟨fun hshort => absurd (hfar.mono (by omega)) hshort, fun _ => ?_⟩
    rw [hlost hfar, (ih _ (by omega) (by omega)).1 fun h => absurd h.le (by omega)]
    have hskip : (c.nextChangeTime - 0x80000000#32).toNat = c.nextChangeTime.toNat - 2 ^ 31 := by
      bv_omega
    rw [skipLost, if_pos (by omega), show n - 2 ^ 31 =
        n - c.nextChangeTime.toNat + (c.nextChangeTime - 0x80000000#32).toNat by omega,
      iterate_add_apply, iterate_tick_change hmode (by omega), hskip, Nat.sub_right_comm]
  · -- nothing is lost up to the change
    have hchange : tick^[c.nextChangeTime.toNat] c =
        (lowerClock^[c.nextChangeTime.toNat - 1] c).clock := iterate_tick_change hmode htime
    have hsum : n - c.nextChangeTime.toNat + c.nextChangeTime.toNat = n := by omega
    rw [hall hfar, ← hchange]
    refine ⟨fun hshort => ?_, fun hlong => ?_⟩
    · rw [(ih _ (by omega) (by omega)).1 fun h => hshort (hsum ▸ h.add), ← iterate_add_apply, hsum]
    · have hnear : c.nextChangeTime.toNat ≤ 2 ^ 31 := Nat.le_of_not_lt fun hlt =>
        hfar ⟨hlong.1, 0, by omega, .inr hlt⟩
      have hlate := LongStretch.after (hsum.symm ▸ hlong) (Nat.le_refl _) hnear
      have hnext := (schedules_clock.spec (lowerClock^[c.nextChangeTime.toNat - 1] c)).2
      rw [← hchange, Near] at hnext
      have hle := hlate.le
      rw [(ih _ (by omega) (by omega)).2 hlate, skipLost_of_le hnear, skipLost_of_le (by omega),
        ← iterate_add_apply, ← Nat.sub_add_comm hle, hsum]

/-- Mode 3 loses 2 ^ 31 of the clocks when they are given at once, but not in two parts, and they
would show. -/
structure LosesCarry (c : PitCounter) (a b : Nat) : Prop where
  whole : c.LongStretch (a + b)
  first : ¬ c.LongStretch a
  second : ¬ (tick^[a] c).LongStretch b
  shows : tick^[a + b - 2 ^ 31] c.skipLost ≠ tick^[a + b] c

/-- A long stretch that begins after the first part is ahead, or on the way, in both. -/
theorem skipLost_iterate_tick {a b : Nat} (hsum : a + b < 2 ^ 32) (hfirst : ¬ c.LongStretch a)
    (hsecond : (tick^[a] c).LongStretch b) : (tick^[a] c).skipLost = tick^[a] c.skipLost := by
  by_cases hfar : 2 ^ 31 < c.nextChangeTime.toNat
  · have hsquare : c.mode.toNat = 3 := mode_iterate_tick c a ▸ hsecond.1
    have ha : a < 2 ^ 31 := Nat.lt_of_not_le fun hle =>
      hfirst ⟨hsquare, 0, by omega, .inr hfar⟩
    have hle := hsecond.le
    have hbefore := iterate_tick_before (c := c) (by omega)
      (show a < c.nextChangeTime.toNat by omega)
    have htime : (c.nextChangeTime - BitVec.ofNat 32 a).toNat = c.nextChangeTime.toNat - a := by
      bv_omega
    rw [hbefore] at hsecond ⊢
    have hstill : 2 ^ 31 < c.nextChangeTime.toNat - a := by
      by_contra hnear
      obtain ⟨r, rfl⟩ := Nat.exists_eq_add_of_le' (show c.nextChangeTime.toNat - a ≤ b by omega)
      rw [← htime] at hnear hsecond
      exact absurd (hsecond.after (Nat.le_refl _) (Nat.le_of_not_lt hnear)).le (by omega)
    rw [iterate_tick_skipLost (by omega) (by omega), skipLost, if_pos (by rwa [htime])]
    have hlost : c.nextChangeTime - BitVec.ofNat 32 a - 0x80000000#32 =
        c.nextChangeTime - BitVec.ofNat 32 (a + 2 ^ 31) := by bv_omega
    rw [hlost]
  · have hnear : (tick^[a] c).nextChangeTime.toNat < 2 ^ 31 + 1 :=
      nextChangeTime_iterate_tick_lt (by decide) (by omega) a
    rw [skipLost_of_le (Nat.le_of_not_lt hfar), skipLost_of_le (Nat.le_of_lt_succ hnear)]

theorem clockMultiple_add_iff {a b : Nat} (hsum : a + b < 2 ^ 32) :
    c.clockMultiple (a + b) = (c.clockMultiple a).clockMultiple b ↔ ¬ c.LosesCarry a b := by
  by_cases hfirst : c.LongStretch a
  · have hle := hfirst.le
    refine iff_of_true ?_ fun h => h.first hfirst
    rw [(clockMultiple_spec hsum).2 (hfirst.mono (Nat.le_add_right a b)),
      (clockMultiple_spec (by omega)).2 hfirst,
      (clockMultiple_spec (by omega)).1 fun h => absurd h.le (by omega), ← iterate_add_apply,
      Nat.add_comm a, Nat.add_sub_assoc hle]
  rw [(clockMultiple_spec (n := a) (by omega)).1 hfirst]
  by_cases hsecond : (tick^[a] c).LongStretch b
  · refine iff_of_true ?_ fun h => h.second hsecond
    rw [(clockMultiple_spec hsum).2 (Nat.add_comm b a ▸ hsecond.add),
      (clockMultiple_spec (by omega)).2 hsecond, skipLost_iterate_tick hsum hfirst hsecond,
      ← iterate_add_apply, Nat.add_comm a, ← Nat.sub_add_comm hsecond.le]
  · rw [(clockMultiple_spec (n := b) (by omega)).1 hsecond, ← iterate_add_apply, Nat.add_comm b]
    by_cases hwhole : c.LongStretch (a + b)
    · rw [(clockMultiple_spec hsum).2 hwhole]
      exact ⟨fun heq h => h.shows heq,
        fun h => by_contra fun hne => h ⟨hwhole, hfirst, hsecond, hne⟩⟩
    · exact iff_of_true ((clockMultiple_spec hsum).1 hwhole) fun h => hwhole h.whole

/-! ## Ports and gate

They may schedule the next clock as a change of state, or the end of the count. -/

theorem nextChangeTime_latchCount (c : PitCounter) :
    c.latchCount.nextChangeTime = c.nextChangeTime := by
  rw [latchCount]
  split
  · rfl
  · split <;> rfl

theorem nextChangeTime_latchStatus (c : PitCounter) :
    c.latchStatus.nextChangeTime = c.nextChangeTime := by
  rw [latchStatus]
  split <;> rfl

theorem nextChangeTime_read (c : PitCounter) : c.read.2.nextChangeTime = c.nextChangeTime := by
  rw [read]
  split
  · split <;> rfl
  · split
    · rfl
    · split
      · rfl
      · split <;> rfl

theorem writeLatch_spec (c : PitCounter) (data : BitVec 8) :
    ∃ inlatch writeState countWritten,
      c.writeLatch data = { c with inlatch, writeState, countWritten } := by
  rw [writeLatch]
  split <;> exact ⟨_, _, _, rfl⟩

theorem nextChangeTime_writeLatch (c : PitCounter) (data : BitVec 8) :
    (c.writeLatch data).nextChangeTime = c.nextChangeTime := by
  obtain ⟨_, _, _, hlatched⟩ := writeLatch_spec c data
  rw [hlatched]

theorem near_written (h : c.Near) (data : BitVec 8) : (c.written data).Near := by
  have hlatched : (c.writeLatch data).Near := by
    rw [Near, nextChangeTime_writeLatch]
    exact h
  rw [written]
  split <;> exact hlatched

theorem near_of_ite {p : Prop} [Decidable p] {x y : PitCounter} (hx : x.Near) (hy : y.Near) :
    (if p then x else y).Near := by
  split
  · exact hx
  · exact hy

theorem near_write (h : c.Near) (data : BitVec 8) : (c.write data).Near := by
  have hwritten := near_written h data
  rw [write]
  split
  all_goals first | exact near_one | exact hwritten | exact near_of_ite near_one hwritten

theorem near_setGate (h : c.Near) (data : Bool) : (c.setGate data).Near := by
  rw [setGate]
  split
  · exact h
  · dsimp only
    split
    · exact near_ite (near_ite near_one (near_ite (near_clocksToZero _) near_zero))
        (near_ite near_one near_zero)
    iterate 2 exact near_of_ite near_one h
    iterate 4 exact near_of_ite near_zero (near_ite near_one near_zero)
    · exact near_ite near_one (near_ite (near_ite (near_clocksToZero _) near_zero) near_zero)
    · exact h

end PitCounter

end RustyBox
