-- SUMMARY: Scanning a ring of positions from a start towards a stop, and what the scan finds.
import Mathlib.Data.ZMod.Defs
import Mathlib.Algebra.Order.Group.Nat

/-!
# Scans around a ring

Positions `0 .. n - 1` in a ring, visited from a start in increasing order until the scan
comes back to a stop. The start itself is always visited, so a scan whose stop is its start
goes once around. `ringDist s i` is how far `i` lies behind `s`; a scan finds the position
that passes the test at the least distance, `scanRing_eq_some`, among the `ringSpan`
positions it visits.
-/

namespace Lib

variable {n : Nat} [NeZero n] {s i j stop : Fin n} {p : Fin n → Bool}

/-- How many steps lead from `s` to `i`. -/
def ringDist (s i : Fin n) : Nat := (i - s).val

/-- How many positions a scan from `s` visits before it comes to `stop`. -/
def ringSpan (s stop : Fin n) : Nat := ringDist (s + 1) stop + 1

/-- The first position from `i` on that passes the test, given up before `stop`. -/
def scanRing (p : Fin n → Bool) (stop : Fin n) : Nat → Fin n → Option (Fin n)
  | 0, _ => none
  | fuel + 1, i =>
    if p i then some i
    else if i + 1 = stop then none
    else scanRing p stop fuel (i + 1)

/-! ## Distances -/

@[simp] theorem ringDist_self : ringDist s s = 0 := by
  simp [ringDist]

theorem ringDist_eq_zero : ringDist s i = 0 ↔ i = s := by
  rw [ringDist, Fin.val_eq_zero_iff, sub_eq_zero]

omit [NeZero n] in
theorem ringDist_lt : ringDist s i < n := (i - s).isLt

/-- The distance shrinks by one when the start moves on. -/
theorem ringDist_succ (h : i ≠ s) : ringDist s i = ringDist (s + 1) i + 1 := by
  have hpos : i - s ≠ 0 := sub_ne_zero.mpr h
  have hprev : i - (s + 1) = (i - s) - 1 := by rw [sub_add_eq_sub_sub]
  rw [ringDist, ringDist, hprev, Fin.val_sub_one_of_ne_zero hpos]
  have := Fin.val_ne_zero_iff.mpr hpos
  omega

/-- A scan that stops at its start goes once around. -/
theorem ringSpan_self : ringSpan s s = n := by
  obtain ⟨m, rfl⟩ := Nat.exists_eq_succ_of_ne_zero (NeZero.ne n)
  have hdist : ringDist (s + 1) s = (-1 : Fin (m + 1)).val := by
    rw [ringDist, sub_add_cancel_left]
  rw [ringSpan, hdist, Fin.coe_neg_one]

theorem ringSpan_of_ne (h : stop ≠ s) : ringSpan s stop = ringDist s stop := (ringDist_succ h).symm

theorem ringSpan_le : ringSpan s stop ≤ n := ringDist_lt

/-! ## What a scan finds -/

theorem ringSpan_succ (h : s + 1 ≠ stop) : ringSpan s stop = ringSpan (s + 1) stop + 1 := by
  rw [ringSpan, ringSpan_of_ne h.symm]

theorem ringSpan_last (h : s + 1 = stop) : ringSpan s stop = 1 := by
  rw [ringSpan, h, ringDist_self]

/-- The scan finds the passing position at the least distance, if it visits it. -/
theorem scanRing_eq_some {fuel : Nat} (hfuel : ringSpan s stop ≤ fuel) :
    scanRing p stop fuel s = some i ↔
      p i ∧ ringDist s i < ringSpan s stop ∧ ∀ j, p j → ringDist s i ≤ ringDist s j := by
  induction fuel generalizing s with
  | zero => exact absurd hfuel (by rw [ringSpan]; omega)
  | succ fuel ih =>
    rw [scanRing]
    by_cases hp : p s
    · rw [if_pos hp, Option.some.injEq]
      constructor
      · rintro rfl
        exact ⟨hp, by rw [ringDist_self, ringSpan]; omega, fun j _ => by rw [ringDist_self]; omega⟩
      · rintro ⟨-, -, hleast⟩
        have := hleast s hp
        rw [ringDist_self, Nat.le_zero, ringDist_eq_zero] at this
        exact this.symm
    · have hne : ∀ j, p j → j ≠ s := fun j hj h => hp (h ▸ hj)
      rw [if_neg hp]
      by_cases hstop : s + 1 = stop
      · rw [if_pos hstop, ringSpan_last hstop]
        simp only [reduceCtorEq, false_iff, not_and]
        intro hi hlt
        exact absurd (ringDist_eq_zero.mp (Nat.lt_one_iff.mp hlt)) (hne i hi)
      · have hspan := ringSpan_succ hstop
        rw [if_neg hstop, ih (by omega)]
        refine and_congr_right fun hi => and_congr ?_ (forall₂_congr fun j hj => ?_)
        · rw [ringDist_succ (hne i hi)]
          omega
        · rw [ringDist_succ (hne i hi), ringDist_succ (hne j hj)]
          omega

theorem scanRing_eq_none {fuel : Nat} (hfuel : ringSpan s stop ≤ fuel) :
    scanRing p stop fuel s = none ↔ ∀ i, ringDist s i < ringSpan s stop → p i = false := by
  induction fuel generalizing s with
  | zero => exact absurd hfuel (by rw [ringSpan]; omega)
  | succ fuel ih =>
    rw [scanRing]
    by_cases hp : p s
    · rw [if_pos hp]
      simp only [reduceCtorEq, false_iff, not_forall]
      exact ⟨s, by rw [ringDist_self, ringSpan]; omega, by rw [hp]; decide⟩
    · rw [if_neg hp]
      by_cases hstop : s + 1 = stop
      · rw [if_pos hstop, ringSpan_last hstop]
        refine ⟨fun _ i hi => ?_, fun _ => rfl⟩
        rw [ringDist_eq_zero.mp (Nat.lt_one_iff.mp hi)]
        exact Bool.eq_false_iff.mpr hp
      · have hspan := ringSpan_succ hstop
        rw [if_neg hstop, ih (by omega)]
        refine forall_congr' fun i => ?_
        by_cases hi : i = s
        · simp [hi, Bool.eq_false_iff.mpr hp]
        · rw [ringDist_succ hi, hspan]
          simp

end Lib
