-- SUMMARY: Single-bit shifts and rotates with a carry, and what iterating them computes.
import RustyBox.Lib.Carry
import Mathlib.Logic.Function.Iterate

/-!
# Iterated single-bit shifts

A word and a carry bit, moved by one position at a time. `iterate_shlOne` and its
siblings give the word and the carry after `n` moves in closed form. A rotate through
the carry is a plain rotate of the word with the carry on top, `withCarry`.
-/

namespace Lib

open BitVec Nat

variable {w : Nat}

/-- One position to the left; the carry is the bit that falls out. -/
def shlOne (p : BitVec w × Bool) : BitVec w × Bool := (p.1 <<< 1, p.1.msb)

/-- One position to the right, filling with zero. -/
def shrOne (p : BitVec w × Bool) : BitVec w × Bool := (p.1 >>> 1, p.1.getLsbD 0)

/-- One position to the right, filling with the sign. -/
def sarOne (p : BitVec w × Bool) : BitVec w × Bool := (p.1.sshiftRight 1, p.1.getLsbD 0)

def rolOne (p : BitVec w × Bool) : BitVec w × Bool :=
  (p.1.rotateLeft 1, (p.1.rotateLeft 1).getLsbD 0)

def rorOne (p : BitVec w × Bool) : BitVec w × Bool :=
  (p.1.rotateRight 1, (p.1.rotateRight 1).msb)

/-- Rotate left by one with the carry between the two ends. -/
def rclOne (p : BitVec w × Bool) : BitVec w × Bool := ((p.1 <<< 1) ||| carryIn w p.2, p.1.msb)

/-- Rotate right by one with the carry between the two ends. -/
def rcrOne (p : BitVec w × Bool) : BitVec w × Bool :=
  ((p.1 >>> 1) ||| (carryIn w p.2 <<< (w - 1)), p.1.getLsbD 0)

/-! ## Shifts -/

section

variable (n : Nat) (p : BitVec w × Bool)

theorem iterate_shlOne : shlOne^[n + 1] p = (p.1 <<< (n + 1), p.1.getMsbD n) := by
  induction n generalizing p with
  | zero => rfl
  | succ n ih =>
    rw [Function.iterate_succ_apply, ih]
    simp only [shlOne, ← BitVec.shiftLeft_add, BitVec.getMsbD_shiftLeft, Nat.add_comm 1]

theorem iterate_shrOne : shrOne^[n + 1] p = (p.1 >>> (n + 1), p.1.getLsbD n) := by
  induction n generalizing p with
  | zero => rfl
  | succ n ih =>
    rw [Function.iterate_succ_apply, ih]
    simp only [shrOne, ← BitVec.shiftRight_add, BitVec.getLsbD_ushiftRight, Nat.add_comm 1]

theorem iterate_sarOne :
    sarOne^[n + 1] p = (p.1.sshiftRight (n + 1), (p.1.sshiftRight n).getLsbD 0) := by
  induction n generalizing p with
  | zero => simp [sarOne]
  | succ n ih =>
    rw [Function.iterate_succ_apply, ih]
    simp only [sarOne, ← sshiftRight_add, Nat.add_comm 1]

/-! ## Rotates -/

theorem rotateLeft_of_dvd {n : Nat} (x : BitVec w) (h : n % w = 0) : x.rotateLeft n = x := by
  rw [BitVec.rotateLeft_def, h, BitVec.shiftLeft_zero, Nat.sub_zero,
    BitVec.ushiftRight_eq_zero (Nat.le_refl _), BitVec.or_zero]

theorem rotateRight_of_dvd {n : Nat} (x : BitVec w) (h : n % w = 0) : x.rotateRight n = x := by
  rw [BitVec.rotateRight_def, h, BitVec.ushiftRight_zero, Nat.sub_zero,
    BitVec.shiftLeft_eq_zero (Nat.le_refl _), BitVec.or_zero]

theorem rotateLeft_rotateLeft (x : BitVec w) (a b : Nat) :
    (x.rotateLeft a).rotateLeft b = x.rotateLeft (a + b) := by
  apply eq_of_getMsbD_eq
  intro i hi
  have hw : (b + i) % w < w := mod_lt _ (by omega)
  simp only [getMsbD_rotateLeft, hw, decide_true, Bool.true_and, add_mod_mod, add_assoc]

theorem getLsbD_rotateRight_mod (x : BitVec w) (r i : Nat) :
    (x.rotateRight r).getLsbD i = (decide (i < w) && x.getLsbD ((r + i) % w)) := by
  rcases Nat.eq_zero_or_pos w with rfl | hw
  · simp
  have hr := mod_lt r hw
  have hsum : (r + i) % w = (r % w + i) % w := by rw [mod_add_mod]
  rw [getLsbD_rotateRight, hsum]
  by_cases hi : i < w
  · by_cases hlow : i < w - r % w
    · rw [mod_eq_of_lt (by omega : r % w + i < w)]
      simp [hi, hlow]
    · have hwrap : (r % w + i) % w = i - (w - r % w) := by
        rw [mod_eq_sub_mod (by omega), mod_eq_of_lt (by omega)]
        omega
      simp [hlow, hwrap]
  · simp [hi, show ¬ i < w - r % w by omega]

theorem rotateRight_rotateRight (x : BitVec w) (a b : Nat) :
    (x.rotateRight a).rotateRight b = x.rotateRight (a + b) := by
  apply eq_of_getLsbD_eq
  intro i hi
  have hw : (b + i) % w < w := mod_lt _ (by omega)
  simp only [getLsbD_rotateRight_mod, hw, decide_true, Bool.true_and, add_mod_mod, add_assoc]

theorem iterate_rolOne :
    rolOne^[n + 1] p = (p.1.rotateLeft (n + 1), (p.1.rotateLeft (n + 1)).getLsbD 0) := by
  induction n generalizing p with
  | zero => rfl
  | succ n ih =>
    rw [Function.iterate_succ_apply, ih]
    simp only [rolOne, rotateLeft_rotateLeft, Nat.add_comm 1]

theorem iterate_rorOne :
    rorOne^[n + 1] p = (p.1.rotateRight (n + 1), (p.1.rotateRight (n + 1)).msb) := by
  induction n generalizing p with
  | zero => rfl
  | succ n ih =>
    rw [Function.iterate_succ_apply, ih]
    simp only [rorOne, rotateRight_rotateRight, Nat.add_comm 1]

end

/-! ## Rotates through the carry -/

/-- The word with the carry above its top bit. -/
def withCarry (p : BitVec w × Bool) : BitVec (w + 1) := cons p.2 p.1

theorem getLsbD_withCarry (p : BitVec w × Bool) (i : Nat) :
    (withCarry p).getLsbD i = if i = w then p.2 else p.1.getLsbD i :=
  getLsbD_cons ..

theorem withCarry_injective : Function.Injective (withCarry (w := w)) := by
  intro p q h
  have hbit (i : Nat) := congrArg (fun v : BitVec (w + 1) => v.getLsbD i) h
  simp only [getLsbD_withCarry] at hbit
  refine Prod.ext (eq_of_getLsbD_eq fun i hi => ?_) ?_
  · simpa [show i ≠ w by omega] using hbit i
  · simpa using hbit w

theorem getLsbD_carryIn (w : Nat) (c : Bool) (i : Nat) :
    (carryIn w c).getLsbD i = (decide (i < w) && (decide (i = 0) && c)) := by
  simp only [carryIn, getLsbD_setWidth, getLsbD_ofBool]

theorem withCarry_rclOne (hw : 0 < w) (p : BitVec w × Bool) :
    withCarry (rclOne p) = (withCarry p).rotateLeft 1 := by
  apply eq_of_getLsbD_eq
  intro i hi
  rw [getLsbD_rotateLeft, mod_eq_of_lt (by omega : 1 < w + 1), getLsbD_withCarry,
    getLsbD_withCarry, getLsbD_withCarry]
  by_cases htop : i = w
  · subst htop
    simp [rclOne, msb_eq_getLsbD_last, show ¬ i < 1 by omega, show i - 1 ≠ i by omega]
  rw [if_neg htop, rclOne, BitVec.getLsbD_or, getLsbD_carryIn, BitVec.getLsbD_shiftLeft]
  rcases Nat.eq_zero_or_pos i with rfl | hpos
  · simp [hw]
  · simp [hi, show i - 1 ≠ w by omega, show i ≠ 0 by omega,
      show i < w by omega]

theorem withCarry_iterate_rclOne (hw : 0 < w) (n : Nat) (p : BitVec w × Bool) :
    withCarry (rclOne^[n] p) = (withCarry p).rotateLeft n := by
  induction n generalizing p with
  | zero => exact (rotateLeft_of_dvd _ (zero_mod _)).symm
  | succ n ih =>
    rw [Function.iterate_succ_apply, ih, withCarry_rclOne hw, rotateLeft_rotateLeft,
      Nat.add_comm 1 n]

/-- A full turn of the word and its carry changes nothing. -/
theorem iterate_rclOne_mod (hw : 0 < w) (n : Nat) (p : BitVec w × Bool) :
    rclOne^[n] p = rclOne^[n % (w + 1)] p := by
  apply withCarry_injective
  rw [withCarry_iterate_rclOne hw, withCarry_iterate_rclOne hw, rotateLeft_mod_eq_rotateLeft]

theorem iterate_rclOne {n : Nat} (hpos : 0 < n) (hn : n ≤ w) (p : BitVec w × Bool) :
    rclOne^[n] p =
      ((p.1 <<< n) ||| (carryIn w p.2 <<< (n - 1)) ||| (p.1 >>> (w + 1 - n)),
        p.1.getLsbD (w - n)) := by
  apply withCarry_injective
  rw [withCarry_iterate_rclOne (by omega)]
  apply eq_of_getLsbD_eq
  intro i hi
  rw [getLsbD_rotateLeft, mod_eq_of_lt (by omega : n < w + 1), getLsbD_withCarry,
    getLsbD_withCarry, getLsbD_withCarry]
  by_cases htop : i = w
  · subst htop
    simp [show ¬ i < n by omega, show i - n ≠ i by omega]
  rw [if_neg htop]
  simp only [BitVec.getLsbD_or, BitVec.getLsbD_shiftLeft,
    getLsbD_carryIn, show i < w by omega]
  rcases Nat.lt_trichotomy i (n - 1) with h | h | h
  · simp [h, show i < n by omega, show w + 1 - n + i ≠ w by omega]
  · subst h
    simp [show n - 1 < n by omega, show w + 1 - n + (n - 1) = w by omega, show 0 < w by omega]
  · simp [show ¬ i < n by omega, show i - n ≠ w by omega, hi,
      show i - (n - 1) ≠ 0 by omega, getLsbD_of_ge p.1 (w + 1 - n + i) (by omega)]

/-- A rotate right by one is a rotate left by all the others. -/
theorem rcrOne_eq_iterate (hw : 0 < w) : rcrOne (w := w) = rclOne^[w] := by
  funext p
  rw [iterate_rclOne hw (Nat.le_refl w), BitVec.shiftLeft_eq_zero (Nat.le_refl w), BitVec.zero_or,
    Nat.add_sub_cancel_left, Nat.sub_self, BitVec.or_comm, rcrOne]

theorem iterate_rcrOne_eq (hw : 0 < w) (n : Nat) (p : BitVec w × Bool) :
    rcrOne^[n] p = rclOne^[w * n % (w + 1)] p := by
  rw [rcrOne_eq_iterate hw, ← Function.iterate_mul, iterate_rclOne_mod hw]

theorem iterate_rcrOne_mod (hw : 0 < w) (n : Nat) (p : BitVec w × Bool) :
    rcrOne^[n] p = rcrOne^[n % (w + 1)] p := by
  rw [iterate_rcrOne_eq hw, iterate_rcrOne_eq hw, mul_mod_mod]

theorem iterate_rcrOne {n : Nat} (hpos : 0 < n) (hn : n ≤ w) (p : BitVec w × Bool) :
    rcrOne^[n] p =
      ((p.1 >>> n) ||| (carryIn w p.2 <<< (w - n)) ||| (p.1 <<< (w + 1 - n)),
        p.1.getLsbD (n - 1)) := by
  have hturn : w * n % (w + 1) = w + 1 - n := by
    obtain ⟨k, rfl⟩ := exists_eq_succ_of_ne_zero hpos.ne'
    have hsplit : w * (k + 1) = (w + 1) * k + (w - k) := by
      rw [Nat.mul_succ, Nat.succ_mul]
      omega
    rw [hsplit, mul_add_mod, mod_eq_of_lt (by omega)]
    omega
  rw [iterate_rcrOne_eq (by omega), hturn, iterate_rclOne (by omega) (by omega),
    show w + 1 - (w + 1 - n) = n by omega, show w + 1 - n - 1 = w - n by omega,
    show w - (w + 1 - n) = n - 1 by omega, BitVec.or_comm, BitVec.or_comm (p.1 <<< _),
    BitVec.or_assoc]

end Lib
