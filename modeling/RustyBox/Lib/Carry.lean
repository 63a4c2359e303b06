-- SUMMARY: Carry and borrow vectors of bit-vector addition and subtraction, and signed overflow.
import Mathlib.Data.BitVec
import Mathlib.Tactic.Ring
import Mathlib.Tactic.IntervalCases

/-!
# Carry and borrow vectors

The carries out of every bit position of a sum can be read off the operands and the
result without repeating the addition; likewise the borrows of a difference. The
vectors below do that, `addCarries_getLsbD` and `subBorrows_getLsbD` say what their
bits are, and the last two carries decide signed overflow.
-/

namespace Lib

open BitVec

variable {w : Nat}

/-- The carry, as a vector of the width of the operands. -/
def carryIn (w : Nat) (c : Bool) : BitVec w := (ofBool c).setWidth w

/-- The carries out of the bit positions of `r = x + y + c`. -/
def addCarries (x y r : BitVec w) : BitVec w := (x &&& y) ||| ((x ||| y) &&& ~~~r)

/-- The borrows out of the bit positions of `r = x - y - c`. -/
def subBorrows (x y r : BitVec w) : BitVec w := (~~~x &&& y) ||| ((~~~x ^^^ y) &&& r)

/-- The low `i` bits of `x - y - c` need a borrow. -/
def borrow (i : Nat) (x y : BitVec w) (c : Bool) : Bool :=
  decide (x.toNat % 2 ^ i < y.toNat % 2 ^ i + c.toNat)

theorem addCarries_getLsbD {i : Nat} (hi : i < w) (x y : BitVec w) (c : Bool) :
    (addCarries x y (x + y + carryIn w c)).getLsbD i = carry (i + 1) x y c := by
  have hr := getLsbD_add_add_bool hi x y c
  rw [← carryIn] at hr
  simp only [addCarries, getLsbD_or, getLsbD_and, getLsbD_not, hi, hr, carry_succ]
  -- a truth table in the two operand bits and the carry in
  cases x.getLsbD i <;> cases y.getLsbD i <;> cases carry i x y c <;> rfl

theorem carryIn_false (w : Nat) : carryIn w false = 0#w := by
  simp [carryIn]

theorem carryIn_true (w : Nat) : carryIn w true = 1#w := by
  apply eq_of_toNat_eq
  simp [carryIn]

/-- A difference is the sum with the complement. -/
theorem sub_sub_carryIn (x y : BitVec w) (c : Bool) :
    x - y - carryIn w c = x + ~~~y + carryIn w !c := by
  have hc : carryIn w (!c) = 1#w - carryIn w c := by
    cases c <;> simp [carryIn_false, carryIn_true]
  rw [BitVec.sub_eq_add_neg x y, BitVec.neg_eq_not_add]
  grind

/-- The borrow of a difference is the missing carry of that sum. -/
theorem carry_not {i : Nat} (hi : i ≤ w) (x y : BitVec w) (c : Bool) :
    carry i x (~~~y) (!c) = !borrow i x y c := by
  have hpow : 2 ^ i ∣ 2 ^ w := pow_dvd_pow 2 hi
  have hpos : 0 < 2 ^ i := Nat.two_pow_pos i
  have hylt := y.isLt
  have hmod : (~~~y).toNat % 2 ^ i = 2 ^ i - 1 - y.toNat % 2 ^ i := by
    obtain ⟨k, hk⟩ := hpow
    rw [toNat_not]
    have hdiv := Nat.div_add_mod y.toNat (2 ^ i)
    have hq : y.toNat / 2 ^ i < k := by
      rw [Nat.div_lt_iff_lt_mul hpos, Nat.mul_comm, ← hk]
      exact hylt
    obtain ⟨e, rfl⟩ := Nat.exists_eq_add_of_lt hq
    have hsplit : 2 ^ w - 1 - y.toNat = (2 ^ i - 1 - y.toNat % 2 ^ i) + 2 ^ i * e := by
      have : 2 ^ w = 2 ^ i * (y.toNat / 2 ^ i) + 2 ^ i * e + 2 ^ i := by
        rw [hk]; ring
      omega
    rw [hsplit, Nat.add_mul_mod_self_left, Nat.mod_eq_of_lt (by omega)]
  simp only [borrow]
  rw [← decide_not]
  apply decide_eq_decide.mpr
  cases c <;> simp only [Bool.toNat_true, Bool.toNat_false, Bool.not_true, Bool.not_false] <;> omega

theorem subBorrows_getLsbD {i : Nat} (hi : i < w) (x y : BitVec w) (c : Bool) :
    (subBorrows x y (x - y - carryIn w c)).getLsbD i = borrow (i + 1) x y c := by
  have hr := getLsbD_add_add_bool hi x (~~~y) (!c)
  rw [← carryIn, ← sub_sub_carryIn] at hr
  have hb : borrow (i + 1) x y c = !carry (i + 1) x (~~~y) (!c) := by
    rw [carry_not hi, Bool.not_not]
  simp only [subBorrows, getLsbD_or, getLsbD_and, getLsbD_xor,
    getLsbD_not, hi, hr, hb, carry_succ]
  cases x.getLsbD i <;> cases y.getLsbD i <;> cases carry i x (~~~y) (!c) <;> rfl

/-! ## Signed overflow -/

/-- `n` is not the value of a signed `w`-bit vector. -/
def OutOfSigned (w : Nat) (n : Int) : Prop := n < -2 ^ (w - 1) ∨ 2 ^ (w - 1) ≤ n

instance (w : Nat) (n : Int) : Decidable (OutOfSigned w n) := inferInstanceAs (Decidable (_ ∨ _))

/-- A vector as its low part and its sign. -/
theorem toInt_split (x : BitVec (w + 1)) :
    (x.toNat < 2 ^ w ∧ x.toNat % 2 ^ w = x.toNat ∧ x.toInt = x.toNat) ∨
    (2 ^ w ≤ x.toNat ∧ x.toNat % 2 ^ w = x.toNat - 2 ^ w ∧
      x.toInt = (x.toNat : Int) - 2 * 2 ^ w) := by
  rw [toInt_eq_toNat_cond]
  rcases Nat.lt_or_ge x.toNat (2 ^ w) with h | h
  · left
    refine ⟨h, Nat.mod_eq_of_lt h, if_pos (by omega)⟩
  · right
    refine ⟨h, ?_, ?_⟩
    · rw [Nat.mod_eq_sub_mod h, Nat.mod_eq_of_lt (by omega)]
    · rw [if_neg (by omega)]
      push_cast
      ring

/-- The two top carries of a sum differ exactly when the signed sum overflows, and so for the
borrows of a difference. -/
theorem top_xor_top (hw : 0 < w) (x y : BitVec w) (c : Bool) :
    (carry w x y c ^^ carry (w - 1) x y c) =
        decide (OutOfSigned w (x.toInt + y.toInt + (c.toNat : Int))) ∧
      (borrow w x y c ^^ borrow (w - 1) x y c) =
        decide (OutOfSigned w (x.toInt - y.toInt - (c.toNat : Int))) := by
  obtain ⟨w, rfl⟩ := Nat.exists_eq_succ_of_ne_zero hw.ne'
  have hx := x.isLt
  have hy := y.isLt
  have hc : c.toNat ≤ 1 := by cases c <;> decide
  have hcast : ((2 ^ w : Nat) : Int) = 2 ^ w := by push_cast; rfl
  simp only [carry, borrow, OutOfSigned, Nat.succ_eq_add_one, Nat.add_sub_cancel,
    Nat.mod_eq_of_lt hx, Nat.mod_eq_of_lt hy]
  constructor
  all_goals
    rw [Bool.eq_iff_iff]
    simp only [Bool.xor_iff_ne, ne_eq, decide_eq_decide, decide_eq_true_eq]
    rcases toInt_split x with ⟨h1, h2, h3⟩ | ⟨h1, h2, h3⟩ <;>
      rcases toInt_split y with ⟨k1, k2, k3⟩ | ⟨k1, k2, k3⟩ <;>
      rw [k3] <;> omega

end Lib
