-- SUMMARY: PEXT and PDEP undo each other on the bits of the mask.
import Mathlib.Data.Nat.Bitwise
import Mathlib.Data.Nat.Size
import Mathlib.Data.BitVec
import Mathlib.Tactic.Ring

/-!
# Parallel bit extract and deposit

The loops of `pext_gq_bq_eq` and `pdep_gq_bq_eq` (`bmi64.rs`) run along the mask from its lowest
bit. At a one of the mask both copy a bit and move both cursors; at a zero PEXT moves the one it
reads at and PDEP the one it writes at.
-/

namespace RustyBox

open Nat

/-- `while op2 != 0` of PDEP (`deposit`) and of PEXT. -/
def bitLoop (deposit : Bool) (op1 op2 result wrMask : BitVec 64) : BitVec 64 :=
  if op2 = 0#64 then result
  else if op2 &&& 1#64 ≠ 0#64 then
    bitLoop deposit (op1 >>> 1) (op2 >>> 1)
      (if op1 &&& 1#64 ≠ 0#64 then result ||| wrMask else result) (wrMask <<< 1)
  else if deposit then bitLoop deposit op1 (op2 >>> 1) result (wrMask <<< 1)
  else bitLoop deposit (op1 >>> 1) (op2 >>> 1) result wrMask
termination_by op2.toNat
decreasing_by all_goals
  have : op2.toNat ≠ 0 := fun h => ‹¬ op2 = 0#64› (BitVec.eq_of_toNat_eq h)
  simp [shiftRight_eq_div_pow]
  omega

def pextGqBqEq (op1 op2 : BitVec 64) : BitVec 64 := bitLoop false op1 op2 0#64 1#64

def pdepGqBqEq (op1 op2 : BitVec 64) : BitVec 64 := bitLoop true op1 op2 0#64 1#64

/-- What the loop copies under a mask of these bits, lowest first. -/
def copied (deposit : Bool) : Nat → List Bool → Nat
  | _, [] => 0
  | x, true :: mask => x % 2 + 2 * copied deposit (x / 2) mask
  | x, false :: mask => if deposit then 2 * copied deposit x mask else copied deposit (x / 2) mask

theorem low_and_rest (x rest : Nat) :
    (x % 2 + 2 * rest) % 2 = x % 2 ∧ (x % 2 + 2 * rest) / 2 = rest := by omega

theorem extracted_deposited (x : Nat) (mask : List Bool) :
    copied false (copied true x mask) mask = x % 2 ^ mask.count true := by
  induction mask generalizing x with
  | nil => simp [copied, mod_one]
  | cons b mask ih =>
    cases b with
    | false => simp [copied, ih]
    | true =>
      simp only [copied]
      obtain ⟨hlow, hhigh⟩ := low_and_rest x (copied true (x / 2) mask)
      rw [hlow, hhigh, ih, List.count_cons_self, pow_succ', mod_mul]

theorem deposited_extracted (x m : Nat) :
    copied true (copied false x m.bits) m.bits = x &&& m := by
  induction m using binaryRec' generalizing x with
  | zero => simp [copied]
  | bit b m hb ih =>
    have hand : x &&& bit b m = 2 * (x / 2 &&& m) + (x % 2) * b.toNat := by
      conv_lhs => rw [← bit_bodd_div2 x, land_bit, bit_val, div2_val]
      rw [mod_two_of_bodd]
      cases x.bodd <;> cases b <;> rfl
    rw [bits_append_bit m b hb, hand, ← ih]
    cases b with
    | false => simp [copied]
    | true =>
      simp only [copied]
      obtain ⟨hlow, hhigh⟩ := low_and_rest x (copied false (x / 2) m.bits)
      rw [hlow, hhigh, Bool.toNat_true]
      omega

theorem low_bit_iff (v : BitVec 64) : v &&& 1#64 ≠ 0#64 ↔ v.toNat % 2 = 1 := by
  rw [ne_eq, ← BitVec.toNat_inj, BitVec.toNat_and]
  simp [and_one_is_mod]

theorem toNat_shiftRight_one (v : BitVec 64) : (v >>> 1).toNat = v.toNat / 2 := by
  simp [shiftRight_eq_div_pow]

/-- The bit written at a one of the mask, with the cursor at `k`. -/
theorem toNat_write {result : BitVec 64} {k : Nat} (op1 : BitVec 64)
    (hresult : result.toNat < 2 ^ k) (hk : k < 64) :
    (if op1 &&& 1#64 ≠ 0#64 then result ||| 1#64 <<< k else result).toNat =
      result.toNat + 2 ^ k * (op1.toNat % 2) := by
  rcases mod_two_eq_zero_or_one op1.toNat with h | h
  · rw [if_neg (by rw [low_bit_iff]; omega), h, Nat.mul_zero, Nat.add_zero]
  · have hbit : (1#64 <<< k).toNat = 2 ^ k := by
      rw [← BitVec.twoPow_eq, BitVec.toNat_twoPow_of_lt hk]
    have hor := two_pow_add_eq_or_of_lt hresult 1
    rw [Nat.mul_one] at hor
    rw [if_pos ((low_bit_iff op1).mpr h), h, BitVec.toNat_or, hbit, Nat.or_comm, ← hor]
    omega

/-- From a cursor at `k` the loop adds what it copies above the `k` bits it has. -/
theorem toNat_bitLoop {deposit : Bool} {m k : Nat} {op1 op2 result : BitVec 64}
    (hm : op2.toNat = m) (hresult : result.toNat < 2 ^ k) (hk : k + m.bits.length ≤ 64) :
    (bitLoop deposit op1 op2 result (1#64 <<< k)).toNat =
      result.toNat + 2 ^ k * copied deposit op1.toNat m.bits := by
  induction m using binaryRec' generalizing op1 op2 result k with
  | zero =>
    rw [bitLoop, if_pos (BitVec.eq_of_toNat_eq hm)]
    simp [copied]
  | bit b m hb ih =>
    rw [bits_append_bit m b hb, List.length_cons] at hk
    have hne : op2 ≠ 0#64 := by
      rintro rfl
      simp_all [eq_comm]
    have hnext : (op2 >>> 1).toNat = m := by rw [toNat_shiftRight_one, hm, bit_div_two]
    have hle : 2 ^ k ≤ 2 ^ (k + 1) := Nat.pow_le_pow_right two_pos (le_succ k)
    rw [bitLoop, if_neg hne, bits_append_bit m b hb, ← BitVec.shiftLeft_add]
    cases b with
    | false =>
      rw [if_neg (by rw [low_bit_iff, hm]; simp), copied]
      cases deposit with
      | true =>
        rw [if_pos rfl, if_pos rfl, ih hnext (hresult.trans_le hle) (by omega)]
        ring
      | false =>
        rw [if_neg (by decide), if_neg (by decide), ih hnext hresult (by omega),
          toNat_shiftRight_one]
    | true =>
      have hwrite := toNat_write op1 hresult (by omega)
      have hbound : result.toNat + 2 ^ k * (op1.toNat % 2) < 2 ^ (k + 1) := by
        rcases mod_two_eq_zero_or_one op1.toNat with h | h <;> rw [h] <;> omega
      rw [if_pos (by rw [low_bit_iff, hm]; simp), ih hnext (by rwa [hwrite]) (by omega), hwrite,
        copied, toNat_shiftRight_one]
      ring

theorem toNat_bitLoop_start (deposit : Bool) (x m : BitVec 64) :
    (bitLoop deposit x m 0#64 1#64).toNat = copied deposit x.toNat m.toNat.bits := by
  have hlen : 0 + m.toNat.bits.length ≤ 64 := by
    rw [Nat.zero_add, size_eq_bits_len]
    exact size_le.mpr m.isLt
  have h : (bitLoop deposit x m 0#64 (1#64 <<< 0)).toNat = _ := toNat_bitLoop rfl (by decide) hlen
  simpa using h

/-- PEXT of a deposited value gives back its low bits, as many as the mask has; PDEP of an
extracted value the bits of the mask. -/
theorem pext_pdep_inverse (x m : BitVec 64) :
    (pextGqBqEq (pdepGqBqEq x m) m).toNat = x.toNat % 2 ^ m.toNat.bits.count true ∧
      pdepGqBqEq (pextGqBqEq x m) m = x &&& m := by
  constructor
  · rw [pextGqBqEq, pdepGqBqEq, toNat_bitLoop_start, toNat_bitLoop_start, extracted_deposited]
  · apply BitVec.eq_of_toNat_eq
    rw [pextGqBqEq, pdepGqBqEq, toNat_bitLoop_start, toNat_bitLoop_start, deposited_extracted,
      BitVec.toNat_and]

end RustyBox
