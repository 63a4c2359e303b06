-- SUMMARY: Machine words as sets of bit positions.
import Mathlib.Data.BitVec

/-!
# Words as sets

A word used as a bitmap: two bitmaps meet when they have a bit in common, and a bitmap
meets `1 <<< k` when it has bit `k`. `hasBit`, `setBit` and `clearBit` are the shift-and-mask
idioms on one member; the lemmas read every bitmap through `hasBit`.
-/

namespace Lib

open BitVec

variable {w : Nat} {x y : BitVec w} {k : Nat}

theorem and_ne_zero_iff : x &&& y ≠ 0#w ↔ ∃ i, x.getLsbD i ∧ y.getLsbD i := by
  constructor
  · intro h
    by_contra hnone
    refine h (eq_of_getLsbD_eq fun i _ => ?_)
    rw [getLsbD_and, getLsbD_zero, Bool.and_eq_false_iff]
    by_cases hx : x.getLsbD i
    · exact .inr (Bool.eq_false_iff.mpr fun hy => hnone ⟨i, hx, hy⟩)
    · exact .inl (Bool.eq_false_iff.mpr hx)
  · rintro ⟨i, hx, hy⟩ hzero
    have hbit := congrArg (fun v => getLsbD v i) hzero
    simp [hx, hy] at hbit

theorem getLsbD_one_shiftLeft (k i : Nat) :
    (1#w <<< k).getLsbD i = (decide (i < w) && decide (i = k)) := by
  rw [getLsbD_shiftLeft, getLsbD_one]
  by_cases hi : i = k
  · subst hi
    simp
    omega
  · simp only [hi, decide_false, Bool.and_false, Bool.and_eq_false_iff]
    by_cases hlt : i < k
    · simp [hlt]
    · exact .inr (by simp; omega)

theorem and_one_shiftLeft_ne_zero (hk : k < w) : x &&& 1#w <<< k ≠ 0#w ↔ x.getLsbD k := by
  rw [and_ne_zero_iff]
  constructor
  · rintro ⟨i, hx, hi⟩
    rw [getLsbD_one_shiftLeft, Bool.and_eq_true, decide_eq_true_eq, decide_eq_true_eq] at hi
    exact hi.2 ▸ hx
  · intro hx
    exact ⟨k, hx, by rw [getLsbD_one_shiftLeft]; simp [hk]⟩

/-! ## Fields

A field is read by shifting and masking; what is set or cleared elsewhere does not show. -/

theorem field_and {x b m : BitVec w} (h : b >>> k &&& m = m) :
    (x &&& b) >>> k &&& m = x >>> k &&& m := by
  rw [BitVec.ushiftRight_and_distrib, BitVec.and_assoc, h]

/-- Words that agree on `b` agree on every field inside `b`. -/
theorem field_congr {b m : BitVec w} (hxy : x &&& b = y &&& b) (h : b >>> k &&& m = m) :
    x >>> k &&& m = y >>> k &&& m := by
  rw [← field_and h, hxy, field_and h]

theorem submask_congr {b m : BitVec w} (hxy : x &&& b = y &&& b) (h : b &&& m = m) :
    x &&& m = y &&& m := by
  rw [← h, ← BitVec.and_assoc, hxy, BitVec.and_assoc]

/-! ## One member -/

def hasBit (r : BitVec w) (i : Fin w) : Bool := r &&& 1#w <<< i.val != 0#w

def setBit (r : BitVec w) (i : Fin w) : BitVec w := r ||| 1#w <<< i.val

def clearBit (r : BitVec w) (i : Fin w) : BitVec w := r &&& ~~~(1#w <<< i.val)

variable {r m : BitVec w} {i j : Fin w}

theorem hasBit_eq_getLsbD : hasBit r i = r.getLsbD i := by
  rw [Bool.eq_iff_iff, hasBit, bne_iff_ne]
  exact and_one_shiftLeft_ne_zero i.isLt

@[simp] theorem hasBit_zero : hasBit 0#w i = false := by
  rw [hasBit_eq_getLsbD, getLsbD_zero]

@[simp] theorem hasBit_setBit : hasBit (setBit r i) j = (hasBit r j || decide (j = i)) := by
  rw [hasBit_eq_getLsbD, hasBit_eq_getLsbD, setBit, getLsbD_or, getLsbD_one_shiftLeft]
  simp [Fin.ext_iff]

@[simp] theorem hasBit_clearBit : hasBit (clearBit r i) j = (hasBit r j && !decide (j = i)) := by
  rw [hasBit_eq_getLsbD, hasBit_eq_getLsbD, clearBit, getLsbD_and, getLsbD_not,
    getLsbD_one_shiftLeft]
  simp [Fin.ext_iff]

@[simp] theorem hasBit_and : hasBit (r &&& m) i = (hasBit r i && hasBit m i) := by
  simp [hasBit_eq_getLsbD]

@[simp] theorem hasBit_and_not : hasBit (r &&& ~~~m) i = (hasBit r i && !hasBit m i) := by
  simp [hasBit_eq_getLsbD]

theorem ne_zero_iff_hasBit : r ≠ 0#w ↔ ∃ i, hasBit r i := by
  constructor
  · intro h
    by_contra hnone
    refine h (eq_of_getLsbD_eq fun i hi => ?_)
    rw [getLsbD_zero, ← hasBit_eq_getLsbD (i := ⟨i, hi⟩)]
    exact Bool.eq_false_iff.mpr fun hr => hnone ⟨_, hr⟩
  · rintro ⟨i, hi⟩ rfl
    simp at hi

/-! ## Positions

Positions are members of `Fin n`, and their literals rest on `n ≠ 0`. A module that opens
`Positions` has that proof from here, so that it is the same in every definition. -/

namespace Positions

scoped instance neZero3 : NeZero 3 := ⟨by decide⟩
scoped instance neZero4 : NeZero 4 := ⟨by decide⟩
scoped instance neZero8 : NeZero 8 := ⟨by decide⟩
scoped instance neZero16 : NeZero 16 := ⟨by decide⟩

end Positions

end Lib
