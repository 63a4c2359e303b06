-- SUMMARY: Sets kept as the bits of an array of words, and the search for the greatest member.
import Mathlib.Data.Fin.Basic
import Mathlib.Logic.Function.Basic
import RustyBox.Lib.BitSet

/-!
# Sets in words

A set of numbers below `n * w` kept in `n` words of `w` bits: member `i` is bit `i % w` of word
`i / w`. `highest` looks at the words from the last one down and takes the most significant bit
of the first that is not zero, which is the greatest member of the set.
-/

namespace Lib

open Nat

abbrev WordSet (n w : Nat) := Fin n → BitVec w

variable {n w : Nat}

theorem ext_div_mod {i j : Fin (n * w)} (hdiv : i.divNat = j.divNat) (hmod : i.modNat = j.modNat) :
    i = j := by
  have hd : i.val / w = j.val / w := congrArg Fin.val hdiv
  have hm : i.val % w = j.val % w := congrArg Fin.val hmod
  rw [Fin.ext_iff, ← div_add_mod i.val w, hd, hm, div_add_mod]

/-! ## The most significant bit -/

section

variable {x : BitVec w}

def topBit (x : BitVec w) : Nat := w - 1 - x.clz.toNat

theorem topBit_lt (hx : x ≠ 0#w) : topBit x < w := by
  have hw : 0 < w := by
    rcases Nat.eq_zero_or_pos w with rfl | hw
    · exact absurd (BitVec.eq_nil x ▸ rfl) hx
    · exact hw
  rw [topBit]
  omega

theorem hasBit_topBit (hx : x ≠ 0#w) : hasBit x ⟨topBit x, topBit_lt hx⟩ := by
  have hw : 0 < w := lt_of_le_of_lt (zero_le _) (topBit_lt hx)
  rw [hasBit_eq_getLsbD]
  exact BitVec.getLsbD_true_clz_of_ne_zero hw hx

theorem le_topBit {i : Fin w} (hi : hasBit x i) : i.val ≤ topBit x := by
  have hbit : x.toNat.testBit i.val := by rwa [hasBit_eq_getLsbD] at hi
  have hlow : 2 ^ i.val ≤ x.toNat := ge_two_pow_of_testBit hbit
  have hhigh : x.toNat < 2 ^ (w - x.clz.toNat) := BitVec.toNat_lt_two_pow_sub_clz
  have hlt : i.val < w - x.clz.toNat :=
    (Nat.pow_lt_pow_iff_right Nat.one_lt_two).mp (lt_of_le_of_lt hlow hhigh)
  rw [topBit]
  omega

end

namespace WordSet

variable {s : WordSet n w} {i j : Fin (n * w)}

def mem (s : WordSet n w) (i : Fin (n * w)) : Bool := hasBit (s i.divNat) i.modNat

def insert (s : WordSet n w) (i : Fin (n * w)) : WordSet n w :=
  Function.update s i.divNat (setBit (s i.divNat) i.modNat)

def erase (s : WordSet n w) (i : Fin (n * w)) : WordSet n w :=
  Function.update s i.divNat (clearBit (s i.divNat) i.modNat)

@[simp] theorem mem_insert : (s.insert i).mem j = (s.mem j || decide (j = i)) := by
  by_cases hdiv : j.divNat = i.divNat
  · have hiff : j = i ↔ j.modNat = i.modNat := ⟨fun h => h ▸ rfl, ext_div_mod hdiv⟩
    simp [mem, insert, hdiv, hiff]
  · have hne : j ≠ i := fun h => hdiv (h ▸ rfl)
    simp [mem, insert, hdiv, hne]

@[simp] theorem mem_erase : (s.erase i).mem j = (s.mem j && !decide (j = i)) := by
  by_cases hdiv : j.divNat = i.divNat
  · have hiff : j = i ↔ j.modNat = i.modNat := ⟨fun h => h ▸ rfl, ext_div_mod hdiv⟩
    simp [mem, erase, hdiv, hiff]
  · have hne : j ≠ i := fun h => hdiv (h ▸ rfl)
    simp [mem, erase, hdiv, hne]

/-- The search through the first `k` words, from the last one down. -/
def highestBelow (s : WordSet n w) : (k : Nat) → k ≤ n → Option (Fin (n * w))
  | 0, _ => none
  | k + 1, hk =>
    if h : s ⟨k, hk⟩ ≠ 0#w then some (Fin.mkDivMod ⟨k, hk⟩ ⟨topBit (s ⟨k, hk⟩), topBit_lt h⟩)
    else s.highestBelow k (le_of_succ_le hk)

def highest (s : WordSet n w) : Option (Fin (n * w)) := s.highestBelow n (le_refl n)

/-- What the search through `k` words found. -/
def FoundBelow (s : WordSet n w) (k : Nat) : Option (Fin (n * w)) → Prop
  | some i => s.mem i ∧ ∀ j, s.mem j → j.divNat.val < k → j ≤ i
  | none => ∀ j : Fin (n * w), j.divNat.val < k → s.mem j = false

theorem foundBelow_highestBelow (s : WordSet n w) (k : Nat) (hk : k ≤ n) :
    s.FoundBelow k (s.highestBelow k hk) := by
  induction k with
  | zero => exact fun j hj => absurd hj (not_lt_zero _)
  | succ k ih =>
    rw [highestBelow]
    split
    next hword =>
      -- the word decides: what lies in lower words is smaller, what lies in it is no higher
      refine ⟨?_, fun j hj hjk => ?_⟩
      · rw [mem, Fin.divNat_mkDivMod, Fin.modNat_mkDivMod]
        exact hasBit_topBit hword
      · show j.val ≤ w * k + topBit (s ⟨k, hk⟩)
        have hval : w * j.divNat.val + j.modNat.val = j.val := div_add_mod j.val w
        rcases Nat.lt_succ_iff_lt_or_eq.mp hjk with hlt | heq
        · have hmul : w * j.divNat.val + w ≤ w * k := by
            rw [← mul_succ]
            exact mul_le_mul_left w hlt
          omega
        · have hdiv : j.divNat = ⟨k, hk⟩ := Fin.ext heq
          have htop : j.modNat.val ≤ topBit (s ⟨k, hk⟩) := le_topBit (by rw [← hdiv]; exact hj)
          rw [heq] at hval
          exact hval ▸ Nat.add_le_add_left htop _
    next hword =>
      have hempty (j : Fin (n * w)) (hj : j.divNat.val = k) : s.mem j = false := by
        have hdiv : j.divNat = ⟨k, hk⟩ := Fin.ext hj
        rw [mem, hdiv, not_not.mp hword, hasBit_zero]
      have ih := ih (le_of_succ_le hk)
      cases hfound : s.highestBelow k (le_of_succ_le hk) with
      | none =>
        rw [hfound] at ih
        intro j hj
        rcases Nat.lt_succ_iff_lt_or_eq.mp hj with hlt | heq
        · exact ih j hlt
        · exact hempty j heq
      | some i =>
        rw [hfound] at ih
        refine ⟨ih.1, fun j hj hjk => ?_⟩
        rcases Nat.lt_succ_iff_lt_or_eq.mp hjk with hlt | heq
        · exact ih.2 j hj hlt
        · exact absurd hj (Bool.eq_false_iff.mp (hempty j heq))

theorem highest_eq_none : s.highest = none ↔ ∀ j, s.mem j = false := by
  have hfound := foundBelow_highestBelow s n (le_refl n)
  rw [highest]
  cases h : s.highestBelow n (le_refl n) with
  | none =>
    rw [h] at hfound
    exact ⟨fun _ j => hfound j j.divNat.isLt, fun _ => rfl⟩
  | some i =>
    rw [h] at hfound
    exact ⟨(nomatch ·), fun hnone => absurd hfound.1 (Bool.eq_false_iff.mp (hnone i))⟩

/-- The search finds the greatest member. -/
theorem highest_eq_some : s.highest = some i ↔ s.mem i ∧ ∀ j, s.mem j → j ≤ i := by
  have hfound := foundBelow_highestBelow s n (le_refl n)
  rw [highest]
  cases h : s.highestBelow n (le_refl n) with
  | none =>
    rw [h] at hfound
    exact ⟨(nomatch ·), fun hi => absurd hi.1 (Bool.eq_false_iff.mp (hfound i i.divNat.isLt))⟩
  | some k =>
    rw [h] at hfound
    have hk : s.mem k ∧ ∀ j, s.mem j → j ≤ k := ⟨hfound.1, fun j hj => hfound.2 j hj j.divNat.isLt⟩
    constructor
    · intro hki
      obtain rfl := Option.some.inj hki
      exact hk
    · intro hi
      exact congrArg some (le_antisymm (hi.2 k hk.1) (hk.2 i hi.1))

end WordSet

end Lib
