-- SUMMARY: Little-endian words over byte-addressed stores.
import Mathlib.Logic.Function.Basic
import Mathlib.Tactic.Common

/-!
# Little-endian words

A word of `n` bytes is `BitVec (8 * n)`; `byteAt` and `ofBytes` convert between a word
and its bytes, least significant first. `load` and `store` move words between a value
and a byte store `Nat → BitVec 8`.
-/

namespace Lib

open BitVec Function

/-- Byte `i` of a word, counted from the least significant one. -/
def byteAt {w : Nat} (v : BitVec w) (i : Nat) : BitVec 8 := v.extractLsb' (8 * i) 8

/-- The word whose byte `i` is `f i`. -/
def ofBytes : (n : Nat) → (Nat → BitVec 8) → BitVec (8 * n)
  | 0, _ => 0
  | n + 1, f => ofBytes n (fun i => f (i + 1)) ++ f 0

theorem getLsbD_ofBytes (n : Nat) (f : Nat → BitVec 8) (k : Nat) :
    (ofBytes n f).getLsbD k = (decide (k < 8 * n) && (f (k / 8)).getLsbD (k % 8)) := by
  induction n generalizing f k with
  | zero => simp
  | succ n ih =>
    have happ : (ofBytes (n + 1) f).getLsbD k =
        if k < 8 then (f 0).getLsbD k else (ofBytes n fun i => f (i + 1)).getLsbD (k - 8) :=
      getLsbD_append
    rw [happ]
    split
    case isTrue hk =>
      simp [Nat.div_eq_of_lt hk, Nat.mod_eq_of_lt hk, show k < 8 * (n + 1) by omega]
    case isFalse hk =>
      have hdiv : (k - 8) / 8 + 1 = k / 8 := by omega
      have hmod : (k - 8) % 8 = k % 8 := by omega
      have hlt : (k - 8 < 8 * n) = (k < 8 * (n + 1)) := by
        apply propext
        omega
      simp only [ih, hdiv, hmod, hlt]

variable {w n off i a : Nat}

theorem getLsbD_byteAt (v : BitVec w) (i k : Nat) :
    (byteAt v i).getLsbD k = (decide (k < 8) && v.getLsbD (8 * i + k)) :=
  getLsbD_extractLsb' ..

theorem byteAt_ofBytes (hi : i < n) (f : Nat → BitVec 8) : byteAt (ofBytes n f) i = f i := by
  apply eq_of_getLsbD_eq
  intro k hk
  have hdiv : (8 * i + k) / 8 = i := by omega
  have hmod : (8 * i + k) % 8 = k := by omega
  rw [getLsbD_byteAt, getLsbD_ofBytes, hdiv, hmod]
  simp [hk, show 8 * i + k < 8 * n by omega]

theorem ofBytes_congr {f g : Nat → BitVec 8} (h : ∀ i < n, f i = g i) :
    ofBytes n f = ofBytes n g := by
  apply eq_of_getLsbD_eq
  intro k hk
  rw [getLsbD_ofBytes, getLsbD_ofBytes, h (k / 8) (by omega)]

theorem ofBytes_byteAt (v : BitVec (8 * n)) : ofBytes n (byteAt v) = v := by
  apply eq_of_getLsbD_eq
  intro k hk
  have hsum : 8 * (k / 8) + k % 8 = k := by omega
  rw [getLsbD_ofBytes, getLsbD_byteAt, hsum]
  simp [hk, Nat.mod_lt]

/-- Two words with the same bytes are equal. -/
theorem eq_of_byteAt_eq {v w : BitVec (8 * n)} (h : ∀ i < n, byteAt v i = byteAt w i) : v = w := by
  rw [← ofBytes_byteAt v, ← ofBytes_byteAt w]
  exact ofBytes_congr h

/-! ## Stores -/

/-- The word of `n` bytes at offset `off`. -/
def load (mem : Nat → BitVec 8) (off n : Nat) : BitVec (8 * n) := ofBytes n fun i => mem (off + i)

/-- The store with the `n` bytes of `v` at offset `off`. -/
def store (mem : Nat → BitVec 8) (off n : Nat) {w : Nat} (v : BitVec w) : Nat → BitVec 8 :=
  fun o => if off ≤ o ∧ o < off + n then byteAt v (o - off) else mem o

variable {mem : Nat → BitVec 8} {v : BitVec w}

theorem store_of_outside {o : Nat} (ho : o < off ∨ off + n ≤ o) : store mem off n v o = mem o := by
  unfold store
  rw [if_neg (by omega)]

theorem store_inside (hi : i < n) : store mem off n v (off + i) = byteAt v i := by
  unfold store
  rw [if_pos (by omega), Nat.add_sub_cancel_left]

theorem byteAt_setWidth (hi : i < n) (v : BitVec w) :
    byteAt (v.setWidth (8 * n)) i = byteAt v i := by
  apply eq_of_getLsbD_eq
  intro k hk
  rw [getLsbD_byteAt, getLsbD_byteAt]
  simp [show 8 * i + k < 8 * n by omega]

/-- A store only looks at the bytes it writes. -/
theorem store_setWidth (mem : Nat → BitVec 8) (off n : Nat) (v : BitVec w) :
    store mem off n (v.setWidth (8 * n)) = store mem off n v := by
  funext o
  unfold store
  split
  case isTrue ho => exact byteAt_setWidth (by omega) v
  case isFalse => rfl

theorem load_congr {mem' : Nat → BitVec 8}
    (h : ∀ i < n, mem (off + i) = mem' (off + i)) : load mem off n = load mem' off n :=
  ofBytes_congr h

theorem load_store_self (mem : Nat → BitVec 8) (off n : Nat) (v : BitVec (8 * n)) :
    load (store mem off n v) off n = v := by
  apply eq_of_byteAt_eq
  intro i hi
  rw [load, byteAt_ofBytes hi, store_inside hi]

theorem load_store_setWidth : load (store mem off n v) off n = v.setWidth (8 * n) := by
  rw [← store_setWidth, load_store_self]

theorem load_store_of_disjoint {off' n' : Nat} (h : off' + n' ≤ off ∨ off + n ≤ off') :
    load (store mem off n v) off' n' = load mem off' n' := by
  apply load_congr
  intro i hi
  exact store_of_outside (by omega)

theorem store_one {v : BitVec 8} : store mem a 1 v = update mem a v := by
  funext o
  unfold store
  by_cases h : o = a
  · subst h
    simp [byteAt]
  · rw [update_of_ne h, if_neg (by omega)]

/-- A dword store that only changes the second byte. -/
theorem store_eq_update_second {v : BitVec 32} {b : BitVec 8} (hb : byteAt v 1 = b)
    (hother : ∀ i < 4, i ≠ 1 → byteAt v i = mem (a + i)) :
    store mem a 4 v = update mem (a + 1) b := by
  funext o
  by_cases ho : a ≤ o ∧ o < a + 4
  · obtain ⟨i, rfl⟩ : ∃ i, o = a + i := ⟨o - a, by omega⟩
    rw [store_inside (by omega)]
    by_cases hi : i = 1
    · rw [hi, hb, update_self]
    · rw [hother i (by omega) hi, update_of_ne (by omega)]
  · rw [store_of_outside (by omega), update_of_ne (by omega)]

theorem byteAt_load (hi : i < n) : byteAt (load mem a n) i = mem (a + i) := byteAt_ofBytes hi _

theorem byteAt_and (v v' : BitVec w) (i : Nat) : byteAt (v &&& v') i = byteAt v i &&& byteAt v' i :=
  extractLsb'_and

theorem byteAt_or (v v' : BitVec w) (i : Nat) : byteAt (v ||| v') i = byteAt v i ||| byteAt v' i :=
  extractLsb'_or

/-- Words at multiples of their size either coincide or are disjoint. -/
theorem aligned_disjoint {off' : Nat} (h : off % n = 0) (h' : off' % n = 0)
    (hne : off ≠ off') : off' + n ≤ off ∨ off + n ≤ off' := by
  obtain ⟨a, rfl⟩ := Nat.dvd_of_mod_eq_zero h
  obtain ⟨b, rfl⟩ := Nat.dvd_of_mod_eq_zero h'
  rcases Nat.lt_or_gt_of_ne (fun hab : a = b => hne (by rw [hab])) with hab | hab
  · exact .inr (Nat.mul_le_mul_left n hab)
  · exact .inl (Nat.mul_le_mul_left n hab)

/-- The stores of a list of aligned words, in order. -/
def storeAll (mem : Nat → BitVec 8) (n : Nat) (us : List (Nat × BitVec (8 * n))) : Nat → BitVec 8 :=
  us.foldl (fun mem u => store mem u.1 n u.2) mem

/-- An aligned word holds a value stored there, or what it held when none was. -/
theorem load_storeAll (hoff : off % n = 0) (us : List (Nat × BitVec (8 * n)))
    (hus : ∀ u ∈ us, u.1 % n = 0) (mem : Nat → BitVec 8) :
    (∃ u ∈ us, u.1 = off ∧ load (storeAll mem n us) off n = u.2) ∨
      (∀ u ∈ us, u.1 ≠ off) ∧ load (storeAll mem n us) off n = load mem off n := by
  induction us generalizing mem with
  | nil => exact .inr ⟨fun u hu => absurd hu List.not_mem_nil, rfl⟩
  | cons u us ih =>
    have hrest := ih (fun u' hu' => hus u' (List.mem_cons_of_mem u hu')) (store mem u.1 n u.2)
    rcases hrest with ⟨u', hu', heq, hload⟩ | ⟨hnone, hload⟩
    · exact .inl ⟨u', List.mem_cons_of_mem u hu', heq, hload⟩
    · by_cases hu : u.1 = off
      · refine .inl ⟨u, List.mem_cons_self, hu, hload.trans ?_⟩
        rw [← hu, load_store_self]
      · refine .inr ⟨List.forall_mem_cons.mpr ⟨hu, hnone⟩, hload.trans ?_⟩
        exact load_store_of_disjoint
          (aligned_disjoint (hus u List.mem_cons_self) hoff hu)

/-! ## Halves and masks -/

section Halves

variable {n k : Nat} (a : BitVec n) (b : BitVec k)

theorem setWidth_append_ushiftRight : ((a ++ b) >>> k).setWidth n = a := by
  apply eq_of_getLsbD_eq
  intro i hi
  rw [getLsbD_setWidth, getLsbD_ushiftRight, getLsbD_append]
  simp [hi]

theorem append_of_setWidth (v : BitVec (n + k)) : (v >>> k).setWidth n ++ v.setWidth k = v := by
  apply eq_of_getLsbD_eq
  intro i hi
  rw [getLsbD_append]
  split
  case isTrue h => simp [h]
  case isFalse h =>
    rw [getLsbD_setWidth, getLsbD_ushiftRight, Nat.add_sub_cancel' (by omega)]
    simp [show i - k < n by omega]

/-- Clearing a bit that is clear. -/
theorem and_not_twoPow {w i : Nat} {x : BitVec w} (h : x.getLsbD i = false) :
    x &&& ~~~twoPow w i = x := by
  ext j hj
  by_cases hij : j = i
  · subst hij
    simpa [hj] using h
  · simp [hij]

theorem or_eq_and_not_or {w : Nat} (x y : BitVec w) : x ||| y = (x &&& ~~~y) ||| y := by
  ext i hi
  cases h : y[i] <;> simp [h]

end Halves

end Lib
