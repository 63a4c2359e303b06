-- SUMMARY: Loops that use up a budget in passes of varying size, and when they amount to an iteration.
import Mathlib.Logic.Function.Iterate

/-!
# Loops over a budget

`while n > 0 { (s, n) = body s n }`, where a pass may use up any positive part of the budget. If
a pass that uses `k` does what `k` ticks do, the loop over `n` does what `n` ticks do, however the
passes are cut.
-/

namespace Lib

variable {σ : Type*}

def spendFuel (body : σ → Nat → σ × Nat) : Nat → σ → Nat → σ
  | 0, s, _ => s
  | fuel + 1, s, n =>
    if n = 0 then s
    else
      let (s, n) := body s n
      spendFuel body fuel s n

/-- The loop. A pass uses up at least one of the budget, so `n` passes are enough. -/
def spend (body : σ → Nat → σ × Nat) (s : σ) (n : Nat) : σ := spendFuel body n s n

variable {body : σ → Nat → σ × Nat} {tick : σ → σ} {ok : σ → Nat → Prop}

section

variable (hlt : ∀ s n, 0 < n → (body s n).2 < n)
include hlt

theorem spendFuel_eq_spend {fuel n : Nat} (s : σ) (hfuel : n ≤ fuel) :
    spendFuel body fuel s n = spend body s n := by
  induction n using Nat.strongRecOn generalizing s fuel with
  | ind n ih =>
    obtain rfl | ⟨n, rfl⟩ : n = 0 ∨ ∃ k, n = k + 1 := by cases n <;> simp
    · cases fuel <;> rfl
    · obtain ⟨fuel, rfl⟩ := Nat.exists_eq_add_of_le' (Nat.lt_of_lt_of_le n.succ_pos hfuel)
      have hrest := hlt s (n + 1) n.succ_pos
      rw [spend, spendFuel, spendFuel, if_neg n.succ_ne_zero]
      exact (ih _ hrest _ (by omega)).trans (ih _ hrest _ (by omega)).symm

theorem spend_step {s : σ} {n : Nat} (hn : 0 < n) :
    spend body s n = spend body (body s n).1 (body s n).2 := by
  obtain ⟨n, rfl⟩ := Nat.exists_eq_add_of_lt hn
  have hrest := hlt s _ hn
  rw [spend, spendFuel, if_neg (by omega)]
  exact spendFuel_eq_spend hlt _ (by omega)

end

/-- What a pass may do: some ticks, at least one and no more than there are, and what is left
can be used in turn. -/
def Spends (tick : σ → σ) (ok : σ → Nat → Prop) (body : σ → Nat → σ × Nat) : Prop :=
  ∀ s n, ok s n → 0 < n →
    ∃ k, 0 < k ∧ k ≤ n ∧ body s n = (tick^[k] s, n - k) ∧ ok (tick^[k] s) (n - k)

theorem spendFuel_eq_iterate (h : Spends tick ok body) {fuel n : Nat} {s : σ} (hs : ok s n)
    (hfuel : n ≤ fuel) : spendFuel body fuel s n = tick^[n] s := by
  induction fuel generalizing s n with
  | zero =>
    obtain rfl : n = 0 := Nat.le_zero.mp hfuel
    rfl
  | succ fuel ih =>
    rw [spendFuel]
    split
    next hzero =>
      subst hzero
      rfl
    next hpos =>
      obtain ⟨k, hk, hkn, hbody, hok⟩ := h s n hs (Nat.pos_of_ne_zero hpos)
      rw [hbody]
      show spendFuel body fuel (tick^[k] s) (n - k) = tick^[n] s
      rw [ih hok (by omega), ← Function.iterate_add_apply, Nat.sub_add_cancel hkn]

theorem spend_eq_iterate (h : Spends tick ok body) {n : Nat} {s : σ} (hs : ok s n) :
    spend body s n = tick^[n] s :=
  spendFuel_eq_iterate h hs (Nat.le_refl n)

end Lib
