-- SUMMARY: Reachable states of a labelled transition relation, with the invariant rule.
import Mathlib.Data.List.Induction

/-!
# Reachability

States reached from a start state by labelled steps, each of which meets a side
condition on the state it leaves and the label it carries. `Reachable.invariant`
packages the induction: a predicate that holds at the start and is kept by every
admitted step holds of every reachable state.
-/

namespace Lib

variable {σ α : Type*}

/-- The states reached from `start` along steps of `step` whose source state and
label satisfy `ok`. -/
inductive Reachable (step : σ → α → σ → Prop) (ok : σ → α → Prop) (start : σ) : σ → Prop
  | start : Reachable step ok start start
  | step {s s' : σ} {a : α} :
      Reachable step ok start s → ok s a → step s a s' → Reachable step ok start s'

namespace Reachable

variable {step : σ → α → σ → Prop} {ok ok' : σ → α → Prop} {start s : σ}

/-- A predicate that holds at the start and is kept by every admitted step holds
of every reachable state. -/
theorem invariant {Inv : σ → Prop} (hstart : Inv start)
    (hstep : ∀ s a s', Inv s → ok s a → step s a s' → Inv s')
    (h : Reachable step ok start s) : Inv s := by
  induction h with
  | start => exact hstart
  | step _ hok hs ih => exact hstep _ _ _ ih hok hs

end Reachable

/-! ## Runs of a function -/

section Runs

variable {next : σ → α → σ} {ok : σ → α → Prop}

/-- Every step of the run from `s` meets `ok` at the state it is taken in. -/
def StepsMeet (next : σ → α → σ) (ok : σ → α → Prop) : σ → List α → Prop
  | _, [] => True
  | s, a :: as => ok s a ∧ StepsMeet next ok (next s a) as

/-- If under an invariant `ok` is exactly what keeps `P` in a step, then `P` holds all along
a run exactly when every step meets `ok`. -/
theorem forall_scanl_iff_stepsMeet_of_inv {P I : σ → Prop} (hinv : ∀ s a, I s → P s → I (next s a))
    (hexact : ∀ s a, I s → P s → (P (next s a) ↔ ok s a)) {s : σ} (hi : I s) (hs : P s)
    (as : List α) : (∀ t ∈ as.scanl next s, P t) ↔ StepsMeet next ok s as := by
  induction as generalizing s with
  | nil => simpa [StepsMeet] using hs
  | cons a as ih =>
    rw [List.scanl_cons, StepsMeet, ← hexact s a hi hs]
    simp only [List.mem_cons, forall_eq_or_imp, hs, true_and]
    constructor
    · intro h
      -- the rest of the run starts in the state after the step
      have hnext : P (next s a) := h _ (by cases as <;> simp)
      exact ⟨hnext, (ih (hinv s a hi hs) hnext).mp h⟩
    · rintro ⟨hnext, h⟩
      exact (ih (hinv s a hi hs) hnext).mpr h

/-- What is kept by every step from a state with `Q` holds all along a run through such states. -/
theorem forall_scanl_of_forall_scanl {P Q : σ → Prop} (hstep : ∀ s a, Q s → P s → P (next s a))
    {s : σ} (hs : P s) {as : List α} (hq : ∀ t ∈ as.scanl next s, Q t) :
    ∀ t ∈ as.scanl next s, P t := by
  induction as generalizing s with
  | nil => simpa using hs
  | cons a as ih =>
    rw [List.scanl_cons] at hq ⊢
    obtain ⟨hqs, hq⟩ := List.forall_mem_cons.mp hq
    exact List.forall_mem_cons.mpr ⟨hs, ih (hstep s a hqs hs) hq⟩

/-- A step settles what `r` reads, if no other step of the run touches it. -/
theorem read_foldl_of_mem {β : Type*} {r : σ → β} {a : α} {v : β}
    (hself : ∀ s, r (next s a) = v) (hother : ∀ s, ∀ b ≠ a, r (next s b) = r s) {as : List α}
    (ha : a ∈ as) (s : σ) : r (as.foldl next s) = v := by
  induction as using List.reverseRecOn with
  | nil => exact absurd ha List.not_mem_nil
  | append_singleton as b ih =>
    rw [List.foldl_append, List.foldl_cons, List.foldl_nil]
    by_cases hb : b = a
    · rw [hb, hself]
    · have hmem : a ∈ as := by simpa [Ne.symm hb] using ha
      rw [hother _ b hb]
      exact ih hmem

end Runs

end Lib
