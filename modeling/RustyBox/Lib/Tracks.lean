-- SUMMARY: A computation that does to a richer state what another does to a simpler one.
import RustyBox.Lib.Exec

/-!
# Tracking

The richer state is a function of the simpler one, as a table with an index is a function
of the table. `Tracks f x y` says that `x` keeps it so and otherwise does what `y` does.
-/

namespace Lib

variable {ε σ τ α β : Type} {f : τ → σ}

/-- The same outcome with the state seen through `f`. -/
def mapState (f : τ → σ) : EStateM.Result ε τ α → EStateM.Result ε σ α
  | .ok a t => .ok a (f t)
  | .error e t => .error e (f t)

/-- On the states of the form `f t`, `x` does what `y` does to `t`. -/
def Tracks (f : τ → σ) (x : EStateM ε σ α) (y : EStateM ε τ α) : Prop :=
  ∀ t, x.run (f t) = mapState f (y.run t)

namespace Tracks

theorem pure (a : α) :
    Tracks f (Pure.pure a : EStateM ε σ α) (Pure.pure a : EStateM ε τ α) := fun _ => rfl

theorem throw (e : ε) : Tracks f (throw e : EStateM ε σ α) (throw e : EStateM ε τ α) := fun _ => rfl

variable {x : EStateM ε σ α} {y : EStateM ε τ α}

theorem ite {c : Prop} [Decidable c] {x' : EStateM ε σ α} {y' : EStateM ε τ α} (h : Tracks f x y)
    (h' : Tracks f x' y') : Tracks f (if c then x else x') (if c then y else y') := by
  split
  · exact h
  · exact h'

theorem bind {g : α → EStateM ε σ β} {k : α → EStateM ε τ β} (hx : Tracks f x y)
    (hg : ∀ a, Tracks f (g a) (k a)) : Tracks f (x >>= g) (y >>= k) := by
  intro t
  rw [EStateM.run_bind, EStateM.run_bind, hx t]
  cases y.run t with
  | ok a t₁ => exact hg a t₁
  | error e t₁ => rfl

theorem finalState (h : Tracks f x y) (t : τ) :
    Lib.finalState (x.run (f t)) = f (Lib.finalState (y.run t)) := by
  rw [h t]
  cases y.run t <;> rfl

end Tracks

end Lib
