-- SUMMARY: Inversion and frame rules for computations with a state and a failure outcome.
import Mathlib.Tactic.Common

/-!
# Computations with state and failure

`EStateM ε σ α` keeps the state of a failed computation, as code that mutates before it
returns an error does. `run_bind_ok` and `run_bind_error` take a run of a sequence apart.
A `Frame` is what a computation may do to the state, whatever its outcome; frames
compose, so the frame of a program follows from the frames of its steps.
-/

namespace Lib

variable {ε σ α β : Type}

/-- The state a computation ends in, failed or not. -/
def finalState : EStateM.Result ε σ α → σ
  | .ok _ s => s
  | .error _ s => s

/-- Whether a computation returned. -/
def succeeded : EStateM.Result ε σ α → Bool
  | .ok _ _ => true
  | .error _ _ => false

theorem eq_ok_of_succeeded {r : EStateM.Result ε σ PUnit} (h : succeeded r) :
    r = .ok ⟨⟩ (finalState r) := by
  cases r with
  | ok a s => rfl
  | error e s => cases h

theorem eq_error_of_not_succeeded {r : EStateM.Result ε σ α} (h : ¬ succeeded r) :
    ∃ e, r = .error e (finalState r) := by
  cases r with
  | ok a s => exact absurd rfl h
  | error e s => exact ⟨e, rfl⟩

variable {f : α → EStateM ε σ β} {x : EStateM ε σ α}

theorem run_bind_ok {s s' : σ} {b : β} :
    (x >>= f).run s = .ok b s' ↔ ∃ a s₁, x.run s = .ok a s₁ ∧ (f a).run s₁ = .ok b s' := by
  rw [EStateM.run_bind]
  cases hx : x.run s with
  | ok a s₁ | error e s₁ => simp

theorem run_bind_error {s s' : σ} {e : ε} :
    (x >>= f).run s = .error e s' ↔
      x.run s = .error e s' ∨ ∃ a s₁, x.run s = .ok a s₁ ∧ (f a).run s₁ = .error e s' := by
  rw [EStateM.run_bind]
  cases hx : x.run s with
  | ok a s₁ | error e' s₁ => simp

theorem run_bind_of_ok {s s₁ : σ} {a : α}
    (h : x.run s = .ok a s₁) : (x >>= f).run s = (f a).run s₁ := by
  rw [EStateM.run_bind, h]

theorem run_bind_of_error {s s₁ : σ} {e : ε}
    (h : x.run s = .error e s₁) : (x >>= f).run s = .error e s₁ := by
  rw [EStateM.run_bind, h]

theorem run_get_bind (f : σ → EStateM ε σ β) (s : σ) : (get >>= f).run s = (f s).run s :=
  run_bind_of_ok (EStateM.run_get s)

theorem run_set_bind (f : PUnit → EStateM ε σ β) (s s₁ : σ) :
    (set s₁ >>= f).run s = (f ⟨⟩).run s₁ :=
  run_bind_of_ok (EStateM.run_set s₁ s)

/-- A guard that lets the computation end. -/
theorem run_guard_ok {b : Bool} {e : ε} {s s' : σ} :
    (if b then throw e else return : EStateM ε σ PUnit).run s = .ok ⟨⟩ s' ↔ ¬ b ∧ s' = s := by
  cases b with
  | true => simp
  | false => exact ⟨fun h => by cases h; simp, fun h => by rw [h.2]; rfl⟩

theorem run_modify_bind (g : σ → σ) (f : PUnit → EStateM ε σ β) (s : σ) :
    (modify g >>= f).run s = (f ⟨⟩).run (g s) :=
  run_bind_of_ok (EStateM.run_modify g s)

/-- A computation on one part of the state. -/
def zoom {τ : Type} (part : σ → τ) (put : τ → σ → σ) (x : EStateM ε τ α) : EStateM ε σ α := fun s =>
  match x.run (part s) with
  | .ok a t => .ok a (put t s)
  | .error e t => .error e (put t s)

section Zoom

variable {τ : Type} {part : σ → τ} {put : τ → σ → σ} {y : EStateM ε τ α} {s : σ} {t : τ}

theorem run_zoom_of_ok {a : α} (h : y.run (part s) = .ok a t) :
    (zoom part put y).run s = .ok a (put t s) := by
  show (match y.run (part s) with | .ok a t => _ | .error e t => _) = _
  rw [h]

theorem run_zoom_of_error {e : ε} (h : y.run (part s) = .error e t) :
    (zoom part put y).run s = .error e (put t s) := by
  show (match y.run (part s) with | .ok a t => _ | .error e t => _) = _
  rw [h]

theorem run_zoom_ok {s' : σ} {a : α} :
    (zoom part put y).run s = .ok a s' ↔ ∃ t, y.run (part s) = .ok a t ∧ put t s = s' := by
  cases hy : y.run (part s) with
  | ok b t =>
    rw [run_zoom_of_ok hy]
    simp [and_assoc]
  | error e t =>
    rw [run_zoom_of_error hy]
    simp

end Zoom

/-- A preorder on states: what is allowed to change. -/
structure Frame (σ : Type) where
  rel : σ → σ → Prop
  refl : ∀ s, rel s s
  trans : ∀ {s₁ s₂ s₃}, rel s₁ s₂ → rel s₂ s₃ → rel s₁ s₃

namespace Frame

variable (F : Frame σ)

/-- Whatever its outcome, the computation stays within the frame. -/
def Holds (x : EStateM ε σ α) : Prop := ∀ s, F.rel s (finalState (x.run s))

variable {F}

variable {x : EStateM ε σ α}

theorem Holds.ok (h : F.Holds x) {s s' : σ} {a : α} (hr : x.run s = .ok a s') : F.rel s s' := by
  have hs := h s
  rw [hr] at hs
  exact hs

theorem Holds.error (h : F.Holds x) {s s' : σ} {e : ε}
    (hr : x.run s = .error e s') : F.rel s s' := by
  have hs := h s
  rw [hr] at hs
  exact hs

theorem Holds.pure (a : α) : F.Holds (Pure.pure a : EStateM ε σ α) := fun s => F.refl s

theorem Holds.throw (e : ε) : F.Holds (throw e : EStateM ε σ α) := fun s => F.refl s

theorem Holds.get : F.Holds (get : EStateM ε σ σ) := fun s => F.refl s

theorem Holds.modify {f : σ → σ} (h : ∀ s, F.rel s (f s)) :
    F.Holds (modify f : EStateM ε σ PUnit) := h

theorem Holds.bind {f : α → EStateM ε σ β} (hx : F.Holds x)
    (hf : ∀ a, F.Holds (f a)) : F.Holds (x >>= f) := by
  intro s
  have hs := hx s
  rw [EStateM.run_bind]
  cases hr : x.run s with
  | error e s₁ =>
    rw [hr] at hs
    exact hs
  | ok a s₁ =>
    rw [hr] at hs
    exact F.trans hs (hf a s₁)

theorem Holds.ite {c : Prop} [Decidable c] {y : EStateM ε σ α} (hx : F.Holds x)
    (hy : F.Holds y) : F.Holds (if c then x else y) := by
  split
  · exact hx
  · exact hy

/-- The frame that leaves a projection of the state alone. -/
def fixing {τ : Type} (p : σ → τ) : Frame σ where
  rel s s' := p s' = p s
  refl _ := rfl
  trans h h' := h'.trans h

/-- The frame that keeps an invariant. -/
def preserving (I : σ → Prop) : Frame σ where
  rel s s' := I s → I s'
  refl _ h := h
  trans h h' hs := h' (h hs)

theorem Holds.get_bind {I : σ → Prop} {f : σ → EStateM ε σ β}
    (h : ∀ s, I s → (preserving I).Holds (f s)) : (preserving I).Holds (MonadState.get >>= f) :=
  fun s hs => h s hs s hs

end Frame

end Lib
