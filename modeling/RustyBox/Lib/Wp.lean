-- SUMMARY: Weakest preconditions of computations with a state and a failure outcome.
import RustyBox.Lib.Exec

/-!
# Weakest preconditions

`wp x s Q E` says that `x` started in `s` ends in `Q` if it returns and in `E` if it fails;
a failed computation keeps its state, so `E` is about that state as well. The rules follow
the constructs of a program. A program's specification is proved by going through its
steps, applying the specification of each with `wp.bind` and weakening with `wp.mono`; a step
that cannot fail, or fails as the whole may, needs no word about its failures.
`Maintains` is for what every step keeps.
-/

namespace Lib

variable {ε σ α β : Type}

/-- The weakest precondition of `x`, for returns and for failures. -/
def wp (x : EStateM ε σ α) (s : σ) (Q : α → σ → Prop) (E : ε → σ → Prop) : Prop :=
  match x.run s with
  | .ok a s' => Q a s'
  | .error e s' => E e s'

namespace wp

variable {x : EStateM ε σ α} {s s' : σ} {Q Q' : α → σ → Prop} {E E' : ε → σ → Prop}

theorem of_ok {a : α} (h : x.run s = .ok a s') (hQ : Q a s') : wp x s Q E := by
  rw [wp, h]
  exact hQ

theorem of_error {e : ε} (h : x.run s = .error e s') (hE : E e s') : wp x s Q E := by
  rw [wp, h]
  exact hE

theorem ok (h : wp x s Q E) {a : α} (hr : x.run s = .ok a s') : Q a s' := by
  rwa [wp, hr] at h

theorem error (h : wp x s Q E) {e : ε} (hr : x.run s = .error e s') : E e s' := by
  rwa [wp, hr] at h

theorem mono (h : wp x s Q E) (hQ : ∀ a s', Q a s' → Q' a s')
    (hE : ∀ e s', E e s' → E' e s' := by first | exact fun _ _ => id | exact fun _ _ => False.elim) :
    wp x s Q' E' := by
  cases hr : x.run s with
  | ok a s' => exact of_ok hr (hQ a s' (h.ok hr))
  | error e s' => exact of_error hr (hE e s' (h.error hr))

/-- The run itself is known in what follows. -/
theorem with_run (h : wp x s Q E) :
    wp x s (fun a s' => x.run s = .ok a s' ∧ Q a s') fun e s' => x.run s = .error e s' ∧ E e s' := by
  cases hr : x.run s with
  | ok a s' => exact of_ok hr ⟨rfl, h.ok hr⟩
  | error e s' => exact of_error hr ⟨rfl, h.error hr⟩

theorem pure {a : α} (h : Q a s) : wp (Pure.pure a) s Q E := h

theorem throw {e : ε} (h : E e s) : wp (throw e) s Q E := h

variable {R : β → σ → Prop}

/-- The sequence rule: what follows is proved from the specification of the first step. -/
theorem bind {f : α → EStateM ε σ β} (hx : wp x s Q E) (hf : ∀ a s', Q a s' → wp (f a) s' R E')
    (hE : ∀ e s', E e s' → E' e s' := by first | exact fun _ _ => id | exact fun _ _ => False.elim) :
    wp (x >>= f) s R E' := by
  cases hr : x.run s with
  | ok a s' =>
    rw [wp, run_bind_of_ok hr]
    exact hf a s' (hx.ok hr)
  | error e s' => exact of_error (run_bind_of_error hr) (hE e s' (hx.error hr))

theorem get_bind {f : σ → EStateM ε σ β} (h : wp (f s) s R E) : wp (get >>= f) s R E := by
  rwa [wp]

theorem set_bind {f : PUnit → EStateM ε σ β} (h : wp (f ⟨⟩) s' R E) : wp (set s' >>= f) s R E := by
  rwa [wp]

theorem modify_bind {g : σ → σ} {f : PUnit → EStateM ε σ β}
    (h : wp (f ⟨⟩) (g s) R E) : wp (modify g >>= f) s R E := by
  rwa [wp]

theorem modify {g : σ → σ} {R : PUnit → σ → Prop} (h : R ⟨⟩ (g s)) : wp (modify g) s R E := h

theorem set {R : PUnit → σ → Prop} (h : R ⟨⟩ s') : wp (set s') s R E := h

theorem ite {c : Prop} [Decidable c] {y : EStateM ε σ α} (hx : c → wp x s Q E)
    (hy : ¬ c → wp y s Q E) : wp (if c then x else y) s Q E := by
  split
  case isTrue h => exact hx h
  case isFalse h => exact hy h

end wp

/-- From states in `I`, `x` stays in `I` and fails with errors in `E` only. -/
def Maintains (I : σ → Prop) (E : ε → Prop) (x : EStateM ε σ α) : Prop :=
  ∀ s, I s → wp x s (fun _ s' => I s') fun e _ => E e

namespace Maintains

variable {I : σ → Prop} {E : ε → Prop} {x : EStateM ε σ α}

theorem pure (a : α) : Maintains I E (Pure.pure a : EStateM ε σ α) := fun _ h => .pure h

theorem throw {e : ε} (h : E e) : Maintains I E (throw e : EStateM ε σ α) := fun _ _ => .throw h

theorem bind {f : α → EStateM ε σ β} (hx : Maintains I E x) (hf : ∀ a, Maintains I E (f a)) :
    Maintains I E (x >>= f) :=
  fun s hs => (hx s hs).bind fun a s' hs' => hf a s' hs'

theorem get_bind {f : σ → EStateM ε σ β} (hf : ∀ s, I s → Maintains I E (f s)) :
    Maintains I E (get >>= f) :=
  fun s hs => .get_bind (hf s hs s hs)

theorem set {s' : σ} (h : I s') : Maintains I E (set s' : EStateM ε σ PUnit) := fun _ _ => .set h

theorem modify {g : σ → σ} (h : ∀ s, I s → I (g s)) :
    Maintains I E (modify g : EStateM ε σ PUnit) :=
  fun s hs => .modify (h s hs)

theorem ite {c : Prop} [Decidable c] {y : EStateM ε σ α} (hx : c → Maintains I E x)
    (hy : ¬ c → Maintains I E y) : Maintains I E (if c then x else y) := by
  split
  case isTrue h => exact hx h
  case isFalse h => exact hy h

end Maintains

end Lib
