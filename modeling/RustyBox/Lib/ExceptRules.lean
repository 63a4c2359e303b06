-- SUMMARY: When sequenced and iterated computations in `Except` succeed.
import Mathlib.Data.List.Forall2
import Mathlib.Logic.Basic
import Mathlib.Tactic.Common

/-!
# Success in `Except`

Equations that turn "this checker returned `ok`" into the facts its steps checked:
for one step after another, for a step over every element of a list, and for a guard.
-/

namespace Lib

variable {ε α β : Type}

/-- A guard that fails with `e` when `c` holds. -/
def failIf (c : Prop) [Decidable c] (e : ε) : Except ε Unit :=
  if c then .error e else .ok ()

@[simp] theorem failIf_eq_ok {c : Prop} [Decidable c] {e : ε} {u : Unit} :
    failIf c e = .ok u ↔ ¬ c := by
  unfold failIf
  split <;> simp_all

variable {f : α → Except ε β} {l : List α} {x : Except ε α}

theorem check_eq_ok {c : Prop} [Decidable c] {e : ε} {a : α} :
    (if c then .error e else x) = .ok a ↔ ¬ c ∧ x = .ok a := by
  by_cases h : c <;> simp [h]

@[simp] theorem bind_eq_ok {b : β} : x >>= f = .ok b ↔ ∃ a, x = .ok a ∧ f a = .ok b := by
  cases x with
  | error e | ok a => simp [bind, Except.bind]

theorem bind_eq_error {e : ε} :
    x >>= f = .error e ↔ x = .error e ∨ ∃ a, x = .ok a ∧ f a = .error e := by
  cases x with
  | error e' | ok a => simp [bind, Except.bind]

@[simp] theorem exists_unit_eq_ok {x : Except ε Unit} : (∃ u, x = .ok u) ↔ x = .ok () :=
  ⟨fun ⟨_, h⟩ => h, fun h => ⟨_, h⟩⟩

/-- A check and what follows it. -/
theorem check_bind_eq_ok {x : Except ε Unit} {f : Unit → Except ε β} {b : β} :
    x >>= f = .ok b ↔ x = .ok () ∧ f () = .ok b := by
  rw [bind_eq_ok]
  exact ⟨fun ⟨_, hx, hf⟩ => ⟨hx, hf⟩, fun ⟨hx, hf⟩ => ⟨(), hx, hf⟩⟩

theorem forM_eq_ok {f : α → Except ε Unit} : forM l f = .ok () ↔ ∀ a ∈ l, f a = .ok () := by
  induction l with
  | nil => simp [pure, Except.pure]
  | cons a rest ih => simp [List.forM_cons, ih]

theorem mapM_ok_of_forall (h : ∀ a ∈ l, ∃ b, f a = .ok b) : ∃ bs, l.mapM f = .ok bs := by
  induction l with
  | nil => exact ⟨[], rfl⟩
  | cons a rest ih =>
    obtain ⟨b, hb⟩ := h a (by simp)
    obtain ⟨bs, hbs⟩ := ih fun x hx => h x (by simp [hx])
    exact ⟨b :: bs, by simp [List.mapM_cons, hb, hbs, bind, Except.bind, pure, Except.pure]⟩

/-- The results of a step over a list whose elements all have `P`. -/
theorem forall₂_of_mapM {P : α → Prop} {bs : List β} (hl : ∀ a ∈ l, P a) (h : l.mapM f = .ok bs) :
    List.Forall₂ (fun a b => P a ∧ f a = .ok b) l bs := by
  induction l generalizing bs with
  | nil =>
    obtain rfl := Except.ok.inj h
    exact .nil
  | cons a rest ih =>
    rw [List.mapM_cons] at h
    obtain ⟨b, hb, hrest⟩ := bind_eq_ok.mp h
    obtain ⟨bs', hbs', hcons⟩ := bind_eq_ok.mp hrest
    obtain rfl := Except.ok.inj hcons
    exact .cons ⟨hl a (by simp), hb⟩ (ih (fun x hx => hl x (by simp [hx])) hbs')

theorem mapM_eq_map {f' : α → β} (h : ∀ a ∈ l, f a = .ok (f' a)) : l.mapM f = .ok (l.map f') := by
  induction l with
  | nil => rfl
  | cons a rest ih =>
    rw [List.mapM_cons, h a (by simp), ih fun x hx => h x (by simp [hx])]
    rfl

end Lib
