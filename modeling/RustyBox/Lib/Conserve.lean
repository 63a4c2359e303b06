-- SUMMARY: Machines that pass a sequence on: what is taken in comes out in order, and in time.
import RustyBox.Lib.Reachability

/-!
# Conservation

A machine holds a sequence, takes elements in at its end and gives elements out at its front. If
that balances in each step it balances over a run: what is given out is what was held and taken in,
in order, less what is still held.
-/

namespace Lib

open List

section

variable {σ α β : Type*} {next : σ → α → σ}

/-- What the steps of a run yield, in order. -/
def collect (next : σ → α → σ) (yields : σ → α → List β) : σ → List α → List β
  | _, [] => []
  | s, a :: as => yields s a ++ collect next yields (next s a) as

theorem collect_sublist {f g : σ → α → List β} (h : ∀ s a, (f s a).Sublist (g s a)) (s : σ)
    (as : List α) : (collect next f s as).Sublist (collect next g s as) := by
  induction as generalizing s with
  | nil => exact List.Sublist.refl _
  | cons a as ih => exact (h s a).append (ih (next s a))

theorem collect_append (yields : σ → α → List β) (s : σ) (as bs : List α) :
    collect next yields s (as ++ bs) =
      collect next yields s as ++ collect next yields (as.foldl next s) bs := by
  induction as generalizing s with
  | nil => rfl
  | cons a as ih => simp [collect, ih]

theorem stepsMeet_append {ok : σ → α → Prop} {s : σ} {as bs : List α} :
    StepsMeet next ok s (as ++ bs) ↔
      StepsMeet next ok s as ∧ StepsMeet next ok (as.foldl next s) bs := by
  induction as generalizing s with
  | nil => simp [StepsMeet]
  | cons a as ih => simp [StepsMeet, ih, and_assoc]

/-- The balance of one step, and the invariant it is taken under. -/
structure Conserves (next : σ → α → σ) (I : σ → Prop) (ok : σ → α → Prop)
    (held : σ → List β) (takes gives : σ → α → List β) : Prop where
  inv : ∀ s a, I s → ok s a → I (next s a)
  balance : ∀ s a, I s → ok s a → held s ++ takes s a = gives s a ++ held (next s a)

namespace Conserves

variable {I : σ → Prop} {ok : σ → α → Prop} {held : σ → List β} {takes gives : σ → α → List β}
  {s : σ} {as : List α}

variable (h : Conserves next I ok held takes gives)
include h

theorem inv_foldl (hs : I s) (hok : StepsMeet next ok s as) : I (as.foldl next s) := by
  induction as generalizing s with
  | nil => exact hs
  | cons a as ih => exact ih (h.inv s a hs hok.1) hok.2

theorem run (hs : I s) (hok : StepsMeet next ok s as) :
    held s ++ collect next takes s as = collect next gives s as ++ held (as.foldl next s) := by
  induction as generalizing s with
  | nil => simp [collect]
  | cons a as ih =>
    have hrest := ih (h.inv s a hs hok.1) hok.2
    rw [collect, ← append_assoc, h.balance s a hs hok.1, append_assoc, hrest, collect, append_assoc]
    rfl

/-- If each tick gives out something while anything is held, then what is held comes out within as
many ticks. -/
theorem delivers {p : α → Bool}
    (htick : ∀ s a, I s → ok s a → p a → held s ≠ [] → gives s a ≠ []) (hs : I s)
    (hok : StepsMeet next ok s as) {front : List β} (hfront : front <+: held s)
    (hticks : front.length ≤ as.countP p) : front <+: collect next gives s as := by
  induction as generalizing s front with
  | nil =>
    rw [eq_nil_of_length_eq_zero (Nat.le_zero.mp hticks)]
    exact nil_prefix
  | cons a as ih =>
    have hbalance := h.balance s a hs hok.1
    have hin : front <+: gives s a ++ held (next s a) := hbalance ▸ hfront.trans (prefix_append _ _)
    -- what this step gives covers the front, or is a part of it
    obtain hcovered | ⟨rest, hrest⟩ :=
      prefix_or_prefix_of_prefix hin (prefix_append _ _)
    · exact hcovered.trans (prefix_append _ _)
    · subst hrest
      refine (prefix_append_right_inj _).mpr
        (ih (h.inv s a hs hok.1) hok.2 ((prefix_append_right_inj _).mp hin) ?_)
      rw [countP_cons, length_append] at hticks
      cases hgives : gives s a with
      | cons b bs =>
        rw [hgives, length_cons] at hticks
        split at hticks <;> omega
      | nil =>
        have hquiet : p a = true → rest = [] := by
          intro ha
          by_contra hne
          rw [hgives] at hfront
          refine htick s a hs hok.1 ha (fun hheld => ?_) hgives
          rw [hheld] at hfront
          exact hne (List.prefix_nil.mp hfront)
        split at hticks <;> grind

end Conserves

end

end Lib
