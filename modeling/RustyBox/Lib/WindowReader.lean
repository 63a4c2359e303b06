-- SUMMARY: Readers of a window of bytes, and those that depend only on what they consume.
import Mathlib.Data.List.Basic

/-!
# Readers of a window

A reader walks over a window of items from a position on and returns a value and the
position it stopped at, or an error. A stable reader depends on nothing behind that
position: more items do not change its value, nor does cutting the window there. Nor do
they change an error, unless the error says that the window was too short.

`next` is the one reader that consumes. `peek` looks at the next item without consuming it
and is not stable; a program that goes on to read what it looked at is (`Stable.peek_bind`).
-/

namespace Lib

def WindowReader (β ε α : Type) : Type := List β → Nat → Except ε (α × Nat)

namespace WindowReader

variable {β ε α γ : Type}

instance : Monad (WindowReader β ε) where
  pure a := fun _ pos => .ok (a, pos)
  bind x f := fun w pos =>
    match x w pos with
    | .ok (a, pos') => f a w pos'
    | .error e => .error e

def fail (e : ε) : WindowReader β ε α := fun _ _ => .error e

def ofExcept : Except ε α → WindowReader β ε α
  | .ok a => pure a
  | .error e => fail e

/-- The next item; `e` at the end of the window. -/
def next (e : ε) : WindowReader β ε β := fun w pos =>
  match w[pos]? with
  | some b => .ok (b, pos + 1)
  | none => .error e

def peek : WindowReader β ε (Option β) := fun w pos => .ok (w[pos]?, pos)

def position : WindowReader β ε Nat := fun _ pos => .ok (pos, pos)

variable {f : α → WindowReader β ε γ} {w : List β}

theorem bind_eq_ok {x : WindowReader β ε α} {pos pos' : Nat} {c : γ} :
    (x >>= f) w pos = .ok (c, pos') ↔
      ∃ a mid, x w pos = .ok (a, mid) ∧ f a w mid = .ok (c, pos') := by
  show (match x w pos with | .ok (a, mid) => f a w mid | .error e => .error e) = _ ↔ _
  cases x w pos with
  | error e => simp
  | ok r =>
    obtain ⟨a, mid⟩ := r
    simp [and_assoc]

theorem bind_eq_error {x : WindowReader β ε α} {pos : Nat} {e : ε} :
    (x >>= f) w pos = .error e ↔
      x w pos = .error e ∨ ∃ a mid, x w pos = .ok (a, mid) ∧ f a w mid = .error e := by
  show (match x w pos with | .ok (a, mid) => f a w mid | .error e => .error e) = _ ↔ _
  cases x w pos with
  | error e => simp
  | ok r =>
    obtain ⟨a, mid⟩ := r
    simp [and_assoc]

theorem bind_assoc {δ : Type} (x : WindowReader β ε α) (f : α → WindowReader β ε γ)
    (g : γ → WindowReader β ε δ) : x >>= f >>= g = x >>= fun a => f a >>= g := by
  funext w pos
  show (match (match x w pos with | .ok (a, mid) => f a w mid | .error e => .error e) with
      | .ok (c, mid) => g c w mid | .error e => .error e) =
    (match x w pos with
      | .ok (a, mid) => (match f a w mid with | .ok (c, mid) => g c w mid | .error e => .error e)
      | .error e => .error e)
  cases x w pos <;> rfl

theorem pure_bind (a : α) (f : α → WindowReader β ε γ) : pure a >>= f = f a := rfl

/-! ## Stability -/

/-- `short` are the errors of a window that ended too early. -/
structure Stable (short : ε → Prop) (x : WindowReader β ε α) : Prop where
  ok : ∀ {w : List β} {pos pos' : Nat} {a : α}, pos ≤ w.length → x w pos = .ok (a, pos') →
    pos ≤ pos' ∧ pos' ≤ w.length ∧ ∀ w', w'.take pos' = w.take pos' → x w' pos = .ok (a, pos')
  error : ∀ {w : List β} {pos : Nat} {e : ε}, pos ≤ w.length → x w pos = .error e →
    ¬ short e → ∀ more, x (w ++ more) pos = .error e

/-- Success moves the position. -/
def Consumes (x : WindowReader β ε α) : Prop :=
  ∀ ⦃w : List β⦄ ⦃pos pos' : Nat⦄ ⦃a : α⦄, pos ≤ w.length → x w pos = .ok (a, pos') → pos < pos'

variable {short : ε → Prop} {x : WindowReader β ε α}

namespace Stable

theorem pure (a : α) : Stable short (Pure.pure a : WindowReader β ε α) where
  ok hpos h := by
    cases h
    exact ⟨Nat.le_refl _, hpos, fun _ _ => rfl⟩
  error _ h := nomatch h

theorem fail (e : ε) : Stable short (WindowReader.fail e : WindowReader β ε α) where
  ok _ h := nomatch h
  error _ h := by
    cases h
    exact fun _ _ => rfl

theorem ofExcept (r : Except ε α) : Stable short (WindowReader.ofExcept r : WindowReader β ε α) := by
  cases r with
  | ok a => exact .pure a
  | error e => exact .fail e

theorem position : Stable short (WindowReader.position : WindowReader β ε Nat) where
  ok hpos h := by
    cases h
    exact ⟨Nat.le_refl _, hpos, fun _ _ => rfl⟩
  error _ h := nomatch h

theorem next {e : ε} (he : short e) : Stable short (WindowReader.next e : WindowReader β ε β) where
  ok {w pos pos' a} _ h := by
    unfold WindowReader.next at h
    split at h
    next b hb =>
      cases h
      have hlt : pos < w.length := (List.getElem?_eq_some_iff.mp hb).1
      refine ⟨Nat.le_succ pos, hlt, fun w' hw' => ?_⟩
      have hb' : w'[pos]? = some a := by
        have := congrArg (fun l : List β => l[pos]?) hw'
        simpa [hb] using this
      unfold WindowReader.next
      rw [hb']
    next => exact nomatch h
  error _ h hshort := by
    unfold WindowReader.next at h
    split at h
    · exact nomatch h
    · cases h
      exact absurd he hshort

theorem bind {f : α → WindowReader β ε γ} (hx : Stable short x) (hf : ∀ a, Stable short (f a)) :
    Stable short (x >>= f) where
  ok {w pos pos' c} hpos h := by
    obtain ⟨a, mid, hxw, hfw⟩ := bind_eq_ok.mp h
    obtain ⟨hle, hmid, hx'⟩ := hx.ok hpos hxw
    obtain ⟨hle', hlen, hf'⟩ := (hf a).ok hmid hfw
    refine ⟨Nat.le_trans hle hle', hlen, fun w' hw' => bind_eq_ok.mpr ⟨a, mid, hx' w' ?_, hf' w' hw'⟩⟩
    have := congrArg (List.take mid) hw'
    simpa [List.take_take, hle'] using this
  error {w pos e} hpos h hshort more := by
    refine bind_eq_error.mpr ?_
    rcases bind_eq_error.mp h with hxw | ⟨a, mid, hxw, hfw⟩
    · exact .inl (hx.error hpos hxw hshort more)
    · obtain ⟨_, hmid, hx'⟩ := hx.ok hpos hxw
      exact .inr ⟨a, mid, hx' _ (List.take_append_of_le_length hmid),
        (hf a).error hmid hfw hshort more⟩

theorem ite {c : Prop} [Decidable c] {y : WindowReader β ε α} (hx : c → Stable short x)
    (hy : ¬ c → Stable short y) : Stable short (if c then x else y) := by
  split
  next h => exact hx h
  next h => exact hy h

/-- A look ahead is harmless if what follows reads the item looked at, and runs out of items
where there was none. -/
theorem peek_bind {f : Option β → WindowReader β ε α}
    (hsome : ∀ b, Stable short (f (some b))) (hconsumes : ∀ b, Consumes (f (some b)))
    (hnone : ∀ w pos, w[pos]? = none → ∃ e, short e ∧ f none w pos = .error e) :
    Stable short (peek >>= f) where
  ok {w pos pos' a} hpos h := by
    have h : f w[pos]? w pos = .ok (a, pos') := h
    cases hb : w[pos]? with
    | none =>
      obtain ⟨e, _, he⟩ := hnone w pos hb
      rw [hb, he] at h
      exact nomatch h
    | some b =>
      rw [hb] at h
      obtain ⟨hle, hlen, hf'⟩ := (hsome b).ok hpos h
      have hlt := hconsumes b hpos h
      refine ⟨hle, hlen, fun w' hw' => ?_⟩
      have hb' : w'[pos]? = some b := by
        have := congrArg (fun l : List β => l[pos]?) hw'
        simpa [hlt, hb] using this
      show f w'[pos]? w' pos = _
      rw [hb']
      exact hf' w' hw'
  error {w pos e} hpos h hshort more := by
    have h : f w[pos]? w pos = .error e := h
    cases hb : w[pos]? with
    | none =>
      obtain ⟨e', hshort', he⟩ := hnone w pos hb
      rw [hb, he] at h
      cases h
      exact absurd hshort' hshort
    | some b =>
      have hlt : pos < w.length := (List.getElem?_eq_some_iff.mp hb).1
      have hb' : (w ++ more)[pos]? = some b := by rw [List.getElem?_append_left hlt, hb]
      rw [hb] at h
      show f (w ++ more)[pos]? (w ++ more) pos = _
      rw [hb']
      exact (hsome b).error hpos h hshort more

end Stable

theorem Consumes.next_bind {e : ε} {f : β → WindowReader β ε α} (he : short e)
    (hf : ∀ b, Stable short (f b)) : Consumes (next e >>= f) := by
  intro w pos pos' a hpos h
  obtain ⟨b, mid, hnext, hrest⟩ := bind_eq_ok.mp h
  have hlen := ((Stable.next he).ok hpos hnext).2.1
  have hmid : mid = pos + 1 := by
    unfold next at hnext
    split at hnext
    · cases hnext
      rfl
    · exact nomatch hnext
  have := ((hf b).ok hlen hrest).1
  omega

theorem Consumes.fail (e : ε) : Consumes (WindowReader.fail e : WindowReader β ε α) :=
  fun _ _ _ _ _ h => nomatch h

theorem Consumes.ite {c : Prop} [Decidable c] {y : WindowReader β ε α} (hx : Consumes x)
    (hy : Consumes y) : Consumes (if c then x else y) := by
  split
  · exact hx
  · exact hy

theorem Consumes.bind (hc : Consumes x) (hx : Stable short x)
    (hf : ∀ a, Stable short (f a)) : Consumes (x >>= f) := by
  intro w pos pos' a hpos h
  obtain ⟨b, mid, hxw, hfw⟩ := bind_eq_ok.mp h
  have hmid := (hx.ok hpos hxw).2.1
  exact Nat.lt_of_lt_of_le (hc hpos hxw) ((hf b).ok hmid hfw).1

theorem next_bind_at_end {e : ε} {f : β → WindowReader β ε α} {pos : Nat}
    (h : w[pos]? = none) : (next e >>= f) w pos = .error e := by
  refine bind_eq_error.mpr (.inl ?_)
  unfold next
  rw [h]

end WindowReader

end Lib
