-- SUMMARY: Machine-word sums and differences that fail when they leave their type.
import Mathlib.Algebra.Group.Nat.Defs
import Mathlib.Tactic.Common

/-!
# Checked word arithmetic

`+` and `-` on machine words as a build with overflow checks evaluates them: `none` where
the exact result does not fit. A checked operation that succeeds agrees with the wrapping
one.
-/

namespace Lib

variable {w : Nat}

def checkedAdd (a b : BitVec w) : Option (BitVec w) :=
  if a.toNat + b.toNat < 2 ^ w then some (a + b) else none

def checkedSub (a b : BitVec w) : Option (BitVec w) :=
  if b.toNat ≤ a.toNat then some (a - b) else none

theorem checkedAdd_eq_some {a b c : BitVec w} :
    checkedAdd a b = some c ↔ c.toNat = a.toNat + b.toNat := by
  unfold checkedAdd
  split
  case isTrue h =>
    rw [Option.some.injEq, ← BitVec.toNat_inj, BitVec.toNat_add, Nat.mod_eq_of_lt h]
    exact eq_comm
  case isFalse h =>
    refine iff_of_false nofun fun hc => h ?_
    rw [← hc]
    exact c.isLt

theorem checkedAdd_eq_none {a b : BitVec w} :
    checkedAdd a b = none ↔ 2 ^ w ≤ a.toNat + b.toNat := by
  unfold checkedAdd
  split <;> simp <;> omega

/-! ## Code that sums and may end early -/

/-- A step of straight-line code: a plain sum or difference, or an access or a test after
which the code may end. -/
inductive CheckedStep
  | add (w : Nat) (a b : BitVec w)
  | sub (w : Nat) (a b : BitVec w)
  | mayEnd

namespace CheckedStep

/-- The exact result fits. -/
def InRange : CheckedStep → Prop
  | add w a b => a.toNat + b.toNat < 2 ^ w
  | sub _ a b => b.toNat ≤ a.toNat
  | mayEnd => True

@[simp]
theorem inRange_add {a b : BitVec w} : (add w a b).InRange ↔ a.toNat + b.toNat < 2 ^ w := Iff.rfl

@[simp]
theorem inRange_sub {a b : BitVec w} : (sub w a b).InRange ↔ b.toNat ≤ a.toNat := Iff.rfl

@[simp]
theorem inRange_mayEnd : mayEnd.InRange := trivial

/-- The step panics. -/
def overflows : CheckedStep → Bool
  | add _ a b => (checkedAdd a b).isNone
  | sub _ a b => (checkedSub a b).isNone
  | mayEnd => false

theorem overflows_eq_false {s : CheckedStep} : s.overflows = false ↔ s.InRange := by
  cases s with
  | add w a b => simp [overflows, checkedAdd]
  | sub w a b => simp [overflows, checkedSub]
  | mayEnd => simp [overflows]

end CheckedStep

/-- Whether code panics, when `goesOn` says at which of its accesses and tests it goes on;
it goes on at those the list does not reach. -/
def panics : List CheckedStep → (goesOn : List Bool) → Bool
  | [], _ => false
  | .mayEnd :: _, false :: _ => false
  | .mayEnd :: steps, true :: goesOn => panics steps goesOn
  | s :: steps, goesOn => s.overflows || panics steps goesOn

theorem panics_cons_of_ne {s : CheckedStep} (hs : s ≠ .mayEnd) (steps : List CheckedStep)
    (goesOn : List Bool) : panics (s :: steps) goesOn = (s.overflows || panics steps goesOn) := by
  cases s with
  | add w a b | sub w a b => rw [panics]; all_goals exact nofun
  | mayEnd => exact absurd rfl hs

/-- Code whose sums and differences all fit does not panic, wherever it ends. -/
theorem not_panics_of_inRange {steps : List CheckedStep} (h : ∀ s ∈ steps, s.InRange)
    (goesOn : List Bool) : panics steps goesOn = false := by
  induction steps generalizing goesOn with
  | nil => rfl
  | cons s steps ih =>
    rw [List.forall_mem_cons] at h
    by_cases hs : s = .mayEnd
    · subst hs
      rcases goesOn with _ | ⟨_ | _, goesOn⟩
      · exact ih h.2 []
      · rfl
      · exact ih h.2 goesOn
    · rw [panics_cons_of_ne hs, CheckedStep.overflows_eq_false.mpr h.1]
      exact ih h.2 goesOn

/-- Code is free of panics, wherever it ends, exactly when its sums and differences fit. -/
theorem forall_not_panics_iff {steps : List CheckedStep} :
    (∀ goesOn, panics steps goesOn = false) ↔ ∀ s ∈ steps, s.InRange := by
  refine ⟨fun h => ?_, not_panics_of_inRange⟩
  -- the run that goes on everywhere evaluates every step
  have hrun := h []
  clear h
  induction steps with
  | nil => exact nofun
  | cons s steps ih =>
    rw [List.forall_mem_cons]
    by_cases hs : s = .mayEnd
    · subst hs
      exact ⟨trivial, ih hrun⟩
    · rw [panics_cons_of_ne hs, Bool.or_eq_false_iff] at hrun
      exact ⟨CheckedStep.overflows_eq_false.mp hrun.1, ih hrun.2⟩

end Lib
