-- SUMMARY: Secrecy against a client that chooses each operation by the answers it has seen.
import Mathlib.Tactic.Common

/-!
# Secrecy

A `Dialogue` is a client that issues operations one after the other and chooses each by
the answers to those before it. Part of the state is secret. A dialogue is `Private` when
no choice of the secret part shows in its answers and none of its states has that part
changed: a statement about pairs of runs. `private_iff` reduces it to single operations,
provided each operation is either blind to the secret or gives it away.
-/

namespace Lib

inductive Dialogue (ι ω : Type)
  | done
  | ask (i : ι) (next : ω → Dialogue ι ω)

/-- What answers the operations. -/
structure Server (σ ι ω : Type) where
  exec : ι → σ → σ
  answer : ι → σ → ω

/-- The secret part of a state: how it is replaced and what it means to hold a value. -/
structure Secret (σ κ : Type) where
  fill : κ → σ → σ
  Shows : κ → σ → Prop
  shows_fill : ∀ k s, Shows k (fill k s)

namespace Server

variable {σ ι ω κ : Type} (srv : Server σ ι ω)

/-- The answers a client gets. -/
def answers : Dialogue ι ω → σ → List ω
  | .done, _ => []
  | .ask i next, s => srv.answer i s :: answers (next (srv.answer i s)) (srv.exec i s)

/-- The states after each operation. -/
def states : Dialogue ι ω → σ → List σ
  | .done, _ => []
  | .ask i next, s => srv.exec i s :: states (next (srv.answer i s)) (srv.exec i s)

/-- Every operation of the run satisfies `P` in the state it is issued in. -/
def Always (P : ι → σ → Prop) : Dialogue ι ω → σ → Prop
  | .done, _ => True
  | .ask i next, s => P i s ∧ Always P (next (srv.answer i s)) (srv.exec i s)

variable (sec : Secret σ κ)

/-- Whatever the secret is, the client sees the same and the secret stays as it was. -/
def Private (d : Dialogue ι ω) (s : σ) : Prop :=
  ∀ k, srv.answers d (sec.fill k s) = srv.answers d s ∧
    ∀ s' ∈ srv.states d (sec.fill k s), sec.Shows k s'

/-- An operation that neither reads nor writes the secret. -/
def Blind (i : ι) (s : σ) : Prop :=
  ∀ k, srv.exec i (sec.fill k s) = sec.fill k (srv.exec i s) ∧
    srv.answer i (sec.fill k s) = srv.answer i s

/-- An operation that answers differently for some secret, or overwrites it. -/
def Leaks (i : ι) (s : σ) : Prop :=
  ∃ k, srv.answer i (sec.fill k s) ≠ srv.answer i s ∨ ¬ sec.Shows k (srv.exec i (sec.fill k s))

variable {srv sec}

theorem not_private_of_leaks {i : ι} {next : ω → Dialogue ι ω} {s : σ}
    (h : srv.Leaks sec i s) : ¬ srv.Private sec (.ask i next) s := by
  intro hp
  obtain ⟨k, hans | hshow⟩ := h
  · exact hans (List.cons.inj (hp k).1).1
  · exact hshow ((hp k).2 _ List.mem_cons_self)

/-- After a blind operation what is left of the dialogue has to be private. -/
theorem private_ask {i : ι} {next : ω → Dialogue ι ω} {s : σ} (h : srv.Blind sec i s) :
    srv.Private sec (.ask i next) s ↔ srv.Private sec (next (srv.answer i s)) (srv.exec i s) := by
  have hstep (k : κ) : srv.answers (.ask i next) (sec.fill k s) =
      srv.answer i s :: srv.answers (next (srv.answer i s)) (sec.fill k (srv.exec i s)) := by
    rw [answers, (h k).1, (h k).2]
  have hstates (k : κ) : srv.states (.ask i next) (sec.fill k s) =
      sec.fill k (srv.exec i s) ::
        srv.states (next (srv.answer i s)) (sec.fill k (srv.exec i s)) := by
    rw [states, (h k).1, (h k).2]
  refine forall_congr' fun k => ?_
  rw [hstep, hstates, answers, List.cons.injEq, List.forall_mem_cons]
  exact ⟨fun hp => ⟨hp.1.2, hp.2.2⟩, fun hp => ⟨⟨rfl, hp.1⟩, sec.shows_fill k _, hp.2⟩⟩

/-- A dialogue is private exactly when it never issues an operation that gives the secret
away. -/
theorem private_iff {Inv : σ → Prop} {P : ι → σ → Prop}
    (hinv : ∀ i s, Inv s → Inv (srv.exec i s))
    (hblind : ∀ i s, Inv s → P i s → srv.Blind sec i s)
    (hleaks : ∀ i s, Inv s → ¬ P i s → srv.Leaks sec i s)
    (d : Dialogue ι ω) (s : σ) (hs : Inv s) : srv.Private sec d s ↔ srv.Always P d s := by
  induction d generalizing s with
  | done => simp [Private, Always, answers, states]
  | ask i next ih =>
    by_cases hp : P i s
    · rw [private_ask (hblind i s hs hp), ih _ _ (hinv i s hs)]
      exact ⟨fun h => ⟨hp, h⟩, fun h => h.2⟩
    · exact iff_of_false (not_private_of_leaks (hleaks i s hs hp)) fun h => hp h.1

end Server

end Lib
