-- SUMMARY: A bounded event log with sequence numbers, read by watermark and cleared at will.
import Mathlib.Data.List.Basic

/-!
# Bounded logs

A log that keeps at most `cap` entries. Every entry gets a sequence number. A reader comes
with a watermark, the number of the first entry it has not seen, and either receives the
entries from there on or is told that some of them were dropped. `Records` relates the log
to the full history of what was pushed to it.
-/

namespace Lib

structure BoundedLog (α : Type*) (cap : Nat) where
  pending : List α
  seqNext : Nat
  /-- A watermark below this one has missed an entry that was dropped. -/
  overflowSeq : Nat
  pending_le_cap : pending.length ≤ cap
  pending_le_seqNext : pending.length ≤ seqNext

namespace BoundedLog

variable {α : Type*} {cap : Nat}

def empty : BoundedLog α cap where
  pending := []
  seqNext := 0
  overflowSeq := 0
  pending_le_cap := Nat.zero_le _
  pending_le_seqNext := Nat.le_refl _

/-- A full log drops the entry and remembers that it did. -/
def push (l : BoundedLog α cap) (x : α) : BoundedLog α cap :=
  if h : l.pending.length < cap then
    { pending := l.pending ++ [x]
      seqNext := l.seqNext + 1
      overflowSeq := l.overflowSeq
      pending_le_cap := by
        rw [List.length_append]
        exact h
      pending_le_seqNext := by simpa using l.pending_le_seqNext }
  else
    { l with
      seqNext := l.seqNext + 1
      overflowSeq := l.seqNext + 1
      pending_le_seqNext := Nat.le_succ_of_le l.pending_le_seqNext }

/-- What a watermark of `since` has not seen: whether something was dropped, and the
entries that are still there. -/
def unseen (l : BoundedLog α cap) (since : Nat) : Bool × List α :=
  (decide (since < l.overflowSeq), l.pending.drop (since - (l.seqNext - l.pending.length)))

/-- Forget the entries; the numbering goes on. -/
def clear (l : BoundedLog α cap) : BoundedLog α cap :=
  { l with
    pending := []
    pending_le_cap := Nat.zero_le _
    pending_le_seqNext := Nat.zero_le _ }

/-- The log after the pushes of `history`, last cleared when there were `cleared` of them:
either everything since then is still there, or the log is full and the last push was
dropped. -/
structure Records (l : BoundedLog α cap) (history : List α) (cleared : Nat) : Prop where
  seqNext_eq : l.seqNext = history.length
  cleared_le : cleared ≤ history.length
  kept_or_dropped :
    (l.pending = history.drop cleared ∧ l.overflowSeq ≤ cleared) ∨
      (l.pending.length = cap ∧ l.overflowSeq = history.length)

namespace Records

variable {l : BoundedLog α cap} {history : List α} {cleared : Nat}

theorem empty : Records (BoundedLog.empty : BoundedLog α cap) [] 0 where
  seqNext_eq := rfl
  cleared_le := Nat.le_refl _
  kept_or_dropped := .inl ⟨rfl, Nat.le_refl _⟩

variable (h : Records l history cleared)
include h

theorem push (x : α) : Records (l.push x) (history ++ [x]) cleared := by
  have hlen : (history ++ [x]).length = history.length + 1 := by simp
  have hseq : l.seqNext + 1 = (history ++ [x]).length := by rw [hlen, h.seqNext_eq]
  have hle : cleared ≤ (history ++ [x]).length := by
    rw [hlen]
    exact Nat.le_succ_of_le h.cleared_le
  unfold BoundedLog.push
  split
  next hroom =>
    refine ⟨hseq, hle, .inl ?_⟩
    rcases h.kept_or_dropped with ⟨hpending, hover⟩ | ⟨hfull, _⟩
    · refine ⟨?_, hover⟩
      rw [List.drop_append_of_le_length h.cleared_le, ← hpending]
    · exact absurd hfull (Nat.ne_of_lt hroom)
  next hfull =>
    exact ⟨hseq, hle, .inr ⟨Nat.le_antisymm l.pending_le_cap (Nat.le_of_not_lt hfull), hseq⟩⟩

theorem overflowSeq_le : l.overflowSeq ≤ history.length := by
  rcases h.kept_or_dropped with ⟨_, hover⟩ | ⟨_, hover⟩
  · exact Nat.le_trans hover h.cleared_le
  · exact Nat.le_of_eq hover

theorem clear : Records l.clear history history.length where
  seqNext_eq := h.seqNext_eq
  cleared_le := Nat.le_refl _
  kept_or_dropped := .inl ⟨List.drop_length.symm, h.overflowSeq_le⟩

/-- A watermark that was never left behind by a `clear` gets exactly the history from
there on, unless it is told that something was dropped. -/
theorem unseen {since : Nat} (hclear : cleared ≤ since) (hsince : since ≤ history.length) :
    (l.unseen since).1 = true ∨ l.unseen since = (false, history.drop since) := by
  rcases h.kept_or_dropped with ⟨hpending, hover⟩ | ⟨hfull, hover⟩
  · -- Nothing was dropped since the last `clear`, so the first entry kept has number `cleared`.
    refine .inr (Prod.ext (decide_eq_false (by omega)) ?_)
    have hbase : l.seqNext - l.pending.length = cleared := by
      rw [hpending, List.length_drop, h.seqNext_eq]
      omega
    show l.pending.drop (since - (l.seqNext - l.pending.length)) = history.drop since
    rw [hbase, hpending, List.drop_drop, Nat.add_sub_cancel' hclear]
  · rcases Nat.lt_or_eq_of_le hsince with hlt | heq
    · exact .inl (decide_eq_true (by omega))
    · -- The reader is up to date: there is nothing left to hand out.
      refine .inr (Prod.ext (decide_eq_false (by omega)) ?_)
      have hpast : l.pending.length ≤ since - (l.seqNext - l.pending.length) := by
        have := l.pending_le_seqNext
        have := h.seqNext_eq
        omega
      exact (List.drop_eq_nil_of_le hpast).trans (List.drop_eq_nil_of_le (Nat.le_of_eq heq.symm)).symm

/-- An empty log has nothing unseen by a watermark that was never left behind. -/
theorem cleared_of_pending_nil (hcap : 0 < cap)
    (hnil : l.pending = []) : cleared = history.length := by
  rcases h.kept_or_dropped with ⟨hpending, _⟩ | ⟨hfull, _⟩
  · rw [hnil] at hpending
    exact Nat.le_antisymm h.cleared_le (List.drop_eq_nil_iff.mp hpending.symm)
  · rw [hnil] at hfull
    exact absurd hfull (Nat.ne_of_lt hcap)

end Records

end BoundedLog

end Lib
