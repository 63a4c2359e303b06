-- SUMMARY: The queue of fired owners: what recording a fire, or a list of them, does to it.
import RustyBox.PcSystem.Timer

/-!
# The fired queue

`record_fired_owner` counts fires per owner, not per timer: an owner has one entry
however many timers it has, its count saturates at `u32::MAX`, the null timer is
never recorded, and an owner that is not queued yet is dropped once the queue holds
`BX_MAX_TIMERS` entries. `foldl_record_count` and `foldl_record_absent` say this for
any sequence of fires.
-/

namespace RustyBox

open PcSystem List Prod

/-- The recorded count of an owner, zero when it is not queued. -/
def firedCount : List (TimerOwner × Nat) → TimerOwner → Nat
  | [], _ => 0
  | (o, c) :: rest, owner => if o = owner then c else firedCount rest owner

/-- The fired queue names each owner once, never the null timer, with a count that a
`u32` holds. -/
structure QueueOk (fired : List (TimerOwner × Nat)) : Prop where
  length_le : fired.length ≤ maxTimers
  nodup : (fired.map fst).Nodup
  not_null : .nullTimer ∉ fired.map fst
  count_pos : ∀ e ∈ fired, 1 ≤ e.2
  count_le : ∀ e ∈ fired, e.2 ≤ u32Max

theorem queueOk_nil : QueueOk [] := by
  constructor <;> simp

/-! ## Recording one fire -/

theorem bumpCount_map_fst (owner : TimerOwner) (q : List (TimerOwner × Nat)) :
    (bumpCount owner q).map fst = q.map fst := by
  induction q with
  | nil => rfl
  | cons e rest ih =>
    obtain ⟨o, c⟩ := e
    by_cases h : o = owner
    · simp [bumpCount, h]
    · simp [bumpCount, h, ih]

theorem mem_bumpCount {owner : TimerOwner} {q : List (TimerOwner × Nat)} {e : TimerOwner × Nat}
    (h : e ∈ bumpCount owner q) : e ∈ q ∨ ∃ c, (owner, c) ∈ q ∧ e = (owner, min (c + 1) u32Max) := by
  induction q with
  | nil => exact absurd h (by simp [bumpCount])
  | cons e' rest ih =>
    obtain ⟨o, c⟩ := e'
    by_cases ho : o = owner
    · subst ho
      simp only [bumpCount, ↓reduceIte, mem_cons] at h
      rcases h with rfl | h
      · exact .inr ⟨c, by simp, rfl⟩
      · exact .inl (by simp [h])
    · simp only [bumpCount, ho, ↓reduceIte, mem_cons] at h
      rcases h with rfl | h
      · exact .inl (by simp)
      · rcases ih h with h | ⟨c', hc', rfl⟩
        · exact .inl (by simp [h])
        · exact .inr ⟨c', by simp [hc'], rfl⟩

theorem QueueOk.recordFiredOwner {q : List (TimerOwner × Nat)} (h : QueueOk q)
    (owner : TimerOwner) : QueueOk (recordFiredOwner q owner) := by
  have hu : 1 ≤ u32Max := by decide
  unfold PcSystem.recordFiredOwner
  split_ifs with hnull hmem hroom
  · exact h
  · have hfst := bumpCount_map_fst owner q
    refine ⟨?_, by rw [hfst]; exact h.nodup, by rw [hfst]; exact h.not_null, ?_, ?_⟩
    · have := congrArg length hfst
      simp only [length_map] at this
      exact this.trans_le h.length_le
    · intro e he
      rcases mem_bumpCount he with he | ⟨c, -, rfl⟩
      · exact h.count_pos e he
      · exact le_min (Nat.le_add_left _ _) hu
    · intro e he
      rcases mem_bumpCount he with he | ⟨c, -, rfl⟩
      · exact h.count_le e he
      · exact min_le_right _ _
  · refine ⟨?_, ?_, ?_, ?_, ?_⟩
    · rw [length_append]
      exact hroom
    · simp only [map_append, map_cons, map_nil]
      exact List.nodup_append.mpr ⟨h.nodup, by simp, fun a ha b hb => by
        rintro rfl
        exact hmem (by simpa [List.mem_singleton.mp hb] using ha)⟩
    · simpa [not_or, eq_comm] using ⟨by simpa using h.not_null, hnull⟩
    · simpa [or_imp, forall_and] using fun o c he => h.count_pos (o, c) he
    · simpa [or_imp, forall_and] using ⟨fun o c he => h.count_le (o, c) he, hu⟩
  · exact h

/-! ## Counts -/

variable {q : List (TimerOwner × Nat)} {o o' : TimerOwner}

theorem firedCount_of_not_mem (h : o ∉ q.map fst) : firedCount q o = 0 := by
  induction q with
  | nil => rfl
  | cons e rest ih =>
    simp only [map_cons, mem_cons, not_or] at h
    simp [firedCount, Ne.symm h.1, ih h.2]

theorem firedCount_bumpCount_self (h : o ∈ q.map fst) :
    firedCount (bumpCount o q) o = min (firedCount q o + 1) u32Max := by
  induction q with
  | nil => simp at h
  | cons e rest ih =>
    obtain ⟨a, c⟩ := e
    by_cases ha : a = o
    · simp [bumpCount, firedCount, ha]
    · have hrest : o ∈ rest.map fst := by
        simpa [Ne.symm ha] using h
      simp [bumpCount, firedCount, ha, ih hrest]

theorem firedCount_bumpCount_of_ne (h : o' ≠ o) :
    firedCount (bumpCount o q) o' = firedCount q o' := by
  induction q with
  | nil => rfl
  | cons e rest ih =>
    obtain ⟨a, c⟩ := e
    by_cases ha : a = o
    · simp [bumpCount, firedCount, ha, Ne.symm h]
    · simp [bumpCount, firedCount, ha, ih]

theorem firedCount_append (h : o ∉ q.map fst) :
    firedCount (q ++ [(o, 1)]) o' = if o' = o then 1 else firedCount q o' := by
  induction q with
  | nil => simp [firedCount, eq_comm]
  | cons e rest ih =>
    obtain ⟨a, c⟩ := e
    simp only [map_cons, mem_cons, not_or] at h
    by_cases ha : a = o'
    · simp [firedCount, ha, ha ▸ Ne.symm h.1]
    · simp [firedCount, ha, ih h.2]

theorem firedCount_record_of_ne (h : o' ≠ o) :
    firedCount (recordFiredOwner q o) o' = firedCount q o' := by
  unfold recordFiredOwner
  split_ifs with hnull hmem hroom
  · rfl
  · exact firedCount_bumpCount_of_ne h
  · rw [firedCount_append hmem, if_neg h]
  · rfl

theorem mem_record (h : o' ∈ q.map fst) (o : TimerOwner) :
    o' ∈ (recordFiredOwner q o).map fst := by
  unfold recordFiredOwner
  split_ifs
  · exact h
  · rwa [bumpCount_map_fst]
  · simpa using .inl (by simpa using h)
  · exact h

theorem length_le_record (q : List (TimerOwner × Nat)) (o : TimerOwner) :
    q.length ≤ (recordFiredOwner q o).length := by
  unfold recordFiredOwner
  split_ifs
  · exact le_rfl
  · have := congrArg length (bumpCount_map_fst o q)
    simp only [length_map] at this
    exact this.ge
  · simp
  · exact le_rfl

/-- A full queue takes no new owner. -/
theorem not_mem_record_full (hfull : maxTimers ≤ q.length) (h : o' ∉ q.map fst)
    (o : TimerOwner) : o' ∉ (recordFiredOwner q o).map fst := by
  unfold recordFiredOwner
  split_ifs
  · exact h
  · rwa [bumpCount_map_fst]
  · omega
  · exact h

/-! ## Recording a list of fires -/

variable {owners : List TimerOwner}

theorem mem_foldl_record (h : o ∈ q.map fst) (owners : List TimerOwner) :
    o ∈ (owners.foldl recordFiredOwner q).map fst := by
  induction owners generalizing q with
  | nil => exact h
  | cons a rest ih => exact ih (mem_record h a)

theorem length_le_foldl_record (q : List (TimerOwner × Nat)) (owners : List TimerOwner) :
    q.length ≤ (owners.foldl recordFiredOwner q).length := by
  induction owners generalizing q with
  | nil => exact le_rfl
  | cons a rest ih => exact (length_le_record q a).trans (ih _)

theorem not_mem_foldl_record_full (hfull : maxTimers ≤ q.length) (h : o ∉ q.map fst)
    (owners : List TimerOwner) : o ∉ (owners.foldl recordFiredOwner q).map fst := by
  induction owners generalizing q with
  | nil => exact h
  | cons a rest ih =>
    exact ih (hfull.trans (length_le_record q a)) (not_mem_record_full hfull h a)

/-- Only recorded owners enter the queue. -/
theorem mem_of_mem_foldl_record (h : o ∈ (owners.foldl recordFiredOwner q).map fst) :
    o ∈ q.map fst ∨ o ∈ owners := by
  induction owners generalizing q with
  | nil => exact .inl h
  | cons a rest ih =>
    rcases ih h with hm | hm
    · by_cases ho : o = a
      · exact .inr (by simp [ho])
      · left
        unfold recordFiredOwner at hm
        split_ifs at hm
        · exact hm
        · rwa [bumpCount_map_fst] at hm
        · simpa [ho] using hm
        · exact hm
    · exact .inr (by simp [hm])

/-- An owner queued in the end has every one of its fires counted, up to saturation. -/
theorem foldl_record_count (hnull : o ≠ .nullTimer)
    (hmem : o ∈ (owners.foldl recordFiredOwner q).map fst) (hle : firedCount q o ≤ u32Max) :
    firedCount (owners.foldl recordFiredOwner q) o =
      min (firedCount q o + owners.count o) u32Max := by
  induction owners generalizing q with
  | nil => simp [hle]
  | cons a rest ih =>
    simp only [foldl_cons] at hmem ⊢
    by_cases ha : a = o
    · subst ha
      -- the fire is one of `a`: bumped, appended, or dropped for lack of room
      have hstep : firedCount (recordFiredOwner q a) a = min (firedCount q a + 1) u32Max := by
        have hone : min 1 u32Max = 1 := by decide
        by_cases hq : a ∈ q.map fst
        · simp [recordFiredOwner, hnull, hq, firedCount_bumpCount_self hq]
        · by_cases hroom : q.length < maxTimers
          · simp [recordFiredOwner, hnull, hq, hroom, firedCount_append hq,
              firedCount_of_not_mem hq, hone]
          · have hfull := Nat.le_of_not_lt hroom
            exact absurd hmem (not_mem_foldl_record_full (hfull.trans (length_le_record q a))
              (not_mem_record_full hfull hq a) rest)
      rw [ih hmem (hstep ▸ min_le_right _ _), count_cons_self]
      omega
    · rw [ih hmem (by rwa [firedCount_record_of_ne (Ne.symm ha)]),
        firedCount_record_of_ne (Ne.symm ha), count_cons_of_ne ha]

/-- An owner not queued in the end had no fire, or met a full queue. -/
theorem foldl_record_absent (hnull : o ≠ .nullTimer)
    (h : o ∉ (owners.foldl recordFiredOwner q).map fst) :
    owners.count o = 0 ∨ maxTimers ≤ (owners.foldl recordFiredOwner q).length := by
  induction owners generalizing q with
  | nil => exact .inl rfl
  | cons a rest ih =>
    simp only [foldl_cons] at h ⊢
    by_cases ha : a = o
    · subst ha
      by_contra hroom
      have hlen := length_le_foldl_record (recordFiredOwner q a) rest
      have hq : q.length < maxTimers := by
        have := length_le_record q a
        omega
      refine h (mem_foldl_record ?_ rest)
      by_cases hm : a ∈ q.map fst
      · exact mem_record hm a
      · simp [recordFiredOwner, hnull, hm, hq]
    · rw [count_cons_of_ne ha]
      exact ih h

end RustyBox
