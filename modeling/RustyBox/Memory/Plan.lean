-- SUMMARY: The guest-physical map stated as a whole: candidates, carve-outs, splitting, merging, validation.
import RustyBox.Lib.ExceptRules
import RustyBox.Memory.Routing
import Mathlib.Data.List.DropRight

/-!
# The memory plan

An engine that runs the guest on real hardware installs a list of windows instead of asking
for each address. `derive` builds the list from the routing state: it starts from candidate
windows within which the host offset is at a fixed distance from the address, cuts out what
devices answer for, and joins neighbours again. What is said here about the result is said
by counting: how many windows of a list cover an address is the same before and after
joining, and after cutting it is one or none.
-/

namespace RustyBox

open List

/-! ## Windows -/

structure GpaPerms where
  read : Bool
  write : Bool
  execute : Bool
  trackDirty : Bool
  deriving DecidableEq

namespace GpaPerms

def rwx : GpaPerms := ⟨true, true, true, false⟩
def rx : GpaPerms := ⟨true, false, true, false⟩

def servesAnything (p : GpaPerms) : Bool := p.read || p.write || p.execute

end GpaPerms

/-- `GUEST_PAGE`. -/
def guestPage : Nat := 0x1000

structure GpaWindow where
  gpa : Nat
  len : Nat
  host : Nat
  perms : GpaPerms
  deriving DecidableEq

namespace GpaWindow

variable (w : GpaWindow)

/-- `end`: nothing if the window runs off the end of the address space. -/
def endGpa : Option Nat := if w.gpa + w.len < 2 ^ 64 then some (w.gpa + w.len) else none

def isPageShaped : Bool :=
  w.len ≠ 0 ∧ w.gpa % guestPage = 0 ∧ w.len % guestPage = 0 ∧ w.host % guestPage = 0

def overlaps (other : GpaWindow) : Bool :=
  match w.endGpa, other.endGpa with
  | some mine, some theirs => w.gpa < theirs ∧ other.gpa < mine
  | _, _ => true

def covers (a : Nat) : Bool := w.gpa ≤ a ∧ a < w.gpa + w.len

/-- The host offset the window names for an address. -/
def named (a : Nat) : Nat := w.host + (a - w.gpa)

variable {w}

theorem covers_iff {a : Nat} : w.covers a = true ↔ w.gpa ≤ a ∧ a < w.gpa + w.len := by
  simp [covers]

theorem overlaps_of_covers {other : GpaWindow} {a : Nat} (h : w.covers a = true)
    (h' : other.covers a = true) : w.overlaps other = true := by
  rw [covers_iff] at h h'
  unfold overlaps endGpa
  by_cases hw : w.gpa + w.len < 2 ^ 64
  · by_cases ho : other.gpa + other.len < 2 ^ 64
    · rw [if_pos hw, if_pos ho]
      exact decide_eq_true (by omega)
    · rw [if_pos hw, if_neg ho]
  · rw [if_neg hw]

end GpaWindow

/-! ## `GpaPlan::new` -/

inductive GpaPlanError
  | notPageShaped (pos : Nat)
  | permitsNothing (pos : Nat)
  | overlap (first second : Nat)
  deriving DecidableEq

namespace GpaPlan

/-- The first loop of the validation, from position `pos`. -/
def checkShapes : Nat → List GpaWindow → Except GpaPlanError Unit
  | _, [] => .ok ()
  | pos, w :: ws =>
    if !w.isPageShaped then .error (.notPageShaped pos)
    else if !w.perms.servesAnything then .error (.permitsNothing pos)
    else checkShapes (pos + 1) ws

/-- The second loop: each window against all that follow it. -/
def checkOverlaps : Nat → List GpaWindow → Except GpaPlanError Unit
  | _, [] => .ok ()
  | first, w :: ws =>
    match ws.findIdx? (w.overlaps ·) with
    | some offset => .error (.overlap first (first + 1 + offset))
    | none => checkOverlaps (first + 1) ws

/-- `GpaPlan::new`. -/
def new (ws : List GpaWindow) : Except GpaPlanError Unit := do
  checkShapes 0 ws
  checkOverlaps 0 ws

variable {ws : List GpaWindow}

theorem shaped_of_checkShapes {pos : Nat}
    (h : checkShapes pos ws = .ok ()) : ∀ w ∈ ws, w.isPageShaped = true := by
  induction ws generalizing pos with
  | nil => simp
  | cons w ws ih =>
    unfold checkShapes at h
    split at h
    · cases h
    next hshape =>
      split at h
      · cases h
      · rintro w' (_ | ⟨_, hmem⟩)
        · simpa using hshape
        · exact ih h w' hmem

theorem apart_of_checkOverlaps {first : Nat} (h : checkOverlaps first ws = .ok ()) :
    ws.Pairwise fun w other => w.overlaps other = false := by
  induction ws generalizing first with
  | nil => exact .nil
  | cons w ws ih =>
    unfold checkOverlaps at h
    split at h
    · cases h
    next hnone =>
      refine .cons (fun other hmem => ?_) (ih h)
      simpa using List.findIdx?_eq_none_iff.mp hnone other hmem

theorem new_eq_ok (h : new ws = .ok ()) :
    (∀ w ∈ ws, w.isPageShaped = true) ∧ ws.Pairwise fun w other => w.overlaps other = false := by
  obtain ⟨_, hshapes, hoverlaps⟩ := Lib.bind_eq_ok.mp h
  exact ⟨shaped_of_checkShapes hshapes, apart_of_checkOverlaps hoverlaps⟩

/-- Windows that do not overlap cover an address at most once. -/
theorem countP_covers_le_one (a : Nat) (h : ws.Pairwise fun w other => w.overlaps other = false) :
    ws.countP (·.covers a) ≤ 1 := by
  induction h with
  | nil => simp
  | @cons w ws hw _ ih =>
    cases hcover : w.covers a with
    | false => rwa [countP_cons_of_neg (by simp [hcover])]
    | true =>
      have hrest : ws.countP (·.covers a) = 0 := by
        refine List.countP_eq_zero.mpr fun other hmem hother => ?_
        have := GpaWindow.overlaps_of_covers hcover hother
        rw [hw other hmem] at this
        cases this
      rw [countP_cons_of_pos (by simpa using hcover), hrest]

end GpaPlan

/-! ## Candidates and carve-outs -/

inductive MemoryPlanError
  | partiallyResident
  | tooManyWindows (needed : Nat)
  | notAPlan (e : GpaPlanError)
  deriving DecidableEq

/-- `MAX_PLAN_WINDOWS`. -/
def maxPlanWindows : Nat := 64

/-- `Candidate`: the addresses from `gpa` up to `top`, each at the host offset
`gpa.wrapping_add(delta)`. -/
structure Candidate where
  gpa : Nat
  top : Nat
  delta : Nat
  perms : GpaPerms
  deriving DecidableEq

namespace Candidate

variable (c : Candidate)

def hostOf (gpa : Nat) : Nat := (gpa + c.delta) % 2 ^ 64

def covers (a : Nat) : Bool := c.gpa ≤ a ∧ a < c.top

/-- The host offsets of the candidate do not wrap around. -/
def Affine : Prop := ∀ x k, c.gpa ≤ x → x + k < c.top → c.hostOf (x + k) = c.hostOf x + k

variable {c}

theorem covers_iff {a : Nat} : c.covers a = true ↔ c.gpa ≤ a ∧ a < c.top := by simp [covers]

end Candidate

/-- `window_of`. -/
def windowOf (gpa top : Nat) (c : Candidate) : GpaWindow where
  gpa := gpa
  len := top - gpa
  host := c.hostOf gpa
  perms := c.perms

namespace CarveOuts

/-- A range that `add` moves up to make room. -/
def startsAfter (start : Nat) (r : Nat × Nat) : Bool := start < r.1

/-- Room for a range behind those that start no later. -/
def insert (ranges : List (Nat × Nat)) (r : Nat × Nat) : List (Nat × Nat) :=
  ranges.rdropWhile (startsAfter r.1) ++ r :: ranges.rtakeWhile (startsAfter r.1)

/-- The range rounded outward to pages. -/
def pages (start top : Nat) : Nat × Nat :=
  (start / guestPage * guestPage,
    min (top + (guestPage - 1)) (2 ^ 64 - 1) / guestPage * guestPage)

/-- `CarveOuts::add`. -/
def add (ranges : List (Nat × Nat)) (start top : Nat) : List (Nat × Nat) :=
  if top ≤ start ∨ ranges.length = maxPlanWindows then ranges else insert ranges (pages start top)

/-- `CarveOuts::split` from a cursor on. -/
def splitFrom (c : Candidate) : List (Nat × Nat) → Nat → List GpaWindow
  | [], cursor => if cursor < c.top then [windowOf cursor c.top c] else []
  | (start, top) :: ranges, cursor =>
    if top ≤ cursor ∨ c.top ≤ start then splitFrom c ranges cursor
    else
      (if cursor < start then [windowOf cursor start c] else []) ++
        if c.top ≤ max cursor top then [] else splitFrom c ranges (max cursor top)

/-- `CarveOuts::split`. -/
def split (ranges : List (Nat × Nat)) (c : Candidate) : List GpaWindow :=
  splitFrom c ranges c.gpa

/-- Some range has the address. -/
def Carved (ranges : List (Nat × Nat)) (a : Nat) : Prop := ∃ r ∈ ranges, r.1 ≤ a ∧ a < r.2

instance (ranges : List (Nat × Nat)) (a : Nat) : Decidable (Carved ranges a) :=
  inferInstanceAs (Decidable (∃ r ∈ ranges, r.1 ≤ a ∧ a < r.2))

/-- In order of their starts, and none is empty below the addresses that no window can
reach. -/
structure Ordered (ranges : List (Nat × Nat)) : Prop where
  sorted : ranges.Pairwise fun r r' => r.1 ≤ r'.1
  proper : ∀ r ∈ ranges, r.1 < r.2 ∨ 3 * 2 ^ 62 ≤ r.1

@[simp] theorem not_carved_nil (a : Nat) : ¬ Carved [] a := by simp [Carved]

variable {ranges : List (Nat × Nat)} {r : Nat × Nat}

theorem carved_cons {a : Nat} : Carved (r :: ranges) a ↔ (r.1 ≤ a ∧ a < r.2) ∨ Carved ranges a := by
  simp [Carved]

theorem Ordered.nil : Ordered [] := ⟨.nil, by simp⟩

theorem Ordered.tail (h : Ordered (r :: ranges)) : Ordered ranges :=
  ⟨h.sorted.of_cons, fun r' hr' => h.proper r' (.tail _ hr')⟩

/-- Nothing is cut out below the first range. -/
theorem Ordered.not_carved (h : Ordered (r :: ranges)) {a : Nat}
    (ha : a < r.1) : ¬ Carved ranges a := by
  rintro ⟨r', hmem, hle, _⟩
  have := rel_of_pairwise_cons h.sorted hmem
  omega

/-! ### Adding a range -/

section Add

variable {ranges : List (Nat × Nat)} {r : Nat × Nat}

theorem perm_insert : (insert ranges r).Perm (r :: ranges) := by
  have hparts : ranges.rdropWhile (startsAfter r.1) ++ ranges.rtakeWhile (startsAfter r.1) = ranges :=
    rdropWhile_append_rtakeWhile
  have hmiddle : (insert ranges r).Perm
      (r :: (ranges.rdropWhile (startsAfter r.1) ++ ranges.rtakeWhile (startsAfter r.1))) :=
    perm_middle
  rwa [hparts] at hmiddle

theorem insert_concat (x : Nat × Nat) :
    insert (ranges ++ [x]) r =
      if r.1 < x.1 then insert ranges r ++ [x] else ranges ++ [x] ++ [r] := by
  unfold insert
  by_cases h : r.1 < x.1 <;> simp [startsAfter, h]

theorem sorted_insert (h : ranges.Pairwise fun r r' => r.1 ≤ r'.1) :
    (insert ranges r).Pairwise fun r r' => r.1 ≤ r'.1 := by
  induction ranges using reverseRecOn with
  | nil => exact pairwise_singleton _ _
  | append_singleton ranges x ih =>
    obtain ⟨hranges, _, hlast⟩ := List.pairwise_append.mp h
    have hx : ∀ y ∈ ranges, y.1 ≤ x.1 := fun y hy => hlast y hy x (mem_singleton_self x)
    rw [insert_concat]
    split
    next hlt =>
      refine List.pairwise_append.mpr ⟨ih hranges, pairwise_singleton _ _, ?_⟩
      intro y hy x' hx'
      rw [List.mem_singleton.mp hx']
      rcases List.mem_cons.mp (perm_insert.mem_iff.mp hy) with rfl | hy
      · exact Nat.le_of_lt hlt
      · exact hx y hy
    next hle =>
      refine List.pairwise_append.mpr ⟨h, pairwise_singleton _ _, ?_⟩
      intro y hy r' hr'
      rw [List.mem_singleton.mp hr']
      have hxr : x.1 ≤ r.1 := Nat.le_of_not_lt hle
      rcases List.mem_append.mp hy with hy | hy
      · exact Nat.le_trans (hx y hy) hxr
      · rw [List.mem_singleton.mp hy]
        exact hxr

theorem length_add_le (ranges : List (Nat × Nat)) (start top : Nat) :
    (add ranges start top).length ≤ ranges.length + 1 := by
  unfold add
  split
  · exact Nat.le_succ _
  · exact Nat.le_of_eq perm_insert.length_eq

theorem Ordered.add (h : Ordered ranges) (start top : Nat) : Ordered (add ranges start top) := by
  unfold CarveOuts.add
  split
  · exact h
  next hadd =>
    refine ⟨sorted_insert h.sorted, fun r hr => ?_⟩
    rcases List.mem_cons.mp (perm_insert.mem_iff.mp hr) with rfl | hr
    · unfold pages guestPage
      omega
    · exact h.proper r hr

theorem Carved.add {a : Nat} (h : Carved ranges a) (start top : Nat) :
    Carved (add ranges start top) a := by
  obtain ⟨r, hr, hcover⟩ := h
  unfold CarveOuts.add
  split
  · exact ⟨r, hr, hcover⟩
  · exact ⟨r, perm_insert.mem_iff.mpr (.tail _ hr), hcover⟩

/-- While there is room, what is added is cut out. -/
theorem carved_add (hroom : ranges.length < maxPlanWindows) {start top a : Nat}
    (hstart : start ≤ a) (htop : a < top) (ha : a < 3 * 2 ^ 62) : Carved (add ranges start top) a := by
  unfold CarveOuts.add
  rw [if_neg (by omega)]
  refine ⟨pages start top, perm_insert.mem_iff.mpr (.head _), ?_⟩
  unfold pages guestPage
  omega

end Add

/-! ### Splitting a candidate -/

section Split

variable {ranges : List (Nat × Nat)} {c : Candidate}

theorem covers_windowOf {gpa top a : Nat} :
    (windowOf gpa top c).covers a = true ↔ gpa ≤ a ∧ a < top := by
  rw [GpaWindow.covers_iff]
  show gpa ≤ a ∧ a < gpa + (top - gpa) ↔ _
  omega

/-- From the cursor on, the pieces of a candidate cover each address that is not cut out
once, and no other. -/
theorem countP_splitFrom (hord : Ordered ranges) (htop : c.top ≤ 3 * 2 ^ 62) (cursor a : Nat) :
    (splitFrom c ranges cursor).countP (·.covers a) =
      if cursor ≤ a ∧ a < c.top ∧ ¬ Carved ranges a then 1 else 0 := by
  induction ranges generalizing cursor with
  | nil =>
    unfold splitFrom
    by_cases h : cursor < c.top
    · simp [h, covers_windowOf]
    · have : ¬ (cursor ≤ a ∧ a < c.top) := by omega
      simp [h, this]
  | cons r ranges ih =>
    obtain ⟨start, top⟩ := r
    have hbelow : a < start → ¬ Carved ranges a := hord.not_carved
    have hproper : start < top ∨ 3 * 2 ^ 62 ≤ start := hord.proper _ (.head _)
    have hcons : Carved ((start, top) :: ranges) a ↔ (start ≤ a ∧ a < top) ∨ Carved ranges a :=
      carved_cons
    unfold splitFrom
    split
    next hskip =>
      rw [ih hord.tail]
      exact if_congr (by grind) rfl rfl
    next hcut =>
      have hrest : (if c.top ≤ max cursor top then []
          else splitFrom c ranges (max cursor top)).countP (·.covers a) =
            if max cursor top ≤ a ∧ a < c.top ∧ ¬ Carved ranges a then 1 else 0 := by
        split
        · rw [if_neg (by omega), countP_nil]
        · exact ih hord.tail _
      have hpiece : (if cursor < start then [windowOf cursor start c] else []).countP
          (·.covers a) = if cursor ≤ a ∧ a < start then 1 else 0 := by
        split
        · simp [covers_windowOf]
        · rw [if_neg (by omega), countP_nil]
      -- The address is below the range, in it, or beyond it.
      grind

theorem countP_split (hord : Ordered ranges) (htop : c.top ≤ 3 * 2 ^ 62) (a : Nat) :
    (split ranges c).countP (·.covers a) = if c.covers a ∧ ¬ Carved ranges a then 1 else 0 := by
  unfold split
  rw [countP_splitFrom hord htop]
  exact if_congr (by rw [Candidate.covers_iff, and_assoc]) rfl rfl

/-- Every piece is a stretch of the candidate. -/
theorem mem_splitFrom {cursor : Nat} {w : GpaWindow} (hcursor : c.gpa ≤ cursor)
    (h : w ∈ splitFrom c ranges cursor) :
    ∃ gpa top, w = windowOf gpa top c ∧ c.gpa ≤ gpa ∧ gpa < top ∧ top ≤ c.top := by
  induction ranges generalizing cursor with
  | nil =>
    unfold splitFrom at h
    split at h
    next hlt => exact ⟨cursor, c.top, List.mem_singleton.mp h, hcursor, hlt, Nat.le_refl _⟩
    · cases h
  | cons r ranges ih =>
    obtain ⟨start, top⟩ := r
    unfold splitFrom at h
    split at h
    · exact ih hcursor h
    next hcut =>
      rcases List.mem_append.mp h with h | h
      · split at h
        next hlt =>
          exact ⟨cursor, start, List.mem_singleton.mp h, hcursor, hlt, by omega⟩
        · cases h
      · split at h
        · cases h
        · exact ih (by omega) h

end Split

end CarveOuts

/-! ## Merging -/

namespace MemoryPlan

/-- Contiguous in guest-physical space and in the host allocation, with the same
permissions. -/
def joins (previous w : GpaWindow) : Bool :=
  previous.gpa + previous.len < 2 ^ 64 ∧ previous.gpa + previous.len = w.gpa ∧
    previous.host + previous.len < 2 ^ 64 ∧ previous.host + previous.len = w.host ∧
    previous.perms = w.perms

/-- One pass of the loop of `merge_adjacent`; the windows written so far are in reverse. -/
def mergeStep : List GpaWindow → GpaWindow → List GpaWindow
  | [], w => [w]
  | previous :: rest, w =>
    if joins previous w then { previous with len := previous.len + w.len } :: rest
    else w :: previous :: rest

/-- `merge_adjacent`. -/
def mergeAdjacent (ws : List GpaWindow) : List GpaWindow := (ws.foldl mergeStep []).reverse

section Merge

variable {ws written : List GpaWindow} {a : Nat}

theorem countP_mergeStep (w : GpaWindow) :
    (mergeStep written w).countP (·.covers a) = (w :: written).countP (·.covers a) := by
  unfold mergeStep
  split
  · rfl
  next previous rest =>
    split
    next hjoin =>
      have hjoin : previous.gpa + previous.len = w.gpa := by
        simp only [joins, decide_eq_true_eq] at hjoin
        exact hjoin.2.1
      simp only [countP_cons, GpaWindow.covers_iff]
      split_ifs <;> omega
    · rfl

theorem countP_foldl_mergeStep :
    (ws.foldl mergeStep written).countP (·.covers a) =
      ws.countP (·.covers a) + written.countP (·.covers a) := by
  induction ws generalizing written with
  | nil => simp
  | cons w ws ih =>
    rw [foldl_cons, ih, countP_mergeStep, countP_cons, countP_cons]
    omega

/-- Joining neighbours changes nothing about how often an address is covered. -/
theorem countP_mergeAdjacent : (mergeAdjacent ws).countP (·.covers a) = ws.countP (·.covers a) := by
  unfold mergeAdjacent
  rw [countP_reverse, countP_foldl_mergeStep, countP_nil, Nat.add_zero]

variable {P : GpaWindow → Prop}

variable
  (hjoin : ∀ previous w, joins previous w = true → P previous → P w →
    P { previous with len := previous.len + w.len })
include hjoin

theorem forall_mergeStep {w : GpaWindow} (hw : P w) (hwritten : ∀ v ∈ written, P v) :
    ∀ v ∈ mergeStep written w, P v := by
  unfold mergeStep
  split
  · simpa using hw
  next previous rest =>
    have hrest : ∀ v ∈ rest, P v := fun v hv => hwritten v (.tail _ hv)
    split
    next h =>
      rintro v (_ | ⟨_, hv⟩)
      · exact hjoin _ _ h (hwritten _ (.head _)) hw
      · exact hrest v hv
    · rintro v (_ | ⟨_, hv⟩)
      · exact hw
      · exact hwritten v hv

/-- What holds of each window, and of two windows joined, holds of each merged one. -/
theorem forall_mergeAdjacent (h : ∀ w ∈ ws, P w) : ∀ w ∈ mergeAdjacent ws, P w := by
  have hfold : ∀ (ws written : List GpaWindow), (∀ w ∈ ws, P w) → (∀ w ∈ written, P w) →
      ∀ w ∈ ws.foldl mergeStep written, P w := by
    intro ws
    induction ws with
    | nil => exact fun _ _ hwritten => hwritten
    | cons w ws ih =>
      intro written hws hwritten
      exact ih _ (fun v hv => hws v (.tail _ hv))
        (forall_mergeStep hjoin (hws w (.head _)) hwritten)
  intro w hw
  exact hfold ws [] h (by simp) w (List.mem_reverse.mp hw)

end Merge

end MemoryPlan

/-! ## The machine's memory -/

/-- `BIOSROMSZ + EXROMSIZE + 4096`: what follows resident RAM in the allocation. -/
def auxLen : Nat := biosRomSize + exRomSize + 4096

/-- The memory system as the plan reads it. RAM is at the start of one allocation, with the
ROM images behind it; the gate of address line 20 is open, as an engine does not mask
addresses. -/
structure HostMemory where
  board : Board
  residentLen : Nat
  identityMap : Bool
  resident : identityMap = true → board.guestLen ≤ residentLen
  /-- An allocation has at most `isize::MAX` bytes. -/
  alloc_lt : residentLen + auxLen < 2 ^ 63
  bios_lt : board.biosRomAddr < 2 ^ 32
  a20_open : board.host.a20Enabled = true

/-- `rom_image_offset`. -/
def romImageOffset (addr : Nat) : Nat :=
  if addr / 0x20000 = 7 then biosMapLast128k addr else addr % exRomSize + biosRomSize

/-- `ram_between`. -/
def ramBetween (gpa top delta : Nat) : Candidate := ⟨gpa, top, delta, .rwx⟩

/-- `ram_above_the_hole`. -/
def ramAboveTheHole (guestLen : Nat) : Option Candidate :=
  if guestLen ≤ pciHoleStart then none
  else some ⟨pciHoleEnd, pciHoleEnd + (guestLen - pciHoleStart), 2 ^ 64 - pciHoleSize, .rwx⟩

namespace HostMemory

variable (m : HostMemory)

def guestLen : Nat := m.board.guestLen
def allocLen : Nat := m.residentLen + auxLen

/-- `smram_is_open`. -/
def smramIsOpen : Bool := m.board.smramAvailable && m.board.smramEnable

/-- A candidate that shows the ROM image from an offset. -/
def romCandidate (gpa top offset : Nat) : Candidate :=
  ⟨gpa, top, (m.residentLen + offset + (2 ^ 64 - gpa)) % 2 ^ 64, .rx⟩

def pamAreaLen (base : Nat) : Nat := if 0xF0000 ≤ base then 0x10000 else 0x4000

/-- The pass of the loop of `plan_candidates` for one PAM area. -/
def pamCandidate (base : Nat) : Option Candidate :=
  let top := base + pamAreaLen base
  if m.board.pciEnabled ∧ m.board.memoryType (Board.shadowArea base) false then
    if top ≤ m.guestLen then
      some ⟨base, top, 0, if m.board.memoryType (Board.shadowArea base) true then .rwx else .rx⟩
    else none
  else some (m.romCandidate base top (romImageOffset base))

/-- The bases of the PAM areas: twelve of 16 KiB and one of 64 KiB. -/
def pamBases : List Nat := (range 13).map fun i => 0xC0000 + i * 0x4000

def lowRam : Candidate :=
  ramBetween 0 (min m.guestLen (if m.smramIsOpen then 0xC0000 else 0xA0000)) 0

def highRam : Candidate := ramBetween 0x100000 (min m.guestLen pciHoleStart) 0

def biosCandidate : Candidate :=
  m.romCandidate m.board.biosRomAddr (2 ^ 32) (biosMapLast128k m.board.biosRomAddr)

/-- `plan_candidates`. `CandidateList::push` drops empty candidates, and any for which
there is no room. -/
def planCandidates : Except MemoryPlanError (List Candidate) :=
  if m.identityMap then
    .ok ((([m.lowRam] ++ pamBases.filterMap m.pamCandidate ++
      (if 0x100000 < min m.guestLen pciHoleStart then [m.highRam] else []) ++
      (ramAboveTheHole m.guestLen).toList ++
      (if m.board.biosRomAddr < 2 ^ 32 then [m.biosCandidate] else [])).filter
        fun c => c.gpa < c.top).take maxPlanWindows)
  else .error .partiallyResident

/-- The carve-outs of `derive`: the video aperture, unless SMRAM is open over it, and every
registered region. The table stores inclusive ends. -/
def carveOuts : List (Nat × Nat) :=
  m.board.mmio.regions.foldl
    (fun ranges r => CarveOuts.add ranges r.first (min (r.last + 1) (2 ^ 64 - 1)))
    (if m.smramIsOpen then [] else CarveOuts.add [] 0xA0000 0xC0000)

/-- `MemoryPlan::derive`. -/
def derive : Except MemoryPlanError (List GpaWindow) := do
  let candidates ← m.planCandidates
  let pieces := candidates.flatMap (CarveOuts.split m.carveOuts)
  Lib.failIf (maxPlanWindows < pieces.length) (.tooManyWindows pieces.length)
  let windows := MemoryPlan.mergeAdjacent pieces
  (GpaPlan.new windows).mapError .notAPlan
  return windows

end HostMemory

end RustyBox
