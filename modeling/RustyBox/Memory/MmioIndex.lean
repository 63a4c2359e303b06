-- SUMMARY: The bitmap-accelerated region table refines a list of disjoint intervals.
import RustyBox.Lib.BitSet
import RustyBox.Lib.Tracks
import RustyBox.Memory.MmioMap
import Mathlib.Data.List.FinRange
import Mathlib.Data.List.Pairwise

/-!
# The region table and its index

`MmioMap` is the table of regions. The code keeps an occupancy bitmap beside it, one bit
for a megabyte of the low 4 GiB, and a flag for what lies above; it rebuilds both after each
change of the table. `IndexedMmioMap` has them as state. Its operations do to the table
what those of `MmioMap` do, and its lookups find what a search through the regions finds. The
table in turn is a list of live regions in some order, to which each call adds, from which it
takes, or which it leaves alone. A call that fails changes nothing, `relocate` included: what it
checks before it unmaps is enough for the mapping that follows.
-/

namespace RustyBox

open Lib List

/-- Two regions without a common address. -/
def MappedRegion.Disjoint (r r' : MappedRegion) : Prop :=
  ∀ addr, r.contains addr → ¬ r'.contains addr

theorem MappedRegion.contains_iff {r : MappedRegion} {addr : Nat} :
    r.contains addr ↔ r.first ≤ addr ∧ addr ≤ r.last := by
  simp [MappedRegion.contains]

/-- A page in which the two regions occupy a common 64 KiB sub-range. -/
def MappedRegion.Clashes (r r' : MappedRegion) : Prop :=
  ∃ page ∈ range' (r.first / 0x100000) (r.last / 0x100000 + 1 - r.first / 0x100000),
    r'.touchesPage page ∧
      MmioMap.pageBitmap page r.first r.last &&& MmioMap.pageBitmap page r'.first r'.last ≠ 0#16

instance (r r' : MappedRegion) : Decidable (r.Clashes r') := by
  unfold MappedRegion.Clashes
  infer_instance

namespace MmioMap

variable {m : MmioMap}

/-! ## Overlap -/

variable {last first : Nat} {i : Fin 16} {r : MappedRegion}

/-- An address of a range sets the bit of its 64 KiB sub-range. -/
theorem getLsbD_pageBitmap {x : Nat} (hx : x < 2 ^ 64) (hfirst : first ≤ x) (hlast : x ≤ last) :
    (pageBitmap (x / 0x100000) first last).getLsbD (x / 0x10000 % 16) = true := by
  have hones : ∀ k < 16, (0xFFFF#16).getLsbD k = true := by decide
  unfold pageBitmap
  rw [BitVec.getLsbD_and, Bool.and_eq_true]
  constructor
  · split
    · rw [BitVec.getLsbD_shiftLeft, hones _ (by omega)]
      simp only [Bool.and_true, Bool.and_eq_true, decide_eq_true_eq, Bool.not_eq_true',
        decide_eq_false_iff_not]
      omega
    · exact hones _ (by omega)
  · split
    · rw [BitVec.getLsbD_ushiftRight]
      exact hones _ (by omega)
    · exact hones _ (by omega)

theorem wouldOverlap_iff (token : MmioToken) {ignoring : Option MappedRegion} :
    m.wouldOverlap first last ignoring = true ↔
      ∃ r ∈ m.regions, ignoring ≠ some r ∧ (MappedRegion.mk first last token).Clashes r := by
  simp only [wouldOverlap, MappedRegion.Clashes, List.any_eq_true, decide_eq_true_eq]
  constructor
  · rintro ⟨page, hpage, r, hr, hign, hclash⟩
    exact ⟨r, hr, hign, page, hpage, hclash⟩
  · rintro ⟨r, hr, hign, page, hpage, hclash⟩
    exact ⟨page, hpage, r, hr, hign, hclash⟩

/-- Regions that have no sub-range in common have no address in common. -/
theorem disjoint_of_not_clashes {new : MappedRegion} (hbound : new.last < 2 ^ 64)
    (h : ¬ new.Clashes r) : new.Disjoint r := by
  intro x hx hxr
  rw [MappedRegion.contains_iff] at hx hxr
  have hlt : x < 2 ^ 64 := lt_of_le_of_lt hx.2 hbound
  refine h ⟨x / 0x100000, by rw [mem_range'_1]; omega, ?_, ?_⟩
  · simp only [MappedRegion.touchesPage, decide_eq_true_eq]
    omega
  · exact and_ne_zero_iff.mpr
      ⟨_, getLsbD_pageBitmap hlt hx.1 hx.2, getLsbD_pageBitmap hlt hxr.1 hxr.2⟩

/-! ## The table as a list -/

/-- One slot and the others. -/
theorem regions_perm (m : MmioMap) (i : Fin 16) :
    m.regions ~ (m.slots i).toList ++ ((finRange 16).erase i).filterMap m.slots := by
  have hperm : m.regions ~ _ := (perm_cons_erase (mem_finRange i)).filterMap m.slots
  rw [filterMap_cons] at hperm
  cases hslot : m.slots i <;> rwa [hslot] at hperm

theorem regions_setSlot (m : MmioMap) (i : Fin 16) (new : Option MappedRegion) :
    (m.setSlot i new).regions ~
      new.toList ++ ((finRange 16).erase i).filterMap m.slots := by
  have hperm := (m.setSlot i new).regions_perm i
  have hothers : ((finRange 16).erase i).filterMap (m.setSlot i new).slots =
      ((finRange 16).erase i).filterMap m.slots := by
    refine filterMap_congr fun j hj => if_neg ?_
    rintro rfl
    exact (nodup_finRange 16).not_mem_erase hj
  rwa [hothers, show (m.setSlot i new).slots i = new from if_pos rfl] at hperm

theorem length_regions : m.regions.length = 16 ↔ ∀ i, m.slots i ≠ none := by
  have hlength : m.regions.length = (finRange 16).length ↔ _ := filterMap_length_eq_length
  rw [length_finRange] at hlength
  simp [hlength, Option.isSome_iff_ne_none]

theorem slotWith_none {r : Option MappedRegion} (h : m.slotWith r = none) (i : Fin 16) :
    m.slots i ≠ r := by
  simpa using List.find?_eq_none.mp h i (mem_finRange i)

variable {rs : List MappedRegion}

theorem claimSlot_run (h : m.regions ~ rs) (r : MappedRegion) :
    rs.length = 16 ∧ (claimSlot r).run m = .error .regionTableExhausted m ∨
      rs.length ≠ 16 ∧ ∃ m', (claimSlot r).run m = .ok () m' ∧ m'.regions ~ r :: rs := by
  rw [← h.length_eq, ne_eq, length_regions, claimSlot, run_get_bind]
  cases hslot : m.slotWith none with
  | none => exact .inl ⟨slotWith_none hslot, rfl⟩
  | some i =>
    have hfree := slots_of_slotWith hslot
    have hold := m.regions_perm i
    rw [hfree] at hold
    exact .inr ⟨fun hfull => hfull i hfree, _, rfl,
      (m.regions_setSlot i (some r)).trans ((hold.symm.trans h).cons r)⟩

theorem releaseSlot_run (h : m.regions ~ rs) (r : MappedRegion) :
    ∃ m', (releaseSlot r).run m = .ok () m' ∧ m'.regions ~ rs.erase r ∧ (r ∉ rs → m' = m) := by
  rw [releaseSlot, run_get_bind]
  cases hslot : m.slotWith (some r) with
  | none =>
    have habsent : r ∉ rs := fun hr => by
      obtain ⟨i, hi⟩ := mem_regions.mp (h.mem_iff.mpr hr)
      exact slotWith_none hslot i hi
    refine ⟨m, rfl, ?_, fun _ => rfl⟩
    rwa [erase_of_not_mem habsent]
  | some i =>
    have howner := slots_of_slotWith hslot
    refine ⟨_, rfl, ?_, fun habsent => absurd (h.mem_iff.mp (mem_regions.mpr ⟨i, howner⟩)) habsent⟩
    have hold := m.regions_perm i
    rw [howner] at hold
    have hrest := (hold.symm.trans h).erase r
    rw [Option.toList_some, singleton_append, erase_cons_head] at hrest
    exact (m.regions_setSlot i none).trans hrest

end MmioMap

/-! ## The live regions -/

open MmioMap

/-- Non-empty ranges of the address space, no two of which meet. -/
structure Apart (rs : List MappedRegion) : Prop where
  ordered : ∀ r ∈ rs, r.first ≤ r.last ∧ r.last < 2 ^ 64
  disjoint : rs.Pairwise MappedRegion.Disjoint

instance : Std.Symm MappedRegion.Disjoint := ⟨fun _ _ h addr hr' hr => h addr hr hr'⟩

section

variable {rs : List MappedRegion} {new old : MappedRegion}

theorem Apart.cons (h : Apart rs) (hnew : new.first ≤ new.last ∧ new.last < 2 ^ 64)
    (hclash : ¬ ∃ r ∈ rs, new.Clashes r) : Apart (new :: rs) where
  ordered := forall_mem_cons.mpr ⟨hnew, h.ordered⟩
  disjoint := h.disjoint.cons fun r hr => disjoint_of_not_clashes hnew.2 fun hc => hclash ⟨r, hr, hc⟩

theorem Apart.erase (h : Apart rs) (old : MappedRegion) : Apart (rs.erase old) where
  ordered r hr := h.ordered r (mem_of_mem_erase hr)
  disjoint := h.disjoint.sublist erase_sublist

theorem Apart.nodup (h : Apart rs) : rs.Nodup := by
  refine h.disjoint.imp_of_mem fun {r r'} hr _ hdisjoint => ?_
  rintro rfl
  have hfirst : r.contains r.first :=
    MappedRegion.contains_iff.mpr ⟨le_rfl, (h.ordered r hr).1⟩
  exact hdisjoint r.first hfirst hfirst

/-- Of regions that are apart at most one contains an address, so their order does not matter. -/
theorem Apart.find?_eq (h : Apart rs) {rs' : List MappedRegion} (hperm : rs' ~ rs) (addr : Nat) :
    rs'.find? (·.contains addr) = rs.find? (·.contains addr) := by
  cases hfind : rs.find? (·.contains addr) with
  | none =>
    rw [List.find?_eq_none] at hfind ⊢
    exact fun r hr => hfind r (hperm.mem_iff.mp hr)
  | some r =>
    have hr := mem_of_find?_eq_some hfind
    have hcontains := find?_some hfind
    obtain ⟨r', hfind'⟩ := Option.isSome_iff_exists.mp
      (find?_isSome (p := fun r : MappedRegion => r.contains addr).mpr
        ⟨r, hperm.mem_iff.mpr hr, hcontains⟩)
    have hr' := hperm.mem_iff.mp (mem_of_find?_eq_some hfind')
    have hcontains' := find?_some hfind'
    rw [hfind']
    by_contra hne
    exact h.disjoint.forall hr' hr (fun heq => hne (congrArg some heq)) addr hcontains' hcontains

/-- `map` as a change of the live regions. -/
def mapLive (rs : List MappedRegion) (new : MappedRegion) :
    Except MemoryError (List MappedRegion) :=
  if new.last < new.first then .error .invalidAddressRange
  else if ∃ r ∈ rs, new.Clashes r then .error .overlappingHandlers
  else if rs.length = 16 then .error .regionTableExhausted
  else .ok (new :: rs)

theorem Apart.mapLive (h : Apart rs) {rs' : List MappedRegion} (hbound : new.last < 2 ^ 64)
    (hmap : mapLive rs new = .ok rs') : Apart rs' := by
  unfold RustyBox.mapLive at hmap
  split_ifs at hmap with hinverted hclash
  cases hmap
  exact h.cons ⟨Nat.not_lt.mp hinverted, hbound⟩ hclash

/-- `unmap`. -/
def unmapLive (rs : List MappedRegion) (old : MappedRegion) :
    Except MemoryError (List MappedRegion) :=
  if old.last < old.first then .error .invalidAddressRange else .ok (rs.erase old)

/-- `relocate`: the old region goes and the new one comes, or nothing happens. -/
def relocateLive (rs : List MappedRegion) (old new : Option MappedRegion) :
    Except MemoryError (List MappedRegion) :=
  if (old.toList ++ new.toList).any fun r => r.last < r.first then .error .invalidAddressRange
  else
    let rest := old.elim rs rs.erase
    new.elim (.ok rest) (mapLive rest)

theorem Apart.unmapLive (h : Apart rs) {rs' : List MappedRegion}
    (hunmap : unmapLive rs old = .ok rs') : Apart rs' := by
  unfold RustyBox.unmapLive at hunmap
  split_ifs at hunmap
  cases hunmap
  exact h.erase old

theorem Apart.relocateLive (h : Apart rs) {rs' : List MappedRegion} {old new : Option MappedRegion}
    (hbound : ∀ r ∈ new, r.last < 2 ^ 64) (hrelocate : relocateLive rs old new = .ok rs') :
    Apart rs' := by
  have hrest : Apart (old.elim rs rs.erase) := by
    cases old with
    | none => exact h
    | some o => exact h.erase o
  unfold RustyBox.relocateLive at hrelocate
  split_ifs at hrelocate
  cases new with
  | none =>
    cases hrelocate
    exact hrest
  | some n => exact hrest.mapLive (hbound n rfl) hrelocate

end

namespace MmioMap

variable {m : MmioMap} {rs : List MappedRegion} (token : MmioToken) (first last : Nat)

/-- A run on a table does to its regions what the live regions go through; if that is an error,
the run fails with it and keeps the table. -/
def Simulates (m : MmioMap) (run : EStateM.Result MemoryError MmioMap Unit) :
    Except MemoryError (List MappedRegion) → Prop
  | .ok rs => ∃ m', run = .ok () m' ∧ m'.regions ~ rs
  | .error e => run = .error e m

theorem map_simulates (h : m.regions ~ rs) :
    m.Simulates ((map token first last).run m) (mapLive rs ⟨first, last, token⟩) := by
  have hoverlap : m.wouldOverlap first last none = true ↔
      ∃ r ∈ rs, (MappedRegion.mk first last token).Clashes r := by
    simp [wouldOverlap_iff token, h.mem_iff]
  unfold map mapLive
  rw [run_get_bind]
  simp only [← hoverlap]
  split
  · rfl
  split
  · rfl
  obtain ⟨hfull, hrun⟩ | ⟨hroom, hrun⟩ := claimSlot_run h ⟨first, last, token⟩
  · rw [if_pos hfull]
    exact hrun
  · rw [if_neg hroom]
    exact hrun

theorem unmap_run {first last : Nat} (hle : first ≤ last) (h : m.regions ~ rs) :
    ∃ m', (unmap token first last).run m = .ok () m' ∧ m'.regions ~ rs.erase ⟨first, last, token⟩ ∧
      (⟨first, last, token⟩ ∉ rs → m' = m) := by
  unfold unmap
  rw [if_neg (Nat.not_lt.mpr hle)]
  exact releaseSlot_run h ⟨first, last, token⟩

theorem unmap_simulates (h : m.regions ~ rs) :
    m.Simulates ((unmap token first last).run m) (unmapLive rs ⟨first, last, token⟩) := by
  unfold unmapLive
  split
  next hinverted =>
    unfold unmap
    rw [if_pos hinverted]
    rfl
  next hle =>
    obtain ⟨m', hrun, hregions, -⟩ := unmap_run token (Nat.not_lt.mp hle) h
    exact ⟨m', hrun, hregions⟩

/-- The test before a relocation looks at the regions that stay. -/
theorem checkRelocation_run (h : m.regions ~ rs) (hapart : Apart rs) (old : Option (Nat × Nat))
    (first last : Nat) :
    let new : MappedRegion := ⟨first, last, token⟩
    let rest := (old.map fun r => ⟨r.1, r.2, token⟩).elim rs rs.erase
    (∃ r ∈ rest, new.Clashes r) ∧
        (checkRelocation token old first last).run m = .error .overlappingHandlers m ∨
      (¬ ∃ r ∈ rest, new.Clashes r) ∧ (rs.length = 16 ∧ old = none) ∧
        (checkRelocation token old first last).run m = .error .regionTableExhausted m ∨
      (¬ ∃ r ∈ rest, new.Clashes r) ∧ (checkRelocation token old first last).run m = .ok () m := by
  intro new rest
  have hoverlap : m.wouldOverlap first last (old.map fun r => ⟨r.1, r.2, token⟩) = true ↔
      ∃ r ∈ rest, new.Clashes r := by
    rw [wouldOverlap_iff token]
    cases old with
    | none => simp [rest, new, h.mem_iff]
    | some o =>
      simp [rest, new, h.mem_iff, hapart.nodup.mem_erase_iff, and_left_comm, and_assoc, eq_comm]
  rw [← hoverlap, checkRelocation, run_get_bind]
  split
  next hclash => exact .inl ⟨hclash, rfl⟩
  next hclear =>
  split
  next hfull =>
    rw [h.length_eq, Option.isNone_iff_eq_none] at hfull
    exact .inr (.inl ⟨hclear, hfull, rfl⟩)
  · exact .inr (.inr ⟨hclear, rfl⟩)

theorem relocate_simulates (h : m.regions ~ rs) (hapart : Apart rs) (old new : Option (Nat × Nat)) :
    m.Simulates ((relocate token old new).run m)
      (relocateLive rs (old.map fun r => ⟨r.1, r.2, token⟩)
        (new.map fun r => ⟨r.1, r.2, token⟩)) := by
  have hinverted : ((old.map fun r => MappedRegion.mk r.1 r.2 token).toList ++
        (new.map fun r => MappedRegion.mk r.1 r.2 token).toList).any (fun r => r.last < r.first) =
      (old.toList ++ new.toList).any fun r => r.2 < r.1 := by
    cases old <;> cases new <;> rfl
  unfold relocate relocateLive
  rw [hinverted]
  split
  · rfl
  next horder =>
  have hle : ∀ r ∈ old.toList ++ new.toList, r.1 ≤ r.2 := by
    simpa only [List.any_eq_true, not_exists, not_and, decide_eq_true_eq, Nat.not_lt] using horder
  cases new with
  | none =>
    cases old with
    | none => exact ⟨m, rfl, h⟩
    | some o =>
      obtain ⟨m', hrun, hregions, -⟩ := unmap_run token (hle o (by simp)) h
      exact ⟨m', run_bind_of_ok hrun, hregions⟩
  | some n =>
    have hn : ¬ n.2 < n.1 := Nat.not_lt.mpr (hle n (by simp))
    show m.Simulates ((checkRelocation token old n.1 n.2 >>= fun _ =>
      old.forM (fun o => unmap token o.1 o.2) >>= fun _ => map token n.1 n.2).run m)
        (mapLive _ ⟨n.1, n.2, token⟩)
    obtain ⟨hclash, hcheck⟩ | ⟨hclear, ⟨hfull, rfl⟩, hcheck⟩ | ⟨hclear, hcheck⟩ :=
      checkRelocation_run token h hapart old n.1 n.2
    · rw [run_bind_of_error hcheck, mapLive, if_neg hn, if_pos hclash]
      rfl
    · show m.Simulates _ (mapLive rs ⟨n.1, n.2, token⟩)
      have hclear : ¬ ∃ r ∈ rs, MappedRegion.Clashes ⟨n.1, n.2, token⟩ r := hclear
      rw [run_bind_of_error hcheck, mapLive, if_neg hn, if_neg hclear, if_pos hfull]
      rfl
    rw [run_bind_of_ok hcheck]
    cases old with
    | none => exact map_simulates token n.1 n.2 h
    | some o =>
      show m.Simulates ((unmap token o.1 o.2 >>= fun _ => map token n.1 n.2).run m)
        (mapLive (rs.erase ⟨o.1, o.2, token⟩) ⟨n.1, n.2, token⟩)
      have hclear : ¬ ∃ r ∈ rs.erase ⟨o.1, o.2, token⟩,
        MappedRegion.Clashes ⟨n.1, n.2, token⟩ r := hclear
      obtain ⟨m', hrun, hregions, hsame⟩ := unmap_run token (hle o (by simp)) h
      have hmap := map_simulates token n.1 n.2 hregions
      rw [run_bind_of_ok hrun]
      by_cases ho : ⟨o.1, o.2, token⟩ ∈ rs
      · -- the slot of the old region is free again
        have hroom : (rs.erase ⟨o.1, o.2, token⟩).length ≠ 16 := by
          have hlength : m.regions.length ≤ 16 := length_filterMap_le _ _
          rw [length_erase_of_mem ho, ← h.length_eq]
          omega
        rw [mapLive, if_neg hn, if_neg hclear, if_neg hroom] at hmap ⊢
        exact hmap
      · obtain rfl := hsame ho
        exact hmap

end MmioMap

/-! ## The index -/

/-- The table with the occupancy words and the flag for regions above 4 GiB. -/
structure IndexedMmioMap where
  table : MmioMap
  occupancy : Nat → BitVec 64
  aboveBitmap : Bool

namespace IndexedMmioMap

variable (x : IndexedMmioMap) (token : MmioToken) (r : MappedRegion)

/-- Set the bit of a megabyte page. -/
def markPage (page : Nat) : IndexedMmioMap :=
  { x with
    occupancy := fun w =>
      if w = page / 64 then x.occupancy w ||| 1#64 <<< (page % 64) else x.occupancy w }

/-- The pages of one region. -/
def indexRegion : IndexedMmioMap :=
  let first := r.first / 0x100000
  let last := r.last / 0x100000
  (range' first (min last 4095 + 1 - first)).foldl markPage
    { x with aboveBitmap := x.aboveBitmap || decide (4096 ≤ last) }

/-- `reindex`. -/
def reindex (t : MmioMap) : IndexedMmioMap :=
  t.regions.foldl indexRegion ⟨t, fun _ => 0#64, false⟩

/-- `MmioMap::new`. -/
def new : IndexedMmioMap := ⟨⟨fun _ => none⟩, fun _ => 0#64, false⟩

/-- Whether the index lets a lookup in a page go on to the regions. -/
def mayHold (page : Nat) : Bool :=
  if page < 4096 then x.occupancy (page / 64) &&& 1#64 <<< (page % 64) ≠ 0#64 else x.aboveBitmap

/-- `find`. -/
def find (addr : Nat) : Option MappedRegion :=
  if x.mayHold (addr / 0x100000) then x.table.regions.find? (·.contains addr) else none

/-- `lookup`. -/
def lookup (addr : Nat) : Option MmioHit :=
  (x.find addr).map fun r => ⟨r.token, addr - r.first⟩

abbrev IndexedM := EStateM MemoryError IndexedMmioMap

def claimSlot : IndexedM Unit := do
  let x ← get
  match x.table.slotWith none with
  | none => throw .regionTableExhausted
  | some i => set (reindex (x.table.setSlot i (some r)))

def releaseSlot : IndexedM Unit := do
  let x ← get
  match x.table.slotWith (some r) with
  | none => return
  | some i => set (reindex (x.table.setSlot i none))

/-- `map`. -/
def map (first last : Nat) : IndexedM Unit := do
  let x ← get
  if last < first then throw .invalidAddressRange
  else if x.table.wouldOverlap first last none then throw .overlappingHandlers
  else claimSlot ⟨first, last, token⟩

/-- `unmap`. -/
def unmap (first last : Nat) : IndexedM Unit :=
  if last < first then throw .invalidAddressRange else releaseSlot ⟨first, last, token⟩

def checkRelocation (old : Option (Nat × Nat)) (first last : Nat) : IndexedM Unit := do
  let x ← get
  if x.table.wouldOverlap first last (old.map fun r => ⟨r.1, r.2, token⟩) then
    throw .overlappingHandlers
  else if x.table.regions.length = 16 ∧ old.isNone then throw .regionTableExhausted
  else return

/-- `relocate`. -/
def relocate (old new : Option (Nat × Nat)) : IndexedM Unit := do
  if (old.toList ++ new.toList).any fun r => r.2 < r.1 then throw .invalidAddressRange
  else
    new.forM fun r => checkRelocation token old r.1 r.2
    old.forM fun r => unmap token r.1 r.2
    new.forM fun r => map token r.1 r.2

end IndexedMmioMap

/-- A call to the map, with 64-bit addresses. -/
inductive MapCall
  | map (token : MmioToken) (first last : BitVec 64)
  | unmap (token : MmioToken) (first last : BitVec 64)
  | relocate (token : MmioToken) (old new : Option (BitVec 64 × BitVec 64))

namespace MapCall

def toNats (r : BitVec 64 × BitVec 64) : Nat × Nat := (r.1.toNat, r.2.toNat)

/-- The call on the table alone. -/
def onTable : MapCall → MmioMap.MmioM Unit
  | .map token first last => MmioMap.map token first.toNat last.toNat
  | .unmap token first last => MmioMap.unmap token first.toNat last.toNat
  | .relocate token old new => MmioMap.relocate token (old.map toNats) (new.map toNats)

def exec : MapCall → IndexedMmioMap.IndexedM Unit
  | .map token first last => IndexedMmioMap.map token first.toNat last.toNat
  | .unmap token first last => IndexedMmioMap.unmap token first.toNat last.toNat
  | .relocate token old new => IndexedMmioMap.relocate token (old.map toNats) (new.map toNats)

/-- The call on the live regions. -/
def onLive : MapCall → List MappedRegion → Except MemoryError (List MappedRegion)
  | .map token first last, rs => mapLive rs ⟨first.toNat, last.toNat, token⟩
  | .unmap token first last, rs => unmapLive rs ⟨first.toNat, last.toNat, token⟩
  | .relocate token old new, rs =>
    relocateLive rs ((old.map toNats).map fun r => ⟨r.1, r.2, token⟩)
      ((new.map toNats).map fun r => ⟨r.1, r.2, token⟩)

/-- The live regions after the call; a call that fails leaves them alone. -/
def live (rs : List MappedRegion) (call : MapCall) : List MappedRegion :=
  match call.onLive rs with
  | .ok rs' => rs'
  | .error _ => rs

end MapCall

/-- The regions that live after a sequence of calls. -/
def liveAfter (calls : List MapCall) : List MappedRegion := calls.foldl MapCall.live []

/-- The map after a sequence of calls, failed ones included. -/
def IndexedMmioMap.after (calls : List MapCall) : IndexedMmioMap :=
  calls.foldl (fun x call => finalState (call.exec.run x)) new

namespace IndexedMmioMap

/-! ## What the index says -/

variable {x : IndexedMmioMap} {page : Nat} (token : MmioToken) (r : MappedRegion)

theorem mayHold_markPage {p : Nat} (hp : p < 4096) :
    (x.markPage page).mayHold p ↔ p = page ∨ x.mayHold p := by
  have hbit : p % 64 < 64 := Nat.mod_lt _ (by decide)
  simp only [mayHold, if_pos hp, decide_eq_true_eq, and_one_shiftLeft_ne_zero hbit, markPage]
  by_cases hword : p / 64 = page / 64
  · have hsame : (p % 64 < 64 ∧ p % 64 = page % 64) ↔ p = page := by omega
    rw [if_pos hword, BitVec.getLsbD_or, getLsbD_one_shiftLeft, Bool.or_eq_true, Bool.and_eq_true,
      decide_eq_true_eq, decide_eq_true_eq, hsame, or_comm]
  · have hne : p ≠ page := by
      rintro rfl
      exact hword rfl
    rw [if_neg hword, or_iff_right hne]

theorem mayHold_foldl_markPage {pages : List Nat} {p : Nat} (hp : p < 4096) :
    (pages.foldl markPage x).mayHold p ↔ p ∈ pages ∨ x.mayHold p := by
  induction pages generalizing x with
  | nil => simp
  | cons page pages ih =>
    rw [foldl_cons, ih, mayHold_markPage hp, mem_cons]
    exact or_left_comm.trans or_assoc.symm

theorem foldl_markPage_rest (pages : List Nat) (x : IndexedMmioMap) :
    (pages.foldl markPage x).table = x.table ∧
      (pages.foldl markPage x).aboveBitmap = x.aboveBitmap := by
  induction pages generalizing x with
  | nil => exact ⟨rfl, rfl⟩
  | cons page pages ih =>
    exact ih (x.markPage page)

/-- Whether a region has a byte in a page, as the index can tell: above 4 GiB the pages are
not told apart. -/
def Marks (page : Nat) : Prop :=
  if page < 4096 then r.first / 0x100000 ≤ page ∧ page ≤ r.last / 0x100000
  else 4096 ≤ r.last / 0x100000

theorem mayHold_indexRegion {r : MappedRegion} :
    (x.indexRegion r).mayHold page ↔ Marks r page ∨ x.mayHold page := by
  unfold indexRegion Marks
  by_cases hpage : page < 4096
  · rw [mayHold_foldl_markPage hpage, mem_range'_1]
    simp only [mayHold, if_pos hpage]
    constructor
    · rintro (h | h)
      · exact .inl (by omega)
      · exact .inr h
    · rintro (h | h)
      · exact .inl (by omega)
      · exact .inr h
  · simp only [mayHold, if_neg hpage]
    rw [(foldl_markPage_rest _ _).2, Bool.or_eq_true, decide_eq_true_eq, or_comm]

theorem mayHold_foldl_indexRegion {rs : List MappedRegion} :
    (rs.foldl indexRegion x).mayHold page ↔ (∃ r ∈ rs, Marks r page) ∨ x.mayHold page := by
  induction rs generalizing x with
  | nil => simp
  | cons r rs ih =>
    rw [foldl_cons, ih, mayHold_indexRegion]
    simp only [mem_cons, exists_eq_or_imp]
    exact or_left_comm.trans or_assoc.symm

@[simp] theorem table_reindex (t : MmioMap) : (reindex t).table = t := by
  unfold reindex
  generalize t.regions = rs
  suffices h : ∀ x : IndexedMmioMap, (rs.foldl indexRegion x).table = x.table from h _
  induction rs with
  | nil => exact fun _ => rfl
  | cons r rs ih => exact fun x => (ih _).trans (foldl_markPage_rest _ _).1

theorem mayHold_reindex {t : MmioMap} :
    (reindex t).mayHold page ↔ ∃ r ∈ t.regions, Marks r page := by
  unfold reindex
  rw [mayHold_foldl_indexRegion]
  simp [mayHold]

/-- The index never hides a region. -/
theorem find_reindex (t : MmioMap) (addr : Nat) :
    (reindex t).find addr = t.regions.find? (·.contains addr) := by
  unfold find
  rw [table_reindex]
  split
  · rfl
  next hhold =>
  symm
  rw [List.find?_eq_none]
  intro r hr hcontains
  rw [MappedRegion.contains_iff] at hcontains
  refine hhold (mayHold_reindex.mpr ⟨r, hr, ?_⟩)
  unfold Marks
  split <;> omega

/-! ## The index follows the table -/

theorem claimSlot_tracks : Tracks reindex (claimSlot r) (MmioMap.claimSlot r) := by
  intro t
  unfold claimSlot MmioMap.claimSlot
  rw [run_get_bind, run_get_bind, table_reindex]
  cases t.slotWith none <;> rfl

theorem releaseSlot_tracks : Tracks reindex (releaseSlot r) (MmioMap.releaseSlot r) := by
  intro t
  unfold releaseSlot MmioMap.releaseSlot
  rw [run_get_bind, run_get_bind, table_reindex]
  cases t.slotWith (some r) <;> rfl

theorem map_tracks (first last : Nat) :
    Tracks reindex (map token first last) (MmioMap.map token first last) := by
  intro t
  unfold map MmioMap.map
  rw [run_get_bind, table_reindex]
  exact (Tracks.ite (.throw _) (.ite (.throw _) (claimSlot_tracks _))) t

theorem unmap_tracks (first last : Nat) :
    Tracks reindex (unmap token first last) (MmioMap.unmap token first last) :=
  .ite (.throw _) (releaseSlot_tracks _)

theorem checkRelocation_tracks (old : Option (Nat × Nat)) (first last : Nat) :
    Tracks reindex (checkRelocation token old first last)
      (MmioMap.checkRelocation token old first last) := by
  intro t
  unfold checkRelocation MmioMap.checkRelocation
  rw [run_get_bind, table_reindex]
  exact (Tracks.ite (.throw _) (.ite (.throw _) (.pure _))) t

theorem forM_tracks {f : Nat × Nat → IndexedM Unit} {g : Nat × Nat → MmioMap.MmioM Unit}
    (h : ∀ r, Tracks reindex (f r) (g r)) (o : Option (Nat × Nat)) :
    Tracks reindex (o.forM f) (o.forM g) := by
  cases o with
  | none => exact .pure _
  | some r => exact h r

theorem relocate_tracks (old new : Option (Nat × Nat)) :
    Tracks reindex (relocate token old new) (MmioMap.relocate token old new) :=
  .ite (.throw _) <|
    .bind (forM_tracks (fun _ => checkRelocation_tracks token old _ _) new) fun _ =>
    .bind (forM_tracks (fun _ => unmap_tracks token _ _) old) fun _ =>
    forM_tracks (fun _ => map_tracks token _ _) new

end IndexedMmioMap

namespace MapCall

open IndexedMmioMap

theorem exec_tracks (call : MapCall) : Tracks reindex call.exec call.onTable := by
  cases call with
  | map token first last => exact map_tracks token _ _
  | unmap token first last => exact unmap_tracks token _ _
  | relocate token old new => exact relocate_tracks token _ _

theorem onTable_simulates {t : MmioMap} {rs : List MappedRegion} (h : t.regions ~ rs)
    (hapart : Apart rs) (call : MapCall) : t.Simulates (call.onTable.run t) (call.onLive rs) := by
  cases call with
  | map token first last => exact MmioMap.map_simulates token _ _ h
  | unmap token first last => exact MmioMap.unmap_simulates token _ _ h
  | relocate token old new => exact MmioMap.relocate_simulates token h hapart _ _

theorem apart_onLive {rs rs' : List MappedRegion} (hapart : Apart rs) {call : MapCall}
    (h : call.onLive rs = .ok rs') : Apart rs' := by
  cases call with
  | map token first last => exact hapart.mapLive last.isLt h
  | unmap token first last => exact hapart.unmapLive h
  | relocate token old new =>
    refine hapart.relocateLive (fun r hr => ?_) h
    obtain ⟨n, hn, rfl⟩ := Option.map_eq_some_iff.mp hr
    obtain ⟨n', -, rfl⟩ := Option.map_eq_some_iff.mp hn
    exact n'.2.isLt

end MapCall

namespace IndexedMmioMap

/-- Every sequence of calls leaves a table of the live regions, with its index. -/
theorem after_eq_reindex (calls : List MapCall) :
    Apart (liveAfter calls) ∧
      ∃ t : MmioMap, t.regions ~ liveAfter calls ∧ after calls = reindex t := by
  induction calls using reverseRecOn with
  | nil => exact ⟨⟨nofun, .nil⟩, ⟨fun _ => none⟩, .of_eq rfl, rfl⟩
  | append_singleton calls call ih =>
    obtain ⟨hapart, t, hregions, hafter⟩ := ih
    have hstep := call.onTable_simulates hregions hapart
    rw [after, liveAfter, foldl_append, foldl_append]
    show Apart (MapCall.live (liveAfter calls) call) ∧
      ∃ t : MmioMap, t.regions ~ MapCall.live (liveAfter calls) call ∧
        finalState (call.exec.run (after calls)) = reindex t
    rw [hafter, call.exec_tracks.finalState]
    unfold MapCall.live
    cases hlive : call.onLive (liveAfter calls) with
    | ok rs =>
      rw [hlive] at hstep
      obtain ⟨t', hrun, hregions'⟩ := hstep
      exact ⟨MapCall.apart_onLive hapart hlive, t', hregions', by rw [hrun]; rfl⟩
    | error e =>
      rw [hlive] at hstep
      exact ⟨hapart, t, hregions, by rw [hstep]; rfl⟩

/-- After any calls the live regions are disjoint, a lookup finds what a search through them
finds, and a call that fails leaves every lookup as it was. -/
theorem refines_disjoint_intervals (calls : List MapCall) :
    (liveAfter calls).Pairwise MappedRegion.Disjoint ∧
    (∀ addr : BitVec 64,
      (after calls).find addr.toNat = (liveAfter calls).find? (·.contains addr.toNat) ∧
      (after calls).lookup addr.toNat =
        ((liveAfter calls).find? (·.contains addr.toNat)).map
          fun r => ⟨r.token, addr.toNat - r.first⟩) ∧
    ∀ (call : MapCall) (e : MemoryError),
      ((∃ x, call.exec.run (after calls) = .error e x) ↔ call.onLive (liveAfter calls) = .error e) ∧
      ∀ x, call.exec.run (after calls) = .error e x →
        ∀ addr : BitVec 64, x.lookup addr.toNat = (after calls).lookup addr.toNat := by
  obtain ⟨hapart, t, hregions, hafter⟩ := after_eq_reindex calls
  have hfind (addr : Nat) :
      (after calls).find addr = (liveAfter calls).find? (·.contains addr) := by
    rw [hafter, find_reindex, hapart.find?_eq hregions]
  refine ⟨hapart.disjoint, fun addr => ⟨hfind _, congrArg (Option.map _) (hfind _)⟩,
    fun call e => ?_⟩
  have hstep := call.onTable_simulates hregions hapart
  rw [hafter, call.exec_tracks t]
  cases hlive : call.onLive (liveAfter calls) with
  | ok rs =>
    rw [hlive] at hstep
    obtain ⟨t', hrun, -⟩ := hstep
    rw [hrun]
    exact ⟨⟨nofun, nofun⟩, nofun⟩
  | error e' =>
    rw [hlive] at hstep
    rw [hstep]
    refine ⟨⟨?_, ?_⟩, ?_⟩
    · rintro ⟨x, hx⟩
      cases hx
      rfl
    · rintro ⟨rfl⟩
      exact ⟨_, rfl⟩
    · rintro x hx addr
      cases hx
      rfl

end IndexedMmioMap

end RustyBox
