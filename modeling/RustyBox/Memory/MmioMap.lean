-- SUMMARY: The table of memory-mapped regions: lookup, registration and relocation.
import RustyBox.Lib.Exec
import Mathlib.Data.Fintype.Basic
import Mathlib.Data.BitVec

/-!
# Memory-mapped regions

Sixteen slots, each a region owned by one device window. Overlap is judged by 64 KiB
sub-ranges of a megabyte page, as the memory system registers handlers. The occupancy
bitmap is recomputed from the slots after every change, so here it is a function of them.
What the rest of the development needs is that no operation on another window's region
takes a region out of the table.
-/

namespace RustyBox

/-- The owner of a region: a device slot in the low byte and one of its windows in the
high byte. The table does not look into it. -/
structure MmioToken where
  value : BitVec 16
  deriving DecidableEq

namespace MmioToken

/-- `mmio_window_token` of the windows of the machine. -/
def vgaLegacy : MmioToken := ⟨0x0008⟩
def vgaLfb : MmioToken := ⟨0x0108⟩
def vgaRegisters : MmioToken := ⟨0x0208⟩
def ioapic : MmioToken := ⟨0x000D⟩
def hpet : MmioToken := ⟨0x000E⟩

end MmioToken

inductive MemoryError
  | invalidAddressRange | overlappingHandlers | regionTableExhausted
  deriving DecidableEq

/-- `MappedRegion`; `last` is inclusive. -/
structure MappedRegion where
  first : Nat
  last : Nat
  token : MmioToken
  deriving DecidableEq

/-- `MmioHit`: whose region an address is in, and how far into it. -/
structure MmioHit where
  token : MmioToken
  offset : Nat
  deriving DecidableEq

namespace MappedRegion

variable (r : MappedRegion)

def contains (addr : Nat) : Bool := r.first ≤ addr ∧ addr ≤ r.last

/-- `touches_page`: whether the region has a byte in a megabyte page. -/
def touchesPage (page : Nat) : Bool :=
  r.first ≤ page * 0x100000 + 0xFFFFF ∧ page * 0x100000 ≤ r.last

end MappedRegion

structure MmioMap where
  slots : Fin 16 → Option MappedRegion

namespace MmioMap

variable (m : MmioMap)

/-- The regions in table order. -/
def regions : List MappedRegion := (List.finRange 16).filterMap m.slots

/-- The occupancy bitmap and `above_bitmap`, as `reindex` leaves them: one bit for each of
the 4096 megabytes below 4 GiB, and one for everything above. -/
def occupied (page : Nat) : Bool :=
  if page < 4096 then m.regions.any fun r => r.first / 0x100000 ≤ page ∧ page ≤ r.last / 0x100000
  else m.regions.any fun r => 4096 ≤ r.last / 0x100000

/-- `find`: the region covering an address. -/
def find (addr : Nat) : Option MappedRegion :=
  if m.occupied (addr / 0x100000) then m.regions.find? (·.contains addr) else none

/-- `lookup`. -/
def lookup (addr : Nat) : Option MmioHit :=
  (m.find addr).map fun r => ⟨r.token, addr - r.first⟩

/-- `covers`. -/
def covers (addr : Nat) : Bool := (m.find addr).isSome

/-- `page_bitmap`: the 64 KiB sub-ranges of a megabyte page that a range occupies. The end
of the last page of the address space wraps to zero. -/
def pageBitmap (page first last : Nat) : BitVec 16 :=
  (if page * 0x100000 < first then 0xFFFF#16 <<< (first / 0x10000 % 16) else 0xFFFF#16) &&&
    (if last < (page * 0x100000 + 0x100000) % 2 ^ 64 then 0xFFFF#16 >>> (15 - last / 0x10000 % 16)
      else 0xFFFF#16)

/-- `would_overlap`: the overlap test against every region but the one to be ignored. -/
def wouldOverlap (first last : Nat) (ignoring : Option MappedRegion) : Bool :=
  (List.range' (first / 0x100000) (last / 0x100000 + 1 - first / 0x100000)).any fun page =>
    m.regions.any fun r =>
      ignoring ≠ some r ∧ r.touchesPage page ∧
        pageBitmap page first last &&& pageBitmap page r.first r.last ≠ 0#16

def setSlot (i : Fin 16) (r : Option MappedRegion) : MmioMap :=
  ⟨fun j => if j = i then r else m.slots j⟩

abbrev MmioM := EStateM MemoryError MmioMap

/-- The first slot with a given content. -/
def slotWith (r : Option MappedRegion) : Option (Fin 16) :=
  (List.finRange 16).find? fun i => m.slots i = r

/-- Put a region into the first free slot. -/
def claimSlot (r : MappedRegion) : MmioM Unit := do
  match (← get).slotWith none with
  | none => throw .regionTableExhausted
  | some i => modify (·.setSlot i (some r))

/-- Empty the slot of a region, if it has one. -/
def releaseSlot (r : MappedRegion) : MmioM Unit := do
  match (← get).slotWith (some r) with
  | none => return
  | some i => modify (·.setSlot i none)

/-- `map`. -/
def map (token : MmioToken) (first last : Nat) : MmioM Unit := do
  let m ← get
  if last < first then throw .invalidAddressRange
  else if m.wouldOverlap first last none then throw .overlappingHandlers
  else claimSlot ⟨first, last, token⟩

/-- `unmap`: the region with this token and exactly this range. -/
def unmap (token : MmioToken) (first last : Nat) : MmioM Unit :=
  if last < first then throw .invalidAddressRange else releaseSlot ⟨first, last, token⟩

/-- Room for the new range once the old one is gone, judged before anything is removed. -/
def checkRelocation (token : MmioToken) (old : Option (Nat × Nat)) (first last : Nat) :
    MmioM Unit := do
  let m ← get
  if m.wouldOverlap first last (old.map fun r => ⟨r.1, r.2, token⟩) then throw .overlappingHandlers
  else if m.regions.length = 16 ∧ old.isNone then throw .regionTableExhausted
  else return

/-- `relocate`. -/
def relocate (token : MmioToken) (old new : Option (Nat × Nat)) : MmioM Unit := do
  if (old.toList ++ new.toList).any fun r => r.2 < r.1 then throw .invalidAddressRange
  else
    new.forM fun r => checkRelocation token old r.1 r.2
    old.forM fun r => unmap token r.1 r.2
    new.forM fun r => map token r.1 r.2

variable {m}

variable {r : MappedRegion}

theorem mem_regions : r ∈ m.regions ↔ ∃ i, m.slots i = some r := by
  simp [regions]

/-- A registered region answers for its addresses, itself or by one before it. -/
theorem lookup_isSome {addr : Nat} (hr : r ∈ m.regions) (hfirst : r.first ≤ addr)
    (hlast : addr ≤ r.last) : ∃ hit, m.lookup addr = some hit := by
  have hocc : m.occupied (addr / 0x100000) := by
    unfold occupied
    split <;> exact List.any_eq_true.mpr ⟨r, hr, by simp only [decide_eq_true_eq]; omega⟩
  have hfind : (m.regions.find? (·.contains addr)).isSome :=
    List.find?_isSome.mpr ⟨r, hr, by simp only [MappedRegion.contains, decide_eq_true_eq]; omega⟩
  obtain ⟨r', hr'⟩ := Option.isSome_iff_exists.mp hfind
  exact ⟨⟨r'.token, addr - r'.first⟩, by rw [lookup, find, if_pos hocc, hr', Option.map_some]⟩

/-! ## Regions of other windows stay -/

/-- What an operation on behalf of `token` may do: regions of the other windows stay. -/
def othersStay (token : MmioToken) : Lib.Frame MmioMap where
  rel m m' := ∀ r ∈ m.regions, r.token ≠ token → r ∈ m'.regions
  refl _ _ hr _ := hr
  trans h h' r hr ht := h' r (h r hr ht) ht

theorem mem_regions_setSlot {i : Fin 16} {new : Option MappedRegion} (hr : r ∈ m.regions)
    (hi : m.slots i ≠ some r) : r ∈ (m.setSlot i new).regions := by
  obtain ⟨j, hj⟩ := mem_regions.mp hr
  have hne : j ≠ i := by
    rintro rfl
    exact hi hj
  exact mem_regions.mpr ⟨j, by simp [setSlot, hne, hj]⟩

open Lib

theorem slots_of_slotWith {r : Option MappedRegion} {i : Fin 16} (h : m.slotWith r = some i) :
    m.slots i = r := by
  simpa using List.find?_some h

variable (token : MmioToken)

theorem claimSlot_othersStay (r : MappedRegion) : (othersStay token).Holds (claimSlot r) := by
  intro m
  rw [claimSlot, run_get_bind]
  split
  · exact (othersStay token).refl m
  · next i hi =>
    intro r' hr' _
    refine mem_regions_setSlot hr' ?_
    rw [slots_of_slotWith hi]
    exact nofun

theorem releaseSlot_othersStay {token : MmioToken} (hr : r.token = token) :
    (othersStay token).Holds (releaseSlot r) := by
  intro m
  rw [releaseSlot, run_get_bind]
  split
  · exact (othersStay token).refl m
  · next i hi =>
    intro r' hr' ht
    refine mem_regions_setSlot hr' ?_
    rw [slots_of_slotWith hi]
    rintro ⟨rfl⟩
    exact ht hr

theorem map_othersStay (first last : Nat) : (othersStay token).Holds (map token first last) :=
  .bind .get fun _ => .ite (.throw _) (.ite (.throw _) (claimSlot_othersStay token _))

theorem unmap_othersStay (first last : Nat) : (othersStay token).Holds (unmap token first last) :=
  .ite (.throw _) (releaseSlot_othersStay rfl)

theorem forM_othersStay {token : MmioToken} {f : Nat × Nat → MmioM Unit}
    (h : ∀ r, (othersStay token).Holds (f r)) (o : Option (Nat × Nat)) :
    (othersStay token).Holds (o.forM f) := by
  cases o with
  | none => exact .pure _
  | some r => exact h r

/-- Moving one window's region takes no other window's region out of the table. -/
theorem relocate_othersStay (old new : Option (Nat × Nat)) :
    (othersStay token).Holds (relocate token old new) :=
  .ite (.throw _) <|
    .bind (forM_othersStay (fun _ => .bind .get fun _ =>
      .ite (.throw _) (.ite (.throw _) (.pure _))) new) fun _ =>
    .bind (forM_othersStay (fun _ => unmap_othersStay token _ _) old) fun _ =>
    forM_othersStay (fun _ => map_othersStay token _ _) new

end MmioMap

end RustyBox
