-- SUMMARY: Saving the slot table, restoring it, and the runs after which that works.
import RustyBox.Lib.ExceptRules
import RustyBox.Lib.Reachability
import RustyBox.Memory.SlotTable
import Mathlib.Data.Finset.Card

/-!
# Snapshots of the slot table

A snapshot records which guest block occupied which slot. A restore accepts it if the slots
are all different and are the first ones of the region, as many as are in use.
-/

namespace RustyBox

open List Nat BlockGeometry Residency

/-- `SnapError`; `invalid` blames the snapshot. -/
inductive RamSnapError
  | invalid (message : String)
  | host
  deriving DecidableEq

/-- `MemorySnapshotGeometry`. -/
structure SnapshotGeometry where
  guestLen : BitVec 64
  hostRamLen : BitVec 64
  blockSize : BitVec 64
  numBlocks : BitVec 32
  residentCapacity : BitVec 32
  usedBlocks : BitVec 32
  nextSwapoutGuestBlock : BitVec 32

/-- `MemorySnapshotResidency`. -/
inductive SnapshotResidency
  | swapped
  | resident (slot : BitVec 32)
  deriving DecidableEq

namespace BlockGeometry

variable (g : BlockGeometry)

/-- `expected_num_blocks`. -/
def expectedNumBlocks : Except RamSnapError Nat :=
  if g.blockSize = 0 then .error (.invalid "snapshot block size is zero")
  else if 2 ^ 64 ≤ g.guestLen + (g.blockSize - 1) then
    .error (.invalid "snapshot block count overflow")
  else .ok ((g.guestLen + (g.blockSize - 1)) / g.blockSize)

/-- `snapshot_logical_block_len`. -/
def snapshotLogicalBlockLen (block : Nat) : Except RamSnapError Nat :=
  if g.numBlocks ≤ block then .error (.invalid "snapshot guest block is out of range")
  else if 2 ^ 64 ≤ block * g.blockSize then
    .error (.invalid "snapshot guest block offset overflow")
  else if g.guestLen ≤ block * g.blockSize then
    .error (.invalid "snapshot guest block starts beyond guest RAM")
  else .ok (min (g.guestLen - block * g.blockSize) g.blockSize)

/-- `snapshot_slot_offset`. -/
def snapshotSlotOffset (slot logicalLen : Nat) : Except RamSnapError Nat :=
  if g.residentCapacity ≤ slot then .error (.invalid "snapshot resident slot is out of range")
  else if g.blockSize < logicalLen then
    .error (.invalid "snapshot logical block exceeds slot")
  else if 2 ^ 64 ≤ slot * g.blockSize then
    .error (.invalid "snapshot resident slot offset overflow")
  else if 2 ^ 64 ≤ slot * g.blockSize + logicalLen then
    .error (.invalid "snapshot resident slot length overflow")
  else if g.residentLen < slot * g.blockSize + logicalLen then
    .error (.invalid "snapshot resident slot exceeds host backing")
  else .ok (slot * g.blockSize)

/-- The slots met so far in a saved table, and how many they are. -/
structure SeenSlots where
  seen : Nat → Bool
  residentCount : Nat

/-- A saved block claims its slot, which must be one of the region and not claimed before. -/
def claimSlot (block : Nat) (saved : SnapshotResidency) (acc : SeenSlots) :
    Except RamSnapError SeenSlots :=
  match saved with
  | .swapped => .ok acc
  | .resident slot => do
    let logicalLen ← g.snapshotLogicalBlockLen block
    let _ ← g.snapshotSlotOffset slot.toNat logicalLen
    if acc.seen slot.toNat then .error (.invalid "snapshot resident slots are not unique")
    else .ok ⟨fun s => s = slot.toNat || acc.seen s, acc.residentCount + 1⟩

def claimSlots : Nat → List SnapshotResidency → SeenSlots → Except RamSnapError SeenSlots
  | _, [], acc => .ok acc
  | block, saved :: rest, acc => do
    let acc ← g.claimSlot block saved acc
    claimSlots (block + 1) rest acc

/-- The dimensions a snapshot states are the machine's own. -/
def snapshotMatches (saved : SnapshotGeometry) (mapLen expected : Nat) : Bool :=
  saved.guestLen.toNat = g.guestLen ∧ saved.hostRamLen.toNat = g.hostLen ∧
    saved.blockSize.toNat = g.blockSize ∧ saved.numBlocks.toNat = expected ∧
    g.numBlocks = expected ∧ saved.residentCapacity.toNat = g.residentCapacity ∧
    mapLen = expected

/-- The figures of a snapshot are in range. -/
def checkFigures (saved : SnapshotGeometry) (mapLen expected : Nat) : Except RamSnapError Unit :=
  if !g.snapshotMatches saved mapLen expected then
    .error (.invalid "snapshot memory geometry does not match machine")
  else if g.residentCapacity < saved.usedBlocks.toNat ∨ expected < saved.usedBlocks.toNat then
    .error (.invalid "snapshot used block count is out of range")
  else if expected = 0 ∧ saved.nextSwapoutGuestBlock.toNat ≠ 0 ∨
      expected ≠ 0 ∧ expected ≤ saved.nextSwapoutGuestBlock.toNat then
    .error (.invalid "snapshot swap cursor is out of range")
  else .ok ()

/-- The claimed slots are the used prefix of the region. -/
def checkDense (used : Nat) (acc : SeenSlots) : Except RamSnapError Unit :=
  if acc.residentCount ≠ used ∨ (range used).any (fun s => !acc.seen s) then
    .error (.invalid "snapshot resident slots do not form a dense used prefix")
  else .ok ()

/-- Everything `finish_snapshot_restore` checks before it touches the map. -/
def validateSnapshot (saved : SnapshotGeometry) (map : List SnapshotResidency) :
    Except RamSnapError Unit := do
  let expected ← g.expectedNumBlocks
  g.checkFigures saved map.length expected
  let acc ← g.claimSlots 0 map ⟨fun _ => false, 0⟩
  checkDense saved.usedBlocks.toNat acc

/-- The bytes of a slot behind a last block: where they start and how many there are. -/
def slotTail (slot finalLen : Nat) : Except RamSnapError (Nat × Nat) :=
  if g.blockSize ≤ finalLen then .ok (0, 0)
  else do
    let slotOffset ← g.snapshotSlotOffset slot finalLen
    if 2 ^ 64 ≤ slotOffset + finalLen then .error (.invalid "snapshot final slot tail overflow")
    else .ok (slotOffset + finalLen,
      min (g.residentLen - (slotOffset + finalLen)) (g.blockSize - finalLen))

/-- The bytes behind a short last block, when it is resident. -/
def finalTail (map : List SnapshotResidency) : Except RamSnapError (Nat × Nat) :=
  match map.getLast? with
  | some (.resident slot) => do
    let finalLen ← g.snapshotLogicalBlockLen (g.numBlocks - 1)
    g.slotTail slot.toNat finalLen
  | _ => .ok (0, 0)

end BlockGeometry

namespace Residency

variable (r : Residency)

/-- `snapshot_geometry`. -/
def snapshotGeometry : SnapshotGeometry where
  guestLen := .ofNat 64 r.geometry.guestLen
  hostRamLen := .ofNat 64 r.geometry.hostLen
  blockSize := .ofNat 64 r.geometry.blockSize
  numBlocks := .ofNat 32 r.geometry.numBlocks
  residentCapacity := .ofNat 32 r.geometry.residentCapacity
  usedBlocks := .ofNat 32 r.usedBlocks
  nextSwapoutGuestBlock := .ofNat 32 r.nextSwapout

/-- The descriptor of a block that occupies the slot at an offset. -/
def residentDescriptor (offset logicalLen : Nat) : Except RamSnapError SnapshotResidency :=
  if offset % r.geometry.blockSize ≠ 0 then
    .error (.invalid "snapshot resident block offset is unaligned")
  else do
    let slot := offset / r.geometry.blockSize
    let _ ← r.geometry.snapshotSlotOffset slot logicalLen
    if 2 ^ 32 ≤ slot then .error (.invalid "snapshot resident slot conversion failed")
    else .ok (.resident (.ofNat 32 slot))

/-- `snapshot_residency`. -/
def snapshotResidency (block : Nat) : Except RamSnapError SnapshotResidency := do
  let logicalLen ← r.geometry.snapshotLogicalBlockLen block
  match r.blocks block with
  | none => .ok .swapped
  | some offset => r.residentDescriptor offset logicalLen

/-- The descriptors of all blocks, in guest order. -/
def snapshotMap : Except RamSnapError (List SnapshotResidency) :=
  (range r.geometry.numBlocks).mapM r.snapshotResidency

/-- `scan_identity_map`. -/
def scanIdentityMap : Bool :=
  r.geometry.fullResidency &&
    (range r.geometry.numBlocks).all fun b => r.blocks b = some (b * r.geometry.blockSize)

/-- The table a validated snapshot describes. -/
def installSnapshot (saved : SnapshotGeometry) (map : List SnapshotResidency) : Residency :=
  let installed : Residency := { r with
    blocks := fun b =>
      match map[b]? with
      | some (.resident slot) => some (slot.toNat * r.geometry.blockSize)
      | some .swapped => none
      | none => r.blocks b
    usedBlocks := saved.usedBlocks.toNat
    nextSwapout := saved.nextSwapoutGuestBlock.toNat }
  { installed.bumpSwapEpoch with identityMap := installed.scanIdentityMap }

end Residency

namespace RamStore

/-- `finish_snapshot_restore`. The flush of the overflow file is a no-op of the host, and the
table of seen slots is taken to be granted. -/
def finishSnapshotRestore (saved : SnapshotGeometry) (map : List SnapshotResidency) :
    EStateM RamSnapError RamStore Unit := fun st =>
  match st.map.geometry.validateSnapshot saved map with
  | .error e => .error e st
  | .ok _ =>
    match st.map.geometry.finalTail map with
    | .error e => .error e st
    | .ok (start, len) =>
      .ok () { st with
        map := st.map.installSnapshot saved map
        ram := fun o => if start ≤ o ∧ o < start + len then 0#8 else st.ram o }

end RamStore

/-! ## What the table must be like -/

namespace Residency

variable {r r' : Residency} {block : Nat} {io : SwapIo}

open RamStore

/-- Every slot in use belongs to a block. -/
def Covered (r : Residency) : Prop :=
  ∀ s < r.usedBlocks, ∃ b, r.blocks b = some (s * r.geometry.blockSize)

/-- Every slot is in use, and one of them belongs to nobody. -/
def Holed (r : Residency) : Prop :=
  r.geometry.capacity ≤ r.usedBlocks ∧
    ∃ s < r.usedBlocks, ∀ b, r.blocks b ≠ some (s * r.geometry.blockSize)

theorem initLayout_covered (g : BlockGeometry) : (initLayout g).Covered := by
  intro s hs
  by_cases hfull : g.fullResidency = true
  · have hlt : s < g.numBlocks := by simpa [initLayout, hfull] using hs
    exact ⟨s, by simp [initLayout, hfull, hlt]⟩
  · simp [initLayout, hfull] at hs

/-- A step that loses no victim leaves no slot behind. -/
theorem Covered.step (h : r.Covered) (hstep : TableStep r block io r')
    (hsafe : ∀ victim slot, ¬ LosesVictim r block io victim slot) : r'.Covered := by
  cases hstep with
  | kept cursor _ hcursor => exact h
  | fresh hfresh =>
    intro s hs
    obtain hold | rfl := Nat.lt_succ_iff_lt_or_eq.mp hs
    · obtain ⟨b, hb⟩ := h s hold
      have hne : b ≠ block := by
        rintro rfl
        rw [hfresh.swappedOut] at hb
        cases hb
      exact ⟨b, (if_neg hne).trans hb⟩
    · exact ⟨block, if_pos rfl⟩
  | swapped victim slot cursor hevicts hloaded hcursor =>
    intro s hs
    have howner : r.blocks victim = some slot := nextVictim_found hevicts.found
    obtain ⟨b, hb⟩ := h s hs
    by_cases hvictim : b = victim
    · rw [hvictim, howner] at hb
      exact ⟨block, (if_pos rfl).trans hb⟩
    · have hne : b ≠ block := by
        rintro rfl
        rw [hevicts.swappedOut] at hb
        cases hb
      exact ⟨b, (if_neg hne).trans ((if_neg hvictim).trans hb)⟩
  | lost victim slot cursor hlost hcursor => exact absurd hlost (hsafe victim slot)

/-- Losing a victim makes a hole. -/
theorem Valid.holed_of_lost (h : r.Valid) (hstep : TableStep r block io r') {victim slot : Nat}
    (hlost : LosesVictim r block io victim slot) : r'.Holed := by
  cases hstep with
  | kept cursor hsafe hcursor => exact absurd hlost (hsafe victim slot)
  | fresh hfresh => exact absurd hlost.evicts.full (Nat.not_le.mpr hfresh.room)
  | swapped victim' slot' cursor hevicts hloaded hcursor =>
    obtain ⟨rfl, rfl⟩ := hevicts.unique hlost.evicts
    exact absurd hlost.reload hloaded
  | lost victim' slot' cursor hlost' hcursor =>
    have howner : r.blocks victim' = some slot' := nextVictim_found hlost'.evicts.found
    obtain ⟨s, hs, rfl⟩ := h.slots victim' slot' howner
    refine ⟨hlost'.evicts.full, s, hs, fun b hb => ?_⟩
    have hvictim := h.unshared b victim' _ (setBlock_none_some hb) howner
    simp [setBlock, hvictim] at hb

/-- A hole stays: what is in use never shrinks, and a slot passes only from its owner. -/
theorem Holed.step (h : r.Holed) (hstep : TableStep r block io r') : r'.Holed := by
  obtain ⟨hfull, s, hs, hfree⟩ := h
  cases hstep with
  | kept cursor _ hcursor => exact ⟨hfull, s, hs, hfree⟩
  | fresh hfresh => exact absurd hfull (Nat.not_le.mpr hfresh.room)
  | swapped victim slot cursor hevicts hloaded hcursor =>
    have howner : r.blocks victim = some slot := nextVictim_found hevicts.found
    refine ⟨hfull, s, hs, fun b hb => ?_⟩
    have hb : (if b = block then some slot else if b = victim then none else r.blocks b) = _ := hb
    split at hb
    · exact hfree victim (howner.trans hb)
    · split at hb
      · cases hb
      · exact hfree b hb
  | lost victim slot cursor hlost hcursor =>
    exact ⟨hfull, s, hs, fun b hb => hfree b (setBlock_none_some hb)⟩

/-! ## What a snapshot says -/

/-- The descriptor a block in order gets. -/
def descriptor (r : Residency) (b : Nat) : SnapshotResidency :=
  match r.blocks b with
  | none => .swapped
  | some offset => .resident (.ofNat 32 (offset / r.geometry.blockSize))

end Residency

namespace BlockGeometry

variable {g : BlockGeometry}

theorem residentCapacity_le_numBlocks (g : BlockGeometry) : g.residentCapacity ≤ g.numBlocks := by
  unfold residentCapacity
  split
  · exact le_refl _
  · exact min_le_right _ _

theorem hostLen_lt (g : BlockGeometry) : g.hostLen < 2 ^ 64 := by
  have hresident := g.residentLen_lt
  have hguest := g.guestLen_lt
  rw [g.residentLen_eq, residentLenOf] at hresident
  split at hresident <;> omega

theorem snapshotLogicalBlockLen_of_lt {block : Nat} (h : block < g.numBlocks) :
    g.snapshotLogicalBlockLen block = .ok (g.logicalBlockLen block) := by
  have hstart := start_lt_guestLen h
  have hlen := g.guestLen_lt
  unfold snapshotLogicalBlockLen
  rw [if_neg (Nat.not_le.mpr h), if_neg (by omega), if_neg (by omega)]
  rfl

theorem snapshotSlotOffset_of_fits {slot len : Nat} (hslot : slot < g.residentCapacity)
    (hlen : len ≤ g.blockSize) (hfits : slot * g.blockSize + len ≤ g.residentLen) :
    g.snapshotSlotOffset slot len = .ok (slot * g.blockSize) := by
  have hend := g.residentLen_lt
  unfold snapshotSlotOffset
  rw [if_neg (by omega), if_neg (by omega), if_neg (by omega), if_neg (by omega), if_neg (by omega)]

theorem expectedNumBlocks_eq (g : BlockGeometry) : g.expectedNumBlocks = .ok g.numBlocks := by
  unfold expectedNumBlocks
  rw [if_neg (ne_of_gt g.blockSize_pos), if_neg (Nat.not_le.mpr g.guestLen_lt), g.numBlocks_eq]

end BlockGeometry

namespace Residency

variable {r : Residency}

/-- The slot of a block of a table in order: its index, its place and that it fits. -/
structure Occupies (r : Residency) (b s : Nat) : Prop where
  blocks : r.blocks b = some (s * r.geometry.blockSize)
  used : s < r.usedBlocks
  capacity : s < r.geometry.residentCapacity
  small : s < 2 ^ 32
  fits : s * r.geometry.blockSize + r.geometry.logicalBlockLen b ≤ r.geometry.residentLen
  inRange : b < r.geometry.numBlocks

theorem Valid.occupies (h : r.Valid) {b o : Nat} (hb : r.blocks b = some o) :
    ∃ s, o = s * r.geometry.blockSize ∧ r.Occupies b s := by
  obtain ⟨s, hs, rfl⟩ := h.slots b o hb
  have hcap := h.bound
  have hle := r.geometry.residentCapacity_le_numBlocks
  have hmax := r.geometry.numBlocks_le
  have hsmall : s < 2 ^ 32 := by
    rw [maxMemBlocks] at hmax
    omega
  exact ⟨s, rfl, hb, hs, by omega, hsmall, h.fits b _ hb, h.inRange b _ hb⟩

theorem Occupies.descriptor {b s : Nat} (h : r.Occupies b s) :
    r.descriptor b = .resident (.ofNat 32 s) := by
  simp [Residency.descriptor, h.blocks, Nat.mul_div_cancel s r.geometry.blockSize_pos]

theorem Occupies.toNat {b s : Nat} (h : r.Occupies b s) : (BitVec.ofNat 32 s).toNat = s :=
  mod_eq_of_lt h.small

theorem Occupies.snapshotSlotOffset {b s : Nat} (h : r.Occupies b s) :
    r.geometry.snapshotSlotOffset s (r.geometry.logicalBlockLen b) =
      .ok (s * r.geometry.blockSize) :=
  snapshotSlotOffset_of_fits h.capacity (logicalBlockLen_le b) h.fits

/-- A table in order can be described. -/
theorem Valid.snapshotResidency (h : r.Valid) {b : Nat} (hb : b < r.geometry.numBlocks) :
    r.snapshotResidency b = .ok (r.descriptor b) := by
  unfold Residency.snapshotResidency
  rw [snapshotLogicalBlockLen_of_lt hb]
  cases hblock : r.blocks b with
  | none => simp [descriptor, hblock]
  | some o =>
    obtain ⟨s, rfl, hocc⟩ := h.occupies hblock
    have hdiv : s * r.geometry.blockSize / r.geometry.blockSize = s :=
      Nat.mul_div_cancel s r.geometry.blockSize_pos
    show r.residentDescriptor (s * r.geometry.blockSize) _ = _
    unfold residentDescriptor
    rw [if_neg (by simp), hdiv]
    dsimp only
    rw [hocc.snapshotSlotOffset, hocc.descriptor]
    exact if_neg (Nat.not_le.mpr hocc.small)

theorem Valid.snapshotMap (h : r.Valid) :
    r.snapshotMap = .ok ((range r.geometry.numBlocks).map r.descriptor) :=
  Lib.mapM_eq_map fun _ hb => h.snapshotResidency (List.mem_range.mp hb)

/-! ## What a restore accepts -/

/-- The state of the claims after the first `n` blocks. -/
structure Claimed (r : Residency) (n : Nat) (acc : SeenSlots) : Prop where
  seen : ∀ s, acc.seen s = true ↔ ∃ b < n, r.blocks b = some (s * r.geometry.blockSize)
  count : acc.residentCount = ((Finset.range r.usedBlocks).filter (acc.seen · = true)).card

theorem claimed_zero : r.Claimed 0 ⟨fun _ => false, 0⟩ := ⟨by simp, by simp⟩

variable {acc : SeenSlots}

variable (h : r.Valid)
include h

/-- Each block claims its slot, and nobody has claimed it before. -/
theorem Valid.claimSlot {n : Nat} (hn : n < r.geometry.numBlocks) (hacc : r.Claimed n acc) :
    ∃ acc', r.geometry.claimSlot n (r.descriptor n) acc = .ok acc' ∧ r.Claimed (n + 1) acc' := by
  cases hblock : r.blocks n with
  | none =>
    refine ⟨acc, by simp [descriptor, hblock, BlockGeometry.claimSlot], ⟨fun s => ?_, hacc.count⟩⟩
    rw [hacc.seen s, Nat.exists_lt_succ_right, hblock]
    exact (or_iff_left nofun).symm
  | some o =>
    obtain ⟨s, rfl, hocc⟩ := h.occupies hblock
    have hunseen : acc.seen s = false := by
      rw [← Bool.not_eq_true, hacc.seen]
      rintro ⟨b, hb, hs⟩
      exact absurd (h.unshared b n _ hs hblock) (Nat.ne_of_lt hb)
    refine ⟨⟨fun t => t = s || acc.seen t, acc.residentCount + 1⟩, ?_, fun t => ?_, ?_⟩
    · rw [hocc.descriptor]
      unfold BlockGeometry.claimSlot
      dsimp only
      rw [snapshotLogicalBlockLen_of_lt hn, hocc.toNat]
      show (r.geometry.snapshotSlotOffset s (r.geometry.logicalBlockLen n) >>= _) = _
      rw [hocc.snapshotSlotOffset]
      exact if_neg (by simp [hunseen])
    · simp only [Bool.or_eq_true, decide_eq_true_eq, hacc.seen]
      rw [Nat.exists_lt_succ_right, hblock, or_comm, Option.some.injEq]
      exact or_congr_right ⟨fun h => h ▸ rfl, fun h => (slot_injective h).symm⟩
    · have hinsert : (Finset.range r.usedBlocks).filter (fun t => (t = s || acc.seen t) = true) =
          insert s ((Finset.range r.usedBlocks).filter (acc.seen · = true)) := by
        simp only [Bool.or_eq_true, decide_eq_true_eq]
        rw [Finset.filter_or, Finset.range_filter_eq, if_pos hocc.used, Finset.insert_eq]
      rw [hinsert, Finset.card_insert_of_notMem (by simp [hunseen]), hacc.count]

/-- The loop over the rest of the table. -/
theorem Valid.claimSlots (k : Nat) {n : Nat} (hn : n + k = r.geometry.numBlocks)
    (hacc : r.Claimed n acc) :
    ∃ acc', r.geometry.claimSlots n ((range' n k).map r.descriptor) acc = .ok acc' ∧
      r.Claimed r.geometry.numBlocks acc' := by
  induction k generalizing n acc with
  | zero =>
    obtain rfl : n = r.geometry.numBlocks := hn
    exact ⟨acc, rfl, hacc⟩
  | succ k ih =>
    obtain ⟨next, hclaim, hnext⟩ := h.claimSlot (by omega) hacc
    obtain ⟨last, hrest, hlast⟩ := ih (show n + 1 + k = _ by omega) hnext
    refine ⟨last, ?_, hlast⟩
    rw [range'_succ, map_cons, claimSlots, hclaim]
    exact hrest

/-- With all claims made, the slots are dense just when every slot in use is owned. -/
theorem Claimed.dense_iff (hacc : r.Claimed r.geometry.numBlocks acc) :
    checkDense r.usedBlocks acc = .ok () ↔ r.Covered := by
  have hseen : (∀ s < r.usedBlocks, acc.seen s = true) ↔ r.Covered := by
    refine forall₂_congr fun s _ => (hacc.seen s).trans ⟨fun ⟨b, _, hb⟩ => ⟨b, hb⟩, ?_⟩
    rintro ⟨b, hb⟩
    exact ⟨b, h.inRange b _ hb, hb⟩
  simp only [checkDense, Lib.check_eq_ok, not_or, not_not, List.any_eq_true,
    List.mem_range, Bool.not_eq_true', not_exists, not_and, Bool.not_eq_false, and_true, ← hseen]
  refine ⟨And.right, fun hall => ⟨?_, hall⟩⟩
  rw [hacc.count, Finset.filter_true_of_mem fun s hs => hall s (Finset.mem_range.mp hs),
    Finset.card_range]

theorem Valid.usedBlocks_lt : r.usedBlocks < 2 ^ 32 := by
  have hcap := le_trans h.bound r.geometry.residentCapacity_le_numBlocks
  exact Nat.lt_of_le_of_lt (le_trans hcap r.geometry.numBlocks_le) (by decide)

theorem Valid.saved_usedBlocks : r.snapshotGeometry.usedBlocks.toNat = r.usedBlocks := by
  exact mod_eq_of_lt h.usedBlocks_lt

/-- The figures of a table in order pass. -/
theorem Valid.checkFigures :
    r.geometry.checkFigures r.snapshotGeometry r.geometry.numBlocks r.geometry.numBlocks =
      .ok () := by
  have hcap := r.geometry.residentCapacity_le_numBlocks
  have hnum : r.geometry.numBlocks < 2 ^ 32 :=
    Nat.lt_of_le_of_lt r.geometry.numBlocks_le (by decide)
  have hguest := r.geometry.guestLen_lt
  have hused := h.bound
  have hcursor := h.cursor
  have hmatches : r.geometry.snapshotMatches r.snapshotGeometry r.geometry.numBlocks
      r.geometry.numBlocks = true := by
    simp only [snapshotMatches,
      decide_eq_true_eq]
    exact ⟨mod_eq_of_lt (by omega), mod_eq_of_lt r.geometry.hostLen_lt,
      mod_eq_of_lt r.geometry.blockSize_lt, mod_eq_of_lt hnum, trivial,
      mod_eq_of_lt (by omega), trivial⟩
  have hsaved : r.snapshotGeometry.nextSwapoutGuestBlock.toNat = r.nextSwapout := by
    exact mod_eq_of_lt (by omega)
  unfold BlockGeometry.checkFigures
  rw [hmatches, h.saved_usedBlocks, if_neg (by decide), if_neg (by omega),
    if_neg (by omega)]

/-- The descriptors of a table in order pass just when every slot in use is owned. -/
theorem Valid.validateSnapshot_iff :
    r.geometry.validateSnapshot r.snapshotGeometry
        ((range r.geometry.numBlocks).map r.descriptor) = .ok () ↔ r.Covered := by
  obtain ⟨acc, hclaims, hacc⟩ := h.claimSlots r.geometry.numBlocks (zero_add _) claimed_zero
  rw [← range_eq_range'] at hclaims
  rw [← hacc.dense_iff h]
  unfold validateSnapshot
  rw [expectedNumBlocks_eq]
  show (r.geometry.checkFigures _ _ _ >>= fun _ => _) = _ ↔ _
  rw [length_map, length_range, h.checkFigures]
  rw [hclaims, h.saved_usedBlocks]
  rfl

/-- The tail of the last block can be found. -/
theorem Valid.finalTail_ok :
    ∃ tail, r.geometry.finalTail ((range r.geometry.numBlocks).map r.descriptor) = .ok tail := by
  unfold finalTail
  split
  · next slot hlast =>
    rw [getLast?_map, getLast?_range, Option.map_eq_some_iff] at hlast
    obtain ⟨n, hn, hlast⟩ := hlast
    obtain ⟨-, hn⟩ := Option.ite_none_left_eq_some.mp hn
    cases hblock : r.blocks n with
    | none => simp [descriptor, hblock] at hlast
    | some o =>
      obtain ⟨s, rfl, hocc⟩ := h.occupies hblock
      cases hocc.descriptor.symm.trans hlast
      have hend := Nat.lt_of_le_of_lt hocc.fits r.geometry.residentLen_lt
      rw [Option.some.inj hn, snapshotLogicalBlockLen_of_lt hocc.inRange]
      show ∃ tail, r.geometry.slotTail _ _ = .ok tail
      unfold slotTail
      split
      · exact ⟨_, rfl⟩
      · rw [hocc.toNat, hocc.snapshotSlotOffset]
        exact ⟨_, if_neg (Nat.not_le.mpr hend)⟩
  · exact ⟨_, rfl⟩

/-- Installing the descriptors of a table gives its blocks back. -/
theorem Valid.installSnapshot_blocks {fresh : Residency}
    (hgeometry : fresh.geometry = r.geometry) {b : Nat} (hb : b < r.geometry.numBlocks) :
    (fresh.installSnapshot r.snapshotGeometry
      ((range r.geometry.numBlocks).map r.descriptor)).blocks b = r.blocks b := by
  have hget : ((range r.geometry.numBlocks).map r.descriptor)[b]? = some (r.descriptor b) := by
    simp [hb]
  show (match ((range r.geometry.numBlocks).map r.descriptor)[b]? with
    | some (.resident slot) => some (slot.toNat * fresh.geometry.blockSize)
    | some .swapped => none
    | none => fresh.blocks b) = r.blocks b
  rw [hget, hgeometry]
  cases hblock : r.blocks b with
  | none => simp [descriptor, hblock]
  | some o =>
    obtain ⟨s, rfl, hocc⟩ := h.occupies hblock
    rw [hocc.descriptor]
    exact congrArg (some <| · * _) hocc.toNat

end Residency

/-! ## Runs -/

namespace RamStore

open Lib

/-- A lookup of an address, with what the file operations it needs come to. -/
structure SlotCall where
  addr : Nat
  io : SwapIo

/-- The store after a lookup, whatever the lookup returned. -/
def afterCall (st : RamStore) (call : SlotCall) : RamStore :=
  finalState ((slotRange call.addr call.io).run st)

/-- The lookup writes a victim out and can then read neither block. -/
def Loses (st : RamStore) (call : SlotCall) : Prop :=
  call.addr < st.map.geometry.guestLen ∧
    ∃ victim slot,
      LosesVictim st.map (call.addr / st.map.geometry.blockSize) call.io victim slot

/-- No lookup of a run loses a victim. -/
def NoLoss : RamStore → List SlotCall → Prop
  | _, [] => True
  | st, call :: calls => ¬ st.Loses call ∧ NoLoss (st.afterCall call) calls

/-- The table of a store, saved and restored into a fresh store, is the same table. -/
def Restores (r : Residency) (fresh : RamStore) : Prop :=
  ∃ saved, r.snapshotMap = .ok saved ∧
    ∃ restored, (finishSnapshotRestore r.snapshotGeometry saved).run fresh = .ok () restored ∧
      (∀ b < r.geometry.numBlocks, restored.map.blocks b = r.blocks b) ∧
      restored.map.usedBlocks = r.usedBlocks

variable {st : RamStore}

theorem restores_iff_covered {r : Residency} (h : r.Valid) {fresh : RamStore}
    (hgeometry : fresh.map.geometry = r.geometry) : Restores r fresh ↔ r.Covered := by
  rw [← h.validateSnapshot_iff]
  have hrun : ∀ saved map, (finishSnapshotRestore saved map).run fresh =
      finishSnapshotRestore saved map fresh := fun _ _ => rfl
  constructor
  · rintro ⟨saved, hsaved, restored, hok, -⟩
    obtain rfl : _ = saved := Except.ok.inj (h.snapshotMap.symm.trans hsaved)
    rw [hrun] at hok
    unfold finishSnapshotRestore at hok
    rw [hgeometry] at hok
    split at hok
    · cases hok
    · next hvalid => exact hvalid
  · intro hvalid
    obtain ⟨tail, htail⟩ := h.finalTail_ok
    have hok : ∃ ram, finishSnapshotRestore r.snapshotGeometry
        ((range r.geometry.numBlocks).map r.descriptor) fresh =
        .ok () ⟨fresh.map.installSnapshot r.snapshotGeometry
          ((range r.geometry.numBlocks).map r.descriptor), ram, fresh.file⟩ := by
      unfold finishSnapshotRestore
      rw [hgeometry, hvalid, htail]
      exact ⟨_, rfl⟩
    obtain ⟨ram, hok⟩ := hok
    exact ⟨_, h.snapshotMap, _, hok, fun b hb => h.installSnapshot_blocks hgeometry hb,
      h.saved_usedBlocks⟩

variable {call : SlotCall}

/-- A lookup keeps what a step of the table keeps. -/
theorem afterCall_of_step {P : Residency → Prop} (h : P st.map)
    (hstep : ∀ r, call.addr < st.map.geometry.guestLen →
      TableStep st.map (call.addr / st.map.geometry.blockSize) call.io r → P r) :
    P (st.afterCall call).map := by
  unfold afterCall
  obtain ⟨-, hsame⟩ | ⟨hbelow, htable⟩ := slotRange_step st call.addr call.io
  · rw [hsame]
    exact h
  · exact hstep _ hbelow htable

theorem afterCall_valid (h : st.map.Valid) (call : SlotCall) : (st.afterCall call).map.Valid :=
  afterCall_of_step h fun _ _ hstep => h.step hstep

theorem afterCall_geometry (st : RamStore) (call : SlotCall) :
    (st.afterCall call).map.geometry = st.map.geometry :=
  afterCall_of_step (P := fun r => r.geometry = st.map.geometry) rfl fun _ _ hstep =>
    hstep.geometry

theorem afterCall_covered (h : st.map.Covered) (hsafe : ¬ st.Loses call) :
    (st.afterCall call).map.Covered :=
  afterCall_of_step h fun _ hbelow hstep =>
    h.step hstep fun victim slot hlost => hsafe ⟨hbelow, victim, slot, hlost⟩

theorem afterCall_holed_of_loses (h : st.map.Valid) (hlost : st.Loses call) :
    (st.afterCall call).map.Holed := by
  obtain ⟨hbelow, victim, slot, hlost⟩ := hlost
  obtain ⟨hpast, -⟩ | ⟨-, hstep⟩ := slotRange_step st call.addr call.io
  · exact absurd hbelow (Nat.not_lt.mpr hpast)
  · exact h.holed_of_lost hstep hlost

theorem run_geometry (st : RamStore) (calls : List SlotCall) :
    (calls.foldl afterCall st).map.geometry = st.map.geometry :=
  foldlRecOn calls afterCall (motive := (·.map.geometry = st.map.geometry)) rfl
    fun st' hst call _ => (afterCall_geometry st' call).trans hst

theorem not_covered_of_holed {r : Residency} (h : r.Holed) : ¬ r.Covered := by
  obtain ⟨-, s, hs, hfree⟩ := h
  intro hcovered
  obtain ⟨b, hb⟩ := hcovered s hs
  exact hfree b hb

/-- Over a run, the slots stay owned just as long as no victim is lost. -/
theorem run_covered_iff (hvalid : st.map.Valid) (h : st.map.Covered) (calls : List SlotCall) :
    (calls.foldl afterCall st).map.Covered ↔ NoLoss st calls := by
  induction calls generalizing st with
  | nil => exact iff_of_true h trivial
  | cons call calls ih =>
    show (calls.foldl afterCall (st.afterCall call)).map.Covered ↔ ¬ st.Loses call ∧ _
    by_cases hlost : st.Loses call
    · have hholed := foldlRecOn calls afterCall (motive := (·.map.Holed))
        (afterCall_holed_of_loses hvalid hlost) fun _ hst _ _ =>
          afterCall_of_step hst fun _ _ hstep => hst.step hstep
      exact iff_of_false (not_covered_of_holed hholed) fun hsafe => hsafe.1 hlost
    · rw [ih (afterCall_valid hvalid call) (afterCall_covered h hlost)]
      exact (and_iff_right hlost).symm

/-- After any run of lookups the slot table can be saved and restored, unless a lookup lost
its victim. -/
theorem snapshot_restores_iff (g : BlockGeometry) (ram file : Nat → BitVec 8)
    (calls : List SlotCall) (freshRam freshFile : Nat → BitVec 8) :
    Restores (calls.foldl afterCall ⟨.initLayout g, ram, file⟩).map
        ⟨.initLayout g, freshRam, freshFile⟩ ↔
      NoLoss ⟨.initLayout g, ram, file⟩ calls := by
  have hvalid : (calls.foldl afterCall ⟨.initLayout g, ram, file⟩).map.Valid :=
    foldlRecOn calls afterCall (motive := (·.map.Valid)) (initLayout_valid g)
      fun _ hst call _ => afterCall_valid hst call
  rw [restores_iff_covered hvalid, run_covered_iff (initLayout_valid g)
    (initLayout_covered g)]
  exact (run_geometry ⟨.initLayout g, ram, file⟩ calls).symm

/-- Block 0 is loaded and then lost to a failed swap: its slot counts as used, and no
descriptor names it. -/
theorem snapshot_of_lost_victim_rejected :
    let calls : List SlotCall := [⟨0, ⟨.ok, .ok, .ok⟩⟩, ⟨4096, ⟨.ok, .failed 0, .failed 0⟩⟩]
    let lost := (calls.foldl afterCall oneSlotStore).map
    lost.usedBlocks = 1 ∧ lost.snapshotMap = .ok [.swapped, .swapped] ∧
      (finishSnapshotRestore lost.snapshotGeometry [.swapped, .swapped]).run oneSlotStore =
        .error (.invalid "snapshot resident slots do not form a dense used prefix")
          oneSlotStore := by
  refine ⟨?_, ?_, ?_⟩ <;> rfl

/-- Whatever the file does, no two blocks share a slot, and every slot is inside host memory. -/
theorem slot_table_valid (g : BlockGeometry) (ram file : Nat → BitVec 8) (calls : List SlotCall) :
    (calls.foldl afterCall ⟨.initLayout g, ram, file⟩).map.Valid :=
  foldlRecOn calls afterCall (motive := (·.map.Valid)) (initLayout_valid g)
    fun _ hst call _ => afterCall_valid hst call

/-! ## The cached verdict on the table -/

/-- A change of the table. -/
inductive TableCall
  | slotRange (call : SlotCall)
  | finishSnapshotRestore (saved : SnapshotGeometry) (map : List SnapshotResidency)

def afterTableCall (st : RamStore) : TableCall → RamStore
  | .slotRange call => st.afterCall call
  | .finishSnapshotRestore saved map => finalState ((finishSnapshotRestore saved map).run st)

/-- The verdict cached is the one a scan gives. -/
def VerdictExact (st : RamStore) : Prop := st.map.identityMap = st.map.scanIdentityMap

/-- All of the guest fits, the lookup's block is the only one out of place, and it is loaded into
the next free slot, which is its own. -/
structure CompletesIdentity (r : Residency) (call : SlotCall) : Prop where
  fits : r.geometry.fullResidency
  below : call.addr < r.geometry.guestLen
  swappedOut : r.blocks (call.addr / r.geometry.blockSize) = none
  others : ∀ b < r.geometry.numBlocks, b ≠ call.addr / r.geometry.blockSize →
    r.blocks b = some (b * r.geometry.blockSize)
  nextFree : r.usedBlocks = call.addr / r.geometry.blockSize
  room : r.usedBlocks < r.geometry.capacity
  loaded : call.io.readTarget = .ok

def LoadsIdentity (st : RamStore) : TableCall → Prop
  | .slotRange call => CompletesIdentity st.map call
  | .finishSnapshotRestore _ _ => False

theorem scanIdentityMap_of_out {r : Residency} {block : Nat} (hrange : block < r.geometry.numBlocks)
    (hout : r.blocks block = none) : r.scanIdentityMap = false := by
  apply Bool.eq_false_of_not_eq_true
  intro hscan
  have hblock := all_eq_true.mp (Bool.and_eq_true_iff.mp hscan).2 block (mem_range.mpr hrange)
  rw [hout] at hblock
  cases hblock

theorem scanIdentityMap_iff {r : Residency} : r.scanIdentityMap = true ↔
    r.geometry.fullResidency ∧
      ∀ b < r.geometry.numBlocks, r.blocks b = some (b * r.geometry.blockSize) := by
  simp [scanIdentityMap]

theorem CompletesIdentity.loadsFresh {r : Residency} (h : CompletesIdentity r call) :
    LoadsFresh r (call.addr / r.geometry.blockSize) call.io where
  inRange := r.geometry.div_lt_numBlocks h.below
  swappedOut := h.swappedOut
  room := h.room
  loaded := by
    have hend : (r.usedBlocks + 1) * r.geometry.blockSize ≤ r.geometry.residentLen :=
      (Nat.mul_le_mul_right _ h.room).trans (Nat.div_mul_le_self _ _)
    rw [Nat.succ_mul] at hend
    have hlt := r.geometry.residentLen_lt
    rintro (hfails | hfails | hfails)
    · omega
    · omega
    · exact hfails h.loaded

/-- The table is the identity map after a load exactly if only the loaded block was missing. -/
theorem scanIdentityMap_openSlot {r : Residency} (hbelow : call.addr < r.geometry.guestLen)
    (hfresh : LoadsFresh r (call.addr / r.geometry.blockSize) call.io) :
    (r.openSlot (call.addr / r.geometry.blockSize)
        (r.usedBlocks * r.geometry.blockSize)).scanIdentityMap = true ↔
      CompletesIdentity r call := by
  rw [scanIdentityMap_iff]
  constructor
  · rintro ⟨hfits, hblocks⟩
    have hown : some (r.usedBlocks * r.geometry.blockSize) = some (_ * r.geometry.blockSize) :=
      (if_pos rfl).symm.trans (hblocks _ hfresh.inRange)
    have hloaded : call.io.readTarget = .ok := by
      by_contra hio
      exact hfresh.loaded (.inr (.inr hio))
    exact ⟨hfits, hbelow, hfresh.swappedOut,
      fun b hb hne => (if_neg hne).symm.trans (hblocks b hb),
      slot_injective (Option.some.inj hown), hfresh.room, hloaded⟩
  · intro h
    refine ⟨h.fits, fun b hb => ?_⟩
    show (if b = _ then _ else r.blocks b) = some (b * r.geometry.blockSize)
    split
    next heq => rw [h.nextFree, heq]
    next hne => exact h.others b hb hne

theorem scanIdentityMap_handOver {r : Residency} {block victim slot cursor : Nat}
    (hevicts : Evicts r block victim slot) :
    ((r.withCursor cursor).handOver block victim slot).scanIdentityMap = false := by
  have hne : victim ≠ block := by
    rintro rfl
    exact nomatch hevicts.swappedOut.symm.trans (nextVictim_found hevicts.found)
  have hlt := nextVictim_lt hevicts.cursor hevicts.found
  exact scanIdentityMap_of_out (r := (r.withCursor cursor).handOver block victim slot) hlt
    ((if_neg hne).trans (if_pos rfl))

/-- Every change of the table but a load sees to the verdict itself; a load takes it to be
false afterwards. -/
theorem verdict_afterTableCall (h : st.VerdictExact) (call : TableCall) :
    (st.afterTableCall call).VerdictExact ↔ ¬ st.LoadsIdentity call := by
  cases call with
  | finishSnapshotRestore saved map =>
    refine iff_of_true ?_ not_false
    show (finalState (RamStore.finishSnapshotRestore saved map st)).VerdictExact
    unfold RamStore.finishSnapshotRestore
    split
    · exact h
    · split <;> first | exact h | rfl
  | slotRange call =>
    constructor
    · intro hexact hcompletes
      have hmap := slotRange_fresh hcompletes.below hcompletes.loadsFresh
      have hscan := (scanIdentityMap_openSlot hcompletes.below hcompletes.loadsFresh).mpr hcompletes
      have hexact : (st.afterCall call).map.identityMap = (st.afterCall call).map.scanIdentityMap :=
        hexact
      rw [afterCall, hmap, hscan] at hexact
      cases hexact
    · intro hmisses
      refine afterCall_of_step (P := fun r => r.identityMap = r.scanIdentityMap) h
        fun r hbelow hstep => ?_
      cases hstep with
      | kept cursor _ _ => exact h
      | fresh hfresh =>
        exact (Bool.eq_false_of_not_eq_true fun hscan =>
          hmisses ((scanIdentityMap_openSlot hbelow hfresh).mp hscan)).symm
      | swapped victim slot cursor hevicts _ _ => exact (scanIdentityMap_handOver hevicts).symm
      | lost victim slot cursor hlost _ =>
        have hout := hlost.evicts.swappedOut
        rw [scanIdentityMap_of_out (r := (st.map.withCursor cursor).setBlock victim none)
          hlost.evicts.inRange (ite_eq_left_iff.mpr fun _ => hout)]
        exact h.trans (scanIdentityMap_of_out hlost.evicts.inRange hout)

/-- The cached verdict is exact as long as no load completes the identity map. -/
theorem identity_verdict_exact_iff (g : BlockGeometry) (ram file : Nat → BitVec 8)
    (calls : List TableCall) :
    (∀ st ∈ calls.scanl afterTableCall ⟨.initLayout g, ram, file⟩, st.VerdictExact) ↔
      StepsMeet afterTableCall (fun st call => ¬ st.LoadsIdentity call)
        ⟨.initLayout g, ram, file⟩ calls := by
  refine forall_scanl_iff_stepsMeet_of_inv (P := VerdictExact) (I := fun _ => True)
    (fun _ _ _ _ => trivial) (fun _ call _ h => verdict_afterTableCall h call) trivial ?_ calls
  unfold VerdictExact scanIdentityMap
  cases hfull : g.fullResidency <;> simp [initLayout, hfull]

/-- A guest of two blocks, all of it resident. -/
def twoSlots : BlockGeometry := { oneSlot with
  hostLen := 8192
  residentLen := 8192
  residentLen_eq := by decide
  residentLen_pos := by decide
  residentLen_lt := by decide }

/-- A snapshot with block 1 swapped out is restored, and block 1 loaded again. -/
theorem reloaded_identity_unnoticed :
    let st := [.finishSnapshotRestore ⟨8192, 8192, 4096, 2, 2, 1, 0⟩ [.resident 0, .swapped],
      .slotRange ⟨4096, ⟨.ok, .ok, .ok⟩⟩].foldl afterTableCall
      ⟨.initLayout twoSlots, fun _ => 0#8, fun _ => 0#8⟩
    st.map.identityMap = false ∧ st.map.scanIdentityMap = true := by
  decide +kernel

end RamStore

end RustyBox
