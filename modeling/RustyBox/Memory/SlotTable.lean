-- SUMMARY: What every allocation keeps of the slot table, and when it announces a change.
import RustyBox.Memory.Residency

/-!
# The slot table

An allocation never puts two blocks in one slot, nor a block outside the resident region.
The swap epoch tells the holder of a cached offset that the table has moved; it is bumped
where a block gets a slot, and on no other path.
-/

namespace RustyBox

open BlockGeometry

namespace BlockGeometry

variable {g : BlockGeometry}

/-- `resident_capacity`: a fully backed guest has a slot for its short last block as well. -/
def residentCapacity (g : BlockGeometry) : Nat :=
  if g.fullResidency then g.numBlocks else min g.capacity g.numBlocks

theorem blockSize_pos : 0 < g.blockSize := by
  have hpow := g.blockSize_pow
  simp only [isPowerOf2, decide_eq_true_eq] at hpow
  exact Nat.pos_of_ne_zero hpow.1

theorem logicalBlockLen_le (block : Nat) : g.logicalBlockLen block ≤ g.blockSize :=
  Nat.min_le_right _ _

/-- Every block of the map begins inside guest RAM. -/
theorem start_lt_guestLen {block : Nat} (h : block < g.numBlocks) :
    block * g.blockSize < g.guestLen := by
  have hpos := g.blockSize_pos
  rw [g.numBlocks_eq] at h
  have hmul : (block + 1) * g.blockSize ≤ g.guestLen + (g.blockSize - 1) :=
    (Nat.le_div_iff_mul_le hpos).mp h
  rw [Nat.add_mul] at hmul
  omega

theorem div_lt_numBlocks {addr : Nat} (h : addr < g.guestLen) :
    addr / g.blockSize < g.numBlocks := by
  have hpos := g.blockSize_pos
  rw [g.numBlocks_eq, Nat.div_lt_iff_lt_mul hpos]
  have hceil := Nat.lt_mul_div_succ (g.guestLen + (g.blockSize - 1)) hpos
  have hcomm := Nat.mul_comm g.blockSize ((g.guestLen + (g.blockSize - 1)) / g.blockSize + 1)
  rw [Nat.add_mul] at hcomm
  omega

theorem slot_end_le {s : Nat} (h : s < g.capacity) :
    s * g.blockSize + g.blockSize ≤ g.residentLen := by
  have hmul := (Nat.le_div_iff_mul_le g.blockSize_pos).mp (show s + 1 ≤ _ from h)
  rw [Nat.add_mul] at hmul
  omega

theorem residentCapacity_le (hswaps : g.fullResidency = false) :
    g.residentCapacity ≤ g.capacity := by
  simp only [residentCapacity, hswaps]
  exact Nat.min_le_left _ _

/-- A guest that has to be swapped has no more slots than blocks. -/
theorem residentCapacity_eq (hswaps : g.fullResidency = false) :
    g.residentCapacity = g.capacity := by
  have hlt : g.hostLen < g.guestLen := by simpa [fullResidency] using hswaps
  have hle : g.capacity ≤ g.numBlocks := by
    rw [capacity, g.residentLen_eq, residentLenOf, if_pos hlt,
      Nat.mul_div_cancel _ g.blockSize_pos, g.numBlocks_eq]
    exact Nat.div_le_div_right (by omega)
  simp [residentCapacity, hswaps, hle]

end BlockGeometry

namespace Residency

variable {r r' : Residency} {block : Nat} {io : SwapIo}

open RamStore

/-! ## Slots are owned -/

/-- The block table is in order. -/
structure Valid (r : Residency) : Prop where
  cursor : r.nextSwapout < r.geometry.numBlocks ∨ r.nextSwapout = 0
  inRange : ∀ b o, r.blocks b = some o → b < r.geometry.numBlocks
  slots : ∀ b o, r.blocks b = some o → ∃ s < r.usedBlocks, o = s * r.geometry.blockSize
  unshared : ∀ b b' o, r.blocks b = some o → r.blocks b' = some o → b = b'
  bound : r.usedBlocks ≤ r.geometry.residentCapacity
  fits : ∀ b o, r.blocks b = some o → o + r.geometry.logicalBlockLen b ≤ r.geometry.residentLen
  full : r.geometry.fullResidency → ∀ b < r.geometry.numBlocks, r.blocks b ≠ none

theorem slot_injective {g : BlockGeometry} {s t : Nat} (h : s * g.blockSize = t * g.blockSize) :
    s = t :=
  Nat.eq_of_mul_eq_mul_right g.blockSize_pos h

/-- The layout of a fresh map is in order. -/
theorem initLayout_valid (g : BlockGeometry) : (initLayout g).Valid := by
  have hmem : ∀ b o, (initLayout g).blocks b = some o →
      g.fullResidency = true ∧ b < g.numBlocks ∧ b * g.blockSize = o := by
    intro b o h
    simp only [initLayout, Option.ite_none_right_eq_some, Option.some.injEq] at h
    exact ⟨h.1.1, h.1.2, h.2⟩
  constructor
  case cursor => exact .inr rfl
  case inRange => exact fun b o h => (hmem b o h).2.1
  case slots =>
    intro b o h
    obtain ⟨hfull, hb, rfl⟩ := hmem b o h
    exact ⟨b, by simpa [initLayout, hfull] using hb, rfl⟩
  case unshared =>
    intro b b' o h h'
    exact slot_injective ((hmem b o h).2.2.trans (hmem b' o h').2.2.symm)
  case bound =>
    by_cases hfull : g.fullResidency = true
    · simp [initLayout, BlockGeometry.residentCapacity, hfull]
    · simp [initLayout, hfull]
  case fits =>
    intro b o h
    obtain ⟨hfull, hb, rfl⟩ := hmem b o h
    have hstart := g.start_lt_guestLen hb
    have hhost : g.guestLen ≤ g.hostLen := by simpa [BlockGeometry.fullResidency] using hfull
    show b * g.blockSize + g.logicalBlockLen b ≤ g.residentLen
    rw [g.residentLen_eq, residentLenOf, if_neg (Nat.not_lt.mpr hhost)]
    have hlen : g.logicalBlockLen b ≤ g.guestLen - b * g.blockSize := Nat.min_le_left _ _
    omega
  case full =>
    intro hfull b hb h
    have hfull' : g.fullResidency = true := hfull
    simp [initLayout, hfull', show b < g.numBlocks from hb] at h

/-- A map with a block swapped out is one that swaps. -/
theorem Valid.swaps (h : r.Valid) (hrange : block < r.geometry.numBlocks)
    (hout : r.blocks block = none) : r.geometry.fullResidency = false := by
  cases hfull : r.geometry.fullResidency with
  | false => rfl
  | true => exact absurd hout (h.full hfull block hrange)

theorem Valid.withCursor (h : r.Valid) {cursor : Nat}
    (hcursor : cursor < r.geometry.numBlocks ∨ cursor = 0) : (r.withCursor cursor).Valid :=
  ⟨hcursor, h.inRange, h.slots, h.unshared, h.bound, h.fits, h.full⟩

theorem setBlock_none_some {victim b o : Nat} (h : (r.setBlock victim none).blocks b = some o) :
    r.blocks b = some o := by
  simp only [setBlock] at h
  split at h
  · cases h
  · exact h

/-- A block may always give up its slot. -/
theorem Valid.release (h : r.Valid) (hswaps : r.geometry.fullResidency = false) (victim : Nat) :
    (r.setBlock victim none).Valid where
  __ := h
  inRange b o hb := h.inRange b o (setBlock_none_some hb)
  slots b o hb := h.slots b o (setBlock_none_some hb)
  unshared b b' o hb hb' := h.unshared b b' o (setBlock_none_some hb) (setBlock_none_some hb')
  fits b o hb := h.fits b o (setBlock_none_some hb)
  full hfull := by
    rw [show (r.setBlock victim none).geometry = r.geometry from rfl, hswaps] at hfull
    cases hfull

theorem setBlock_some {slot b o : Nat} (h : (r.setBlock block (some slot)).blocks b = some o) :
    b = block ∧ o = slot ∨ b ≠ block ∧ r.blocks b = some o := by
  simp only [setBlock] at h
  split at h
  · next hb => exact .inl ⟨hb, (Option.some.inj h).symm⟩
  · next hb => exact .inr ⟨hb, h⟩

/-- A block may take a slot that is inside the region and that nobody owns. -/
theorem Valid.place (h : r.Valid) (hrange : block < r.geometry.numBlocks) {s : Nat}
    (hs : s < r.usedBlocks) (hfree : ∀ b, r.blocks b ≠ some (s * r.geometry.blockSize))
    (hend : s * r.geometry.blockSize + r.geometry.blockSize ≤ r.geometry.residentLen) :
    (r.setBlock block (some (s * r.geometry.blockSize))).Valid := by
  constructor
  case cursor => exact h.cursor
  case inRange =>
    intro b o hb
    obtain ⟨rfl, -⟩ | ⟨-, hold⟩ := setBlock_some hb
    · exact hrange
    · exact h.inRange b o hold
  case slots =>
    intro b o hb
    obtain ⟨-, rfl⟩ | ⟨-, hold⟩ := setBlock_some hb
    · exact ⟨s, hs, rfl⟩
    · exact h.slots b o hold
  case unshared =>
    intro b b' o hb hb'
    obtain ⟨rfl, rfl⟩ | ⟨-, hold⟩ := setBlock_some hb
    · obtain ⟨rfl, -⟩ | ⟨-, hold'⟩ := setBlock_some hb'
      · rfl
      · exact absurd hold' (hfree b')
    · obtain ⟨rfl, rfl⟩ | ⟨-, hold'⟩ := setBlock_some hb'
      · exact absurd hold (hfree b)
      · exact h.unshared b b' o hold hold'
  case bound => exact h.bound
  case fits =>
    intro b o hb
    obtain ⟨-, rfl⟩ | ⟨-, hold⟩ := setBlock_some hb
    · exact Nat.le_trans (Nat.add_le_add_left (BlockGeometry.logicalBlockLen_le b) _) hend
    · exact h.fits b o hold
  case full =>
    intro hfull b hb hnone
    simp only [setBlock] at hnone
    split at hnone
    · cases hnone
    · exact h.full hfull b hb hnone

/-- One more slot comes into use. -/
theorem Valid.grow (h : r.Valid) (hroom : r.usedBlocks < r.geometry.residentCapacity) :
    Valid { r with usedBlocks := r.usedBlocks + 1 } where
  __ := h
  slots b o hb := by
    obtain ⟨s, hs, ho⟩ := h.slots b o hb
    exact ⟨s, Nat.lt_succ_of_lt hs, ho⟩
  bound := hroom

/-- The epoch and the cached verdict are no part of the order of the table. -/
theorem Valid.announced (h : r.Valid) (identityMap : Bool) :
    Valid { r.bumpSwapEpoch with identityMap := identityMap } :=
  ⟨h.cursor, h.inRange, h.slots, h.unshared, h.bound, h.fits, h.full⟩

theorem Valid.openSlot (h : r.Valid) (hrange : block < r.geometry.numBlocks)
    (hout : r.blocks block = none) (hroom : r.usedBlocks < r.geometry.capacity) :
    (r.openSlot block (r.usedBlocks * r.geometry.blockSize)).Valid := by
  have hswaps := h.swaps hrange hout
  have hgrown := h.grow ((residentCapacity_eq hswaps).symm ▸ hroom)
  refine (hgrown.place hrange (Nat.lt_succ_self _) (fun b hb => ?_)
    (slot_end_le hroom)).announced false
  obtain ⟨s, hs, heq⟩ := h.slots b _ hb
  exact absurd (slot_injective heq) (Nat.ne_of_gt hs)

theorem Valid.handOver (h : r.Valid) {victim slot : Nat} (hrange : block < r.geometry.numBlocks)
    (hout : r.blocks block = none) (howner : r.blocks victim = some slot) :
    (r.handOver block victim slot).Valid := by
  have hswaps := h.swaps hrange hout
  obtain ⟨s, hs, rfl⟩ := h.slots victim slot howner
  have hcapacity : s < r.geometry.capacity :=
    Nat.lt_of_lt_of_le hs (Nat.le_trans h.bound (residentCapacity_le hswaps))
  refine ((h.release hswaps victim).place hrange hs (fun b hb => ?_)
    (slot_end_le hcapacity)).announced false
  have hvictim := h.unshared b victim _ (setBlock_none_some hb) howner
  simp [setBlock, hvictim] at hb

/-- No allocation puts the table out of order, however its file operations turn out. -/
theorem Valid.step (h : r.Valid) (hstep : TableStep r block io r') : r'.Valid := by
  cases hstep with
  | kept cursor hsafe hcursor =>
    refine h.withCursor (hcursor.elim (fun hsame => ?_) .inl)
    rw [hsame]
    exact h.cursor
  | fresh hfresh => exact h.openSlot hfresh.inRange hfresh.swappedOut hfresh.room
  | swapped victim slot cursor hevicts hloaded hcursor =>
    have howner : r.blocks victim = some slot := nextVictim_found hevicts.found
    exact (h.withCursor (.inl hcursor)).handOver hevicts.inRange hevicts.swappedOut howner
  | lost victim slot cursor hlost hcursor =>
    exact (h.withCursor (.inl hcursor)).release
      (h.swaps hlost.evicts.inRange hlost.evicts.swappedOut) victim

/-! ## The swap epoch -/

/-- If some block gained, lost or changed its slot, the epoch went up or was at its limit. -/
def EpochAnnounces (r r' : Residency) : Prop :=
  (∃ b, r'.blocks b ≠ r.blocks b) →
    r.swapEpoch < r'.swapEpoch ∨ r.swapEpoch = BitVec.allOnes 64

theorem bumpSwapEpoch_lt (h : r.swapEpoch ≠ BitVec.allOnes 64) :
    r.swapEpoch < r.bumpSwapEpoch.swapEpoch := by
  simp only [bumpSwapEpoch, if_neg h]
  have hne : r.swapEpoch ≠ 0xFFFFFFFFFFFFFFFF#64 := h
  bv_omega

theorem epochAnnounces_of_bump (h : r'.swapEpoch = r.bumpSwapEpoch.swapEpoch) :
    r.EpochAnnounces r' := by
  intro _
  by_cases hmax : r.swapEpoch = BitVec.allOnes 64
  · exact .inr hmax
  · exact .inl (h ▸ bumpSwapEpoch_lt hmax)

/-- The one silent change of the table is the loss of a victim. -/
theorem epochAnnounces_step (hstep : TableStep r block io r') :
    r.EpochAnnounces r' ↔
      r.swapEpoch = BitVec.allOnes 64 ∨ ∀ victim slot, ¬ LosesVictim r block io victim slot := by
  cases hstep with
  | kept cursor hsafe hcursor =>
    exact iff_of_true (fun ⟨b, hb⟩ => absurd rfl hb) (.inr hsafe)
  | fresh hfresh =>
    refine iff_of_true (epochAnnounces_of_bump rfl) (.inr fun victim slot hlost => ?_)
    exact absurd hlost.evicts.full (Nat.not_le.mpr hfresh.room)
  | swapped victim slot cursor hevicts hloaded hcursor =>
    refine iff_of_true (epochAnnounces_of_bump rfl) (.inr fun victim' slot' hlost => ?_)
    obtain ⟨rfl, rfl⟩ := hevicts.unique hlost.evicts
    exact hloaded hlost.reload
  | lost victim slot cursor hlost hcursor =>
    have howner := nextVictim_found hlost.evicts.found
    have hchanged : ((r.withCursor cursor).setBlock victim none).blocks victim ≠
        r.blocks victim := by
      simp [setBlock, howner]
    constructor
    · intro hannounces
      obtain hlt | hmax := hannounces ⟨victim, hchanged⟩
      · exact absurd hlt (BitVec.lt_irrefl _)
      · exact .inl hmax
    · rintro (hmax | hsafe)
      · exact fun _ => .inr hmax
      · exact absurd hlost (hsafe victim slot)

end Residency

namespace RamStore

open Lib

/-- A change of the table by an allocation, or by a lookup that allocates, goes unannounced
just when a victim that was written out can be neither replaced nor restored. -/
theorem swapEpoch_announces_iff (st : RamStore) (io : SwapIo) :
    (∀ block, st.map.EpochAnnounces (finalState ((allocateBlock block io).run st)).map ↔
      st.map.swapEpoch = BitVec.allOnes 64 ∨
        ∀ victim slot, ¬ LosesVictim st.map block io victim slot) ∧
    (∀ addr, st.map.EpochAnnounces (finalState ((slotRange addr io).run st)).map ↔
      st.map.swapEpoch = BitVec.allOnes 64 ∨ st.map.geometry.guestLen ≤ addr ∨
        ∀ victim slot, ¬ LosesVictim st.map (addr / st.map.geometry.blockSize) io victim slot) := by
  refine ⟨fun block => Residency.epochAnnounces_step (allocateBlock_step st block io),
    fun addr => ?_⟩
  obtain ⟨hpast, hsame⟩ | ⟨hbelow, hstep⟩ := slotRange_step st addr io
  · rw [hsame]
    exact iff_of_true (fun ⟨b, hb⟩ => absurd rfl hb) (.inr (.inl hpast))
  · rw [Residency.epochAnnounces_step hstep]
    simp [Nat.not_le.mpr hbelow]

/-- A guest of two blocks with a slot for one. -/
def oneSlot : BlockGeometry where
  guestLen := 8192
  hostLen := 4096
  residentLen := 4096
  blockSize := 4096
  numBlocks := 2
  blockSize_pow := by decide
  blockSize_lt := by decide
  residentLen_eq := by decide
  residentLen_pos := by decide
  numBlocks_eq := by decide
  numBlocks_le := by decide
  guestLen_lt := by decide
  residentLen_lt := by decide

example : BlockGeometry.new 8192#64 4096#64 4096#64 = .ok oneSlot := rfl

/-- The map `oneSlot` starts from, over memory and a file that are all zero. -/
def oneSlotStore : RamStore := ⟨.initLayout oneSlot, fun _ => 0#8, fun _ => 0#8⟩

/-- Block 0 is loaded; the swap that should bring in block 1 writes it out and then fails to
read either block. -/
theorem lost_victim_unannounced :
    let loaded := finalState ((slotRange 0 ⟨.ok, .ok, .ok⟩).run oneSlotStore)
    let after := finalState ((slotRange 4096 ⟨.ok, .failed 0, .failed 0⟩).run loaded)
    loaded.map.blocks 0 = some 0 ∧ after.map.blocks 0 = none ∧
      loaded.map.swapEpoch = 1#64 ∧ after.map.swapEpoch = 1#64 := by
  decide +kernel

end RamStore

end RustyBox
