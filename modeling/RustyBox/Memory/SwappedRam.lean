-- SUMMARY: Transfers to and from swapped RAM, and that they are those of flat RAM.
import RustyBox.Cpu.Machine
import RustyBox.Memory.ResidencySnapshot

/-!
# Swapped RAM is RAM

A transfer goes through the slot table chunk by chunk: a chunk ends with its page, its block,
guest RAM or the request, and each may bring a block in and send another out. Seen as one
array of bytes, resident ones in their slots and the others in the file, RAM does not change
when a block moves.
-/

namespace RustyBox

open Lib List Nat BlockGeometry

/-! ## Transfers -/

namespace RamStore

/-- Where the byte at an address is in RAM, past the A20 line and the PCI hole. -/
def ramAddress (m : Machine) (addr : Nat) : Nat :=
  translateGpaToLinear (m.applyA20 (BitVec.ofNat 64 addr)).toNat

/-- The A20-masked address and the RAM offset a chunk starts at; `none` ends the transfer. -/
def nextSpan (m : Machine) (guestLen addr : Nat) (what : String) :
    Except RamError (Option (Nat × Nat)) :=
  if 2 ^ 64 ≤ addr then .error (.internal what)
  else
    let a20 := m.applyA20 (BitVec.ofNat 64 addr)
    if pciHoleStart ≤ a20.toNat ∧ a20.toNat < pciHoleEnd then .ok none
    else .ok ((guestRamSpan a20 1 guestLen).map fun off => (a20.toNat, off))

/-- How much of a resident span one pass copies. -/
def chunkLen (a20 span remaining : Nat) : Nat :=
  let pageLeft := 0x1000 - a20 % 0x1000
  let holeLeft := if a20 < pciHoleStart then pciHoleStart - a20 else 2 ^ 64 - 1
  min (min (min span pageLeft) holeLeft) remaining

/-- The loop of `read_ram`; `out` is what has been copied. The file operations of each pass
turn out as `io` says. -/
def readLoop (m : Machine) (addr len : Nat) (io : Nat → SwapIo) :
    Nat → List (BitVec 8) → RamM (List (BitVec 8))
  | 0, out => pure out
  | fuel + 1, out => fun st =>
    if len ≤ out.length then .ok out st
    else match nextSpan m st.map.geometry.guestLen (addr + out.length)
        "RAM read address overflow" with
      | .error e => .error e st
      | .ok none => .ok out st
      | .ok (some (a20, off)) =>
        match (slotRange off (io out.length)).run st with
        | .error e st => if out.length ≠ 0 then .ok out st else .error e st
        | .ok (start, span) st =>
          let count := chunkLen a20 span (len - out.length)
          if count = 0 then .ok out st
          else (readLoop m addr len io fuel
            (out ++ (range count).map fun i => st.ram (start + i))).run st

/-- `read_ram`; a pass that does not end the loop copies a byte, so `len` passes will do. -/
def readRam (m : Machine) (addr len : Nat) (io : Nat → SwapIo) : RamM (List (BitVec 8)) :=
  readLoop m addr len io len []

/-- Bytes of the resident region, overwritten from a position of the data on. -/
def putBytes (st : RamStore) (start count : Nat) (data : List (BitVec 8)) : RamStore :=
  { st with
    ram := fun o => if start ≤ o ∧ o < start + count then data.getD (o - start) 0#8 else st.ram o }

/-- The loop of `write_ram`; the write stamps are no part of RAM. -/
def writeLoop (m : Machine) (addr : Nat) (data : List (BitVec 8)) (io : Nat → SwapIo) :
    Nat → Nat → RamM Nat
  | 0, copied => pure copied
  | fuel + 1, copied => fun st =>
    if data.length ≤ copied then .ok copied st
    else match nextSpan m st.map.geometry.guestLen (addr + copied)
        "RAM write address overflow" with
      | .error e => .error e st
      | .ok none => .ok copied st
      | .ok (some (a20, off)) =>
        match (slotRange off (io copied)).run st with
        | .error e st => if copied ≠ 0 then .ok copied st else .error e st
        | .ok (start, span) st =>
          let count := chunkLen a20 span (data.length - copied)
          if count = 0 then .ok copied st
          else (writeLoop m addr data io fuel (copied + count)).run
            (st.putBytes start count (data.drop copied))

/-- `write_ram`. -/
def writeRam (m : Machine) (addr : Nat) (data : List (BitVec 8)) (io : Nat → SwapIo) : RamM Nat :=
  writeLoop m addr data io data.length 0

/-! ## RAM as one array -/

/-- The byte of guest RAM at an offset, wherever it is kept. -/
def flat (st : RamStore) (off : Nat) : BitVec 8 :=
  match st.map.blocks (off / st.map.geometry.blockSize) with
  | some slot => st.ram (slot + off % st.map.geometry.blockSize)
  | none => st.file off

/-- The store keeps the bytes of a flat RAM, in a table that is in order. -/
structure Holds (st : RamStore) (g : BlockGeometry) (bytes : Nat → BitVec 8) : Prop where
  geometry : st.map.geometry = g
  valid : st.map.Valid
  covered : st.map.Covered
  flat : ∀ off < g.guestLen, st.flat off = bytes off

variable {st : RamStore}

theorem flat_resident (st : RamStore) {off slot : Nat}
    (h : st.map.blocks (off / st.map.geometry.blockSize) = some slot) :
    st.flat off = st.ram (slot + off % st.map.geometry.blockSize) := by
  unfold flat
  rw [h]

theorem flat_swappedOut (st : RamStore) {off : Nat}
    (h : st.map.blocks (off / st.map.geometry.blockSize) = none) : st.flat off = st.file off := by
  unfold flat
  rw [h]

end RamStore

namespace BlockGeometry

variable {g : BlockGeometry}

theorem offset_lt (g : BlockGeometry) (off : Nat) : off % g.blockSize < g.blockSize :=
  mod_lt _ g.blockSize_pos

/-- A byte of RAM is within the part of its block that RAM has. -/
theorem offset_lt_logicalBlockLen {off : Nat} (h : off < g.guestLen) :
    off % g.blockSize < g.logicalBlockLen (off / g.blockSize) := by
  have hdiv := div_add_mod' off g.blockSize
  have hlt := g.offset_lt off
  unfold logicalBlockLen
  omega

theorem slot_div {s i : Nat} (hi : i < g.blockSize) : (s * g.blockSize + i) / g.blockSize = s := by
  rw [mul_comm, mul_add_div g.blockSize_pos, div_eq_of_lt hi, add_zero]

/-- Different slots have no byte in common. -/
theorem slot_apart {s t i : Nat} (hst : s ≠ t) (hi : i < g.blockSize) :
    ¬ (t * g.blockSize ≤ s * g.blockSize + i ∧
      s * g.blockSize + i < t * g.blockSize + g.blockSize) := by
  rintro ⟨hle, hlt⟩
  obtain ⟨j, hj⟩ := Nat.exists_eq_add_of_le hle
  have hs : (s * g.blockSize + i) / g.blockSize = s := slot_div hi
  rw [hj, slot_div (by omega)] at hs
  exact hst hs.symm

end BlockGeometry

namespace RamStore

variable {st : RamStore}

/-! ## Moving a block does not change RAM -/

theorem fillSlot_inside (st : RamStore) {block slot n i : Nat}
    (hi : i < st.map.geometry.blockSize) (hn : i < n) :
    (st.fillSlot block slot n).ram (slot + i) =
      st.file (block * st.map.geometry.blockSize + i) := by
  simp only [fillSlot, Nat.add_sub_cancel_left]
  rw [if_pos (by omega), if_pos (by omega)]

/-- A block's write-back reaches its own bytes of the file and no others. -/
theorem writeBack_file (victim slot : Nat) {off : Nat} (hoff : off < st.map.geometry.guestLen) :
    (st.writeBack victim slot (st.map.geometry.logicalBlockLen victim)).file off =
      if off / st.map.geometry.blockSize = victim then
        st.ram (slot + off % st.map.geometry.blockSize)
      else st.file off := by
  have hdiv := div_add_mod' off st.map.geometry.blockSize
  simp only [writeBack]
  by_cases hvictim : off / st.map.geometry.blockSize = victim
  · have hlen := offset_lt_logicalBlockLen hoff
    rw [hvictim] at hlen hdiv
    rw [if_pos hvictim, if_pos (by omega)]
    congr 2
    omega
  · rw [if_neg hvictim, if_neg]
    have hshort := logicalBlockLen_le (g := st.map.geometry) victim
    have hne := slot_apart hvictim (st.map.geometry.offset_lt off)
    omega

/-- The store after a block was brought into the first slot nobody has had. -/
def afterLoad (st : RamStore) (block : Nat) : RamStore :=
  { st.fillSlot block (st.map.usedBlocks * st.map.geometry.blockSize)
      (st.map.geometry.logicalBlockLen block) with
    map := st.map.openSlot block (st.map.usedBlocks * st.map.geometry.blockSize) }

/-- Bringing a block into a slot that no resident block has. -/
theorem flat_fillSlot (st : RamStore) {map : Residency} {block t off : Nat}
    (hgeometry : map.geometry = st.map.geometry)
    (hblocks : ∀ b, map.blocks b =
      if b = block then some (t * st.map.geometry.blockSize) else st.map.blocks b)
    (hslots : ∀ b o, st.map.blocks b = some o → ∃ s ≠ t, o = s * st.map.geometry.blockSize)
    (hout : st.map.blocks block = none) (hoff : off < st.map.geometry.guestLen) :
    flat { st.fillSlot block (t * st.map.geometry.blockSize)
      (st.map.geometry.logicalBlockLen block) with map := map } off = st.flat off := by
  have hlt := st.map.geometry.offset_lt off
  unfold flat
  rw [hgeometry, hblocks]
  by_cases hblock : off / st.map.geometry.blockSize = block
  · subst hblock
    rw [if_pos rfl, hout]
    dsimp only
    rw [fillSlot_inside st hlt (offset_lt_logicalBlockLen hoff), div_add_mod']
  · rw [if_neg hblock]
    cases hslot : st.map.blocks (off / st.map.geometry.blockSize) with
    | none => rfl
    | some slot =>
      obtain ⟨s, hs, rfl⟩ := hslots _ _ hslot
      exact if_neg (slot_apart hs hlt)

theorem flat_afterLoad (h : st.map.Valid) {block off : Nat} (hout : st.map.blocks block = none)
    (hoff : off < st.map.geometry.guestLen) : (st.afterLoad block).flat off = st.flat off := by
  refine flat_fillSlot st rfl (fun _ => rfl) (fun b o hb => ?_) hout hoff
  obtain ⟨s, hs, ho⟩ := h.slots b o hb
  exact ⟨s, Nat.ne_of_lt hs, ho⟩

/-- The store after a block was written out and its slot given up. -/
def afterEvict (st : RamStore) (victim slot : Nat) : RamStore :=
  { st.writeBack victim slot (st.map.geometry.logicalBlockLen victim) with
    map := { st.map with blocks := fun b => if b = victim then none else st.map.blocks b } }

theorem flat_afterEvict {victim slot off : Nat} (howner : st.map.blocks victim = some slot)
    (hoff : off < st.map.geometry.guestLen) : (st.afterEvict victim slot).flat off = st.flat off := by
  have hfile := writeBack_file victim slot hoff
  unfold flat
  dsimp only [afterEvict]
  split_ifs with hvictim
  · rw [hvictim, howner]
    exact hfile.trans (if_pos hvictim)
  · cases st.map.blocks (off / st.map.geometry.blockSize) with
    | none => exact hfile.trans (if_neg hvictim)
    | some slot => rfl

/-- Handing a slot over after its bytes were written out. -/
theorem flat_afterSwap (st : RamStore) (h : st.map.Valid) {block victim slot off : Nat}
    (hout : st.map.blocks block = none) (howner : st.map.blocks victim = some slot)
    (hoff : off < st.map.geometry.guestLen) :
    (st.afterSwap block victim slot).flat off = st.flat off := by
  refine Eq.trans ?_ (flat_afterEvict howner hoff)
  obtain ⟨t, ht, rfl⟩ := h.slots _ _ howner
  refine flat_fillSlot (st.afterEvict victim (t * st.map.geometry.blockSize)) rfl (fun _ => rfl)
    (fun b o hb => ?_) ?_ hoff
  · obtain ⟨hvictim, hin⟩ := Option.ite_none_left_eq_some.mp hb
    obtain ⟨s, -, rfl⟩ := h.slots _ _ hin
    refine ⟨s, ?_, rfl⟩
    rintro rfl
    exact hvictim (h.unshared _ _ _ hin howner)
  · show (if block = victim then none else st.map.blocks block) = none
    rw [hout, ite_self]

/-! ## With a file that works every block can be had -/

end RamStore

/-- Every file operation succeeds. -/
def SwapIo.allOk : SwapIo := ⟨.ok, .ok, .ok⟩

namespace BlockGeometry

variable {g : BlockGeometry}

theorem capacity_pos (hswaps : g.fullResidency = false) (hguest : g.guestLen ≠ 0) :
    0 < g.capacity := by
  have hlt : g.hostLen < g.guestLen := by simpa [fullResidency] using hswaps
  have hlen := g.residentLen_pos hguest
  have hcapacity : g.capacity * g.blockSize = g.residentLen := by
    rw [capacity, g.residentLen_eq, residentLenOf, if_pos hlt, Nat.mul_div_cancel _ g.blockSize_pos]
  refine Nat.pos_of_ne_zero fun hzero => hlen ?_
  rw [← hcapacity, hzero, zero_mul]

theorem and_blockSize_sub_one (off : Nat) : off &&& (g.blockSize - 1) = off % g.blockSize := by
  have hpow := g.blockSize_pow
  simp only [isPowerOf2, decide_eq_true_eq] at hpow
  obtain ⟨k, hk⟩ := (and_sub_one_eq_zero_iff_isPowerOfTwo hpow.1).mp hpow.2
  rw [hk, and_two_pow_sub_one_eq_mod]

end BlockGeometry

namespace RamStore

variable {st : RamStore} {r : Residency} {g : BlockGeometry} {bytes : Nat → BitVec 8}

theorem not_reloadFails {s : Nat} (h : s < g.capacity) : ¬ ReloadFails g (s * g.blockSize) .ok := by
  have hend := slot_end_le h
  have hlt := g.residentLen_lt
  rintro (hoverflow | hbound | hio)
  · omega
  · omega
  · exact hio rfl

/-- The slot of a block in a map that swaps is one of the whole slots of the region. -/
theorem slot_lt_capacity (h : r.Valid) (hswaps : r.geometry.fullResidency = false) {b o : Nat}
    (hb : r.blocks b = some o) : ∃ s < r.geometry.capacity, o = s * r.geometry.blockSize := by
  obtain ⟨s, hs, ho⟩ := h.slots b o hb
  have hle := le_trans h.bound (residentCapacity_le hswaps)
  exact ⟨s, lt_of_lt_of_le hs hle, ho⟩

/-- No victim is lost while the file works. -/
theorem not_losesVictim (h : r.Valid) (block victim slot : Nat) :
    ¬ LosesVictim r block .allOk victim slot := by
  intro hlost
  have hswaps := h.swaps hlost.evicts.inRange hlost.evicts.swappedOut
  obtain ⟨s, hs, rfl⟩ := slot_lt_capacity h hswaps (nextVictim_found hlost.evicts.found)
  exact not_reloadFails hs hlost.reload

/-- A search that finds nothing has looked at the next `n` blocks. -/
theorem nextVictim_none {n cursor : Nat} (hcursor : cursor < r.geometry.numBlocks)
    (h : (r.nextVictim n cursor).1 = none) {k : Nat} (hk : k < n) :
    r.blocks ((cursor + k) % r.geometry.numBlocks) = none := by
  have hpos : 0 < r.geometry.numBlocks := zero_lt_of_lt hcursor
  induction n generalizing cursor k with
  | zero => exact absurd hk (not_lt_zero k)
  | succ n ih =>
    unfold Residency.nextVictim at h
    split at h
    · cases h
    · next hnone =>
      cases k with
      | zero =>
        rw [add_zero, mod_eq_of_lt hcursor]
        exact hnone
      | succ k =>
        have hrest := ih (mod_lt _ hpos) h (lt_of_succ_lt_succ hk)
        rw [mod_add_mod] at hrest
        rw [show cursor + (k + 1) = cursor + 1 + k by omega]
        exact hrest

/-- A full round finds a victim if any block is resident. -/
theorem nextVictim_exists {cursor b : Nat} (hcursor : cursor < r.geometry.numBlocks)
    (hb : b < r.geometry.numBlocks) (hin : r.blocks b ≠ none) :
    ∃ victim slot, (r.nextVictim r.geometry.numBlocks cursor).1 = some (victim, slot) := by
  cases hfound : (r.nextVictim r.geometry.numBlocks cursor).1 with
  | some found => exact ⟨found.1, found.2, rfl⟩
  | none =>
    have hpos : 0 < r.geometry.numBlocks := zero_lt_of_lt hcursor
    have hseen := nextVictim_none hcursor hfound
      (mod_lt (b + r.geometry.numBlocks - cursor) hpos)
    rw [add_mod_mod, show cursor + (b + r.geometry.numBlocks - cursor) =
      b + r.geometry.numBlocks by omega, add_mod_right, mod_eq_of_lt hb] at hseen
    exact absurd hseen hin

variable {block : Nat}

theorem loadFresh_ok (hroom : st.map.usedBlocks < st.map.geometry.capacity) :
    (loadFresh block .ok).run st = .ok () (st.afterLoad block) := by
  unfold loadFresh
  rw [run_get_bind, run_get_bind]
  obtain ⟨-, hrun⟩ | ⟨hfail, -⟩ :=
    readBlockInto_run st block (st.map.usedBlocks * st.map.geometry.blockSize) .ok
  · rw [run_bind_of_ok hrun]
    rfl
  · exact absurd hfail (not_reloadFails hroom)

theorem swapIn_ok (h : st.map.Valid) (hswaps : st.map.geometry.fullResidency = false)
    {victim slot cursor : Nat} (howner : st.map.blocks victim = some slot) :
    (swapIn block victim slot .allOk).run { st with map := st.map.withCursor cursor } =
      .ok () (afterSwap { st with map := st.map.withCursor cursor } block victim slot) := by
  obtain ⟨s, hs, rfl⟩ := slot_lt_capacity h hswaps howner
  have hwritten : WritesBack st.map.geometry victim (s * st.map.geometry.blockSize) .ok :=
    ⟨h.fits victim _ howner, rfl⟩
  obtain ⟨-, hrun⟩ | ⟨hkept, -⟩ | ⟨-, hreload, -⟩ :=
    swapIn_run { st with map := st.map.withCursor cursor } block victim
      (s * st.map.geometry.blockSize) .allOk
  · exact hrun
  · exact absurd (hkept hwritten).1 (not_reloadFails hs)
  · exact absurd hreload (not_reloadFails hs)

/-- An allocation brings its block in and leaves RAM as it was. -/
theorem allocateBlock_run (h : st.Holds g bytes) (hblock : block < g.numBlocks) :
    ∃ st', (allocateBlock block .allOk).run st = .ok () st' ∧
      (∀ off < g.guestLen, st'.flat off = st.flat off) ∧ st'.map.blocks block ≠ none := by
  obtain ⟨rfl, hvalid, hcovered, -⟩ := h
  show ∃ st', allocateBlock block .allOk st = .ok () st' ∧ _
  unfold allocateBlock
  dsimp only
  rw [if_neg (Nat.not_le.mpr hblock)]
  cases hout : st.map.blocks block with
  | some slot => exact ⟨st, rfl, fun _ _ => rfl, by rw [hout]; exact nofun⟩
  | none =>
    have hswaps := hvalid.swaps hblock hout
    have hguest : st.map.geometry.guestLen ≠ 0 :=
      ne_of_gt (zero_lt_of_lt (start_lt_guestLen hblock))
    have hcapacity := capacity_pos hswaps hguest
    rw [if_neg (ne_of_gt hcapacity)]
    by_cases hroom : st.map.usedBlocks < st.map.geometry.capacity
    · rw [if_pos hroom]
      refine ⟨_, loadFresh_ok hroom, fun off hoff => flat_afterLoad hvalid hout hoff, ?_⟩
      rw [show (st.afterLoad block).map.blocks block = some _ from if_pos rfl]
      exact nofun
    · have hcursor : st.map.nextSwapout < st.map.geometry.numBlocks := by
        have := hvalid.cursor
        omega
      obtain ⟨b, hb⟩ := hcovered 0 (by omega)
      obtain ⟨victim, slot, hfound⟩ := nextVictim_exists hcursor (hvalid.inRange b _ hb)
        (by rw [hb]; exact nofun)
      have howner := nextVictim_found hfound
      have hnext := nextVictim_cursor_lt (n := st.map.geometry.numBlocks) hcursor
      rw [if_neg hroom, if_neg (Nat.not_le.mpr hcursor), hfound]
      refine ⟨_, swapIn_ok hvalid hswaps howner, fun off hoff => ?_, ?_⟩
      · exact flat_afterSwap
          { st with map := st.map.withCursor (st.map.nextVictim _ st.map.nextSwapout).2 }
          (hvalid.withCursor (.inl hnext)) hout howner hoff
      · rw [show (afterSwap _ block victim slot).map.blocks block = some slot from if_pos rfl]
        exact nofun

theorem allocateBlock_ok (h : st.Holds g bytes) (hblock : block < g.numBlocks) :
    ∃ st', (allocateBlock block .allOk).run st = .ok () st' ∧ st'.Holds g bytes ∧
      st'.map.blocks block ≠ none := by
  obtain ⟨st', hrun, hflat, hin⟩ := allocateBlock_run h hblock
  have hstep := allocateBlock_step st block .allOk
  rw [hrun] at hstep
  refine ⟨st', hrun, ?_, hin⟩
  exact {
    geometry := hstep.geometry.trans h.geometry
    valid := h.valid.step hstep
    covered := h.covered.step hstep (not_losesVictim h.valid block)
    flat := fun off hoff => (hflat off hoff).trans (h.flat off hoff) }

/-- A lookup below the end of RAM finds the byte's slot. -/
theorem slotRange_ok (h : st.Holds g bytes) {off : Nat} (hoff : off < g.guestLen) :
    ∃ st' slot, (slotRange off .allOk).run st =
        .ok (slot + off % g.blockSize, min (g.blockSize - off % g.blockSize) (g.guestLen - off))
          st' ∧
      st'.Holds g bytes ∧ st'.map.blocks (off / g.blockSize) = some slot := by
  obtain ⟨st', hensure, hholds, hin⟩ : ∃ st',
      (ensureResident (off / g.blockSize) .allOk).run st = .ok () st' ∧ st'.Holds g bytes ∧
        st'.map.blocks (off / g.blockSize) ≠ none := by
    show ∃ st', ensureResident _ _ st = _ ∧ _
    unfold ensureResident
    split
    · exact allocateBlock_ok h (div_lt_numBlocks hoff)
    · next hin => exact ⟨st, rfl, h, by simpa using hin⟩
  obtain ⟨slot, hslot⟩ := Option.ne_none_iff_exists'.mp hin
  refine ⟨st', slot, ?_, hholds, hslot⟩
  show slotRange off .allOk st = _
  unfold slotRange
  rw [h.geometry, if_neg (Nat.not_le.mpr hoff), run_bind_of_ok hensure]
  show residentSpan off st' = _
  unfold residentSpan
  dsimp only
  rw [hholds.geometry, hslot]
  dsimp only
  have hfits := hholds.valid.fits _ _ hslot
  rw [hholds.geometry] at hfits
  have hwithin := offset_lt_logicalBlockLen hoff
  have hlt := g.residentLen_lt
  rw [and_blockSize_sub_one, if_neg (by omega)]

/-! ## One chunk -/

/-- Bytes of a flat RAM, overwritten from an offset on. -/
def splice (bytes : Nat → BitVec 8) (off count : Nat) (data : List (BitVec 8)) :
    Nat → BitVec 8 :=
  fun o => if off ≤ o ∧ o < off + count then data.getD (o - off) 0#8 else bytes o

variable {data : List (BitVec 8)}

/-- Overwriting within a resident block overwrites RAM. -/
theorem Holds.putBytes (h : st.Holds g bytes) {off slot count : Nat}
    (hslot : st.map.blocks (off / g.blockSize) = some slot)
    (hcount : off % g.blockSize + count ≤ g.blockSize) :
    (st.putBytes (slot + off % g.blockSize) count data).Holds g (splice bytes off count data) where
  __ := h
  flat o ho := by
    obtain ⟨rfl, hvalid, -, hflat⟩ := h
    have hoff := div_add_mod' off st.map.geometry.blockSize
    have ho' := div_add_mod' o st.map.geometry.blockSize
    have hlt := st.map.geometry.offset_lt o
    obtain ⟨t, ht, rfl⟩ := hvalid.slots _ _ hslot
    rw [splice, ← hflat o ho]
    by_cases hblock : o / st.map.geometry.blockSize = off / st.map.geometry.blockSize
    · rw [← hblock] at hslot
      rw [flat_resident _ hslot, flat_resident (st.putBytes _ _ _) hslot]
      simp only [RamStore.putBytes]
      rw [hblock] at ho'
      by_cases hin : off ≤ o ∧ o < off + count
      · rw [if_pos hin, if_pos (by omega)]
        congr 1
        omega
      · rw [if_neg hin, if_neg (by omega)]
    · have hout : ¬ (off ≤ o ∧ o < off + count) := by
        rintro ⟨hle, hup⟩
        refine slot_apart hblock hlt ?_
        omega
      rw [if_neg hout]
      cases hother : st.map.blocks (o / st.map.geometry.blockSize) with
      | none =>
        have hafter := flat_swappedOut (st.putBytes
          (t * st.map.geometry.blockSize + off % st.map.geometry.blockSize) count data) hother
        exact hafter.trans (flat_swappedOut _ hother).symm
      | some slot =>
        obtain ⟨s, hs, rfl⟩ := hvalid.slots _ _ hother
        have hst : s ≠ t := by
          rintro rfl
          exact hblock (hvalid.unshared _ _ _ hother hslot)
        have hapart := slot_apart hst hlt
        have hafter := flat_resident (st.putBytes
          (t * st.map.geometry.blockSize + off % st.map.geometry.blockSize) count data) hother
        have hunwritten : ¬ (t * st.map.geometry.blockSize + off % st.map.geometry.blockSize ≤
            s * st.map.geometry.blockSize + o % st.map.geometry.blockSize ∧
            s * st.map.geometry.blockSize + o % st.map.geometry.blockSize <
              t * st.map.geometry.blockSize + off % st.map.geometry.blockSize + count) := by
          omega
        exact hafter.trans ((if_neg hunwritten).trans (flat_resident _ hother).symm)

/-- An address of guest RAM. -/
structure InRam (m : Machine) (g : BlockGeometry) (addr : Nat) : Prop where
  lt : addr < 2 ^ 64
  span : guestRamSpan (m.applyA20 (BitVec.ofNat 64 addr)) 1 g.guestLen = some (ramAddress m addr)

variable {m : Machine} {addr : Nat}

theorem InRam.not_hole (h : InRam m g addr) :
    ¬ (pciHoleStart ≤ (m.applyA20 (BitVec.ofNat 64 addr)).toNat ∧
      (m.applyA20 (BitVec.ofNat 64 addr)).toNat < pciHoleEnd) := by
  have hspan := ((Machine.guestRamSpan_eq_some).mp h.span).2.1
  omega

theorem InRam.nextSpan (h : InRam m g addr) (what : String) :
    nextSpan m g.guestLen addr what =
      .ok (some ((m.applyA20 (BitVec.ofNat 64 addr)).toNat, ramAddress m addr)) := by
  unfold RamStore.nextSpan
  rw [if_neg (Nat.not_le.mpr h.lt)]
  rw [if_neg h.not_hole, h.span]
  rfl

/-- Within a page and on one side of the hole, RAM is as consecutive as the addresses. -/
theorem InRam.ramAddress_add (h : InRam m g addr) {i a20 : Nat}
    (ha20 : (m.applyA20 (BitVec.ofNat 64 addr)).toNat = a20) (hpage : a20 % 0x1000 + i < 0x1000)
    (hhole : a20 < pciHoleStart → a20 + i < pciHoleStart) :
    ramAddress m (addr + i) = ramAddress m addr + i := by
  have hlt := h.lt
  have hnot := h.not_hole
  have htoNat : (BitVec.ofNat 64 addr).toNat = addr := by
    rw [BitVec.toNat_ofNat, mod_eq_of_lt hlt]
  have hmod : a20 % 0x1000 = addr % 0x1000 := by
    have hmask := Machine.toNat_applyA20 m (BitVec.ofNat 64 addr)
    split at hmask <;> omega
  have hadd : (m.applyA20 (BitVec.ofNat 64 (addr + i))).toNat = a20 + i := by
    rw [BitVec.ofNat_add, Machine.applyA20_add m (by rw [htoNat]; omega), BitVec.toNat_add,
      BitVec.toNat_ofNat]
    omega
  unfold ramAddress translateGpaToLinear
  rw [hadd, ha20]
  have hstart : pciHoleStart = 0xC0000000 := rfl
  have hend : pciHoleEnd = 0x100000000 := rfl
  have hsize : pciHoleSize = 0x40000000 := rfl
  by_cases hbelow : a20 < pciHoleStart
  · have hstays := hhole hbelow
    rw [if_neg (by omega), if_neg (by omega)]
  · rw [if_pos (by omega), if_pos (by omega)]
    omega

/-- What one pass of a transfer finds: a run of bytes that are consecutive in RAM and in the
slot. -/
structure Chunk (m : Machine) (g : BlockGeometry) (bytes : Nat → BitVec 8) (addr remaining : Nat)
    (st : RamStore) (start count : Nat) : Prop where
  pos : 0 < count
  le : count ≤ remaining
  consecutive : ∀ i < count, ramAddress m (addr + i) = ramAddress m addr + i
  holds : st.Holds g bytes
  read : ∀ i < count, st.ram (start + i) = bytes (ramAddress m (addr + i))
  write : ∀ data,
    (st.putBytes start count data).Holds g (splice bytes (ramAddress m addr) count data)

theorem chunk_exists (h : st.Holds g bytes) (hin : InRam m g addr) {remaining : Nat}
    (hremaining : 0 < remaining) :
    ∃ st' start span, (slotRange (ramAddress m addr) .allOk).run st = .ok (start, span) st' ∧
      Chunk m g bytes addr remaining st' start
        (chunkLen (m.applyA20 (BitVec.ofNat 64 addr)).toNat span remaining) := by
  have hoff : ramAddress m addr < g.guestLen := (Machine.guestRamSpan_eq_some.mp hin.span).2.2.1
  have hlt := g.offset_lt (ramAddress m addr)
  obtain ⟨st', slot, hrun, hholds, hslot⟩ := slotRange_ok h hoff
  refine ⟨st', _, _, hrun, ?_⟩
  generalize hspan : min (g.blockSize - ramAddress m addr % g.blockSize)
    (g.guestLen - ramAddress m addr) = span
  generalize hcount : chunkLen _ span remaining = count
  unfold chunkLen at hcount
  dsimp only at hcount
  have hconsecutive : ∀ i < count, ramAddress m (addr + i) = ramAddress m addr + i := by
    intro i hi
    refine hin.ramAddress_add rfl (by omega) fun hbelow => ?_
    rw [if_pos hbelow] at hcount
    omega
  refine ⟨?_, by omega, hconsecutive, hholds, ?_, fun data => hholds.putBytes hslot (by omega)⟩
  · split at hcount <;> omega
  · intro i hi
    have hdiv := div_add_mod' (ramAddress m addr) g.blockSize
    have hmod : (ramAddress m addr + i) % g.blockSize = ramAddress m addr % g.blockSize + i := by
      rw [← mod_add_mod, mod_eq_of_lt (by omega)]
    have hsame : (ramAddress m addr + i) / g.blockSize = ramAddress m addr / g.blockSize := by
      rw [← hdiv, add_assoc, slot_div (by omega), hdiv]
    rw [hconsecutive i hi, ← hholds.flat _ (by omega)]
    obtain ⟨rfl, -⟩ := hholds
    rw [flat_resident _ (hsame ▸ hslot), hmod, add_assoc]

/-! ## Whole transfers -/

/-- The bytes of flat RAM at consecutive addresses. -/
def flatRead (m : Machine) (bytes : Nat → BitVec 8) (addr len : Nat) : List (BitVec 8) :=
  (range len).map fun i => bytes (ramAddress m (addr + i))

/-- Flat RAM after a write, byte by byte. -/
def flatWrite (m : Machine) (bytes : Nat → BitVec 8) (addr : Nat) :
    List (BitVec 8) → Nat → BitVec 8
  | [] => bytes
  | b :: rest => flatWrite m (Function.update bytes (ramAddress m addr) b) (addr + 1) rest

theorem length_flatRead (addr len : Nat) : (flatRead m bytes addr len).length = len := by
  simp [flatRead]

theorem flatRead_add (addr k n : Nat) :
    flatRead m bytes addr (k + n) = flatRead m bytes addr k ++ flatRead m bytes (addr + k) n := by
  simp [flatRead, range_add, add_assoc]

theorem flatWrite_append (addr : Nat) (l l' : List (BitVec 8)) :
    flatWrite m bytes addr (l ++ l') = flatWrite m (flatWrite m bytes addr l) (addr + l.length) l' := by
  induction l generalizing bytes addr with
  | nil => rfl
  | cons b l ih =>
    rw [cons_append, flatWrite, ih, length_cons]
    congr 1
    omega

theorem splice_cons {off n : Nat} {b : BitVec 8} {rest : List (BitVec 8)} :
    splice (Function.update bytes off b) (off + 1) n rest = splice bytes off (n + 1) (b :: rest) := by
  funext o
  unfold splice
  by_cases hfirst : o = off
  · subst hfirst
    rw [if_neg (by omega), if_pos (by omega), Function.update_self, Nat.sub_self]
    rfl
  · by_cases hin : off + 1 ≤ o ∧ o < off + 1 + n
    · rw [if_pos hin, if_pos (by omega), show o - off = o - (off + 1) + 1 by omega]
      rfl
    · rw [if_neg hin, if_neg (by omega), Function.update_of_ne hfirst]

/-- Bytes written to addresses that are consecutive in RAM are written as one run. -/
theorem flatWrite_consecutive (bytes : Nat → BitVec 8) (addr off : Nat) (l : List (BitVec 8))
    (h : ∀ i < l.length, ramAddress m (addr + i) = off + i) :
    flatWrite m bytes addr l = splice bytes off l.length l := by
  induction l generalizing bytes addr off with
  | nil =>
    funext o
    exact (if_neg (by simp)).symm
  | cons b l ih =>
    have hfirst : ramAddress m addr = off := h 0 (succ_pos _)
    rw [flatWrite, hfirst, ih _ _ (off + 1), splice_cons, length_cons]
    intro i hi
    have hnext := h (i + 1) (succ_lt_succ hi)
    rw [show addr + 1 + i = addr + (i + 1) by omega]
    omega

/-- A write that has got so far, continued by a chunk. -/
theorem flatWrite_chunk {k count : Nat} (hcount : k + count ≤ data.length)
    (h : ∀ i < count, ramAddress m (addr + k + i) = ramAddress m (addr + k) + i) :
    splice (flatWrite m bytes addr (data.take k)) (ramAddress m (addr + k)) count (data.drop k) =
      flatWrite m bytes addr (data.take (k + count)) := by
  have hpart : ((data.drop k).take count).length = count := by
    rw [length_take, length_drop]
    omega
  have hrun := flatWrite_consecutive (flatWrite m bytes addr (data.take k)) (addr + k)
    (ramAddress m (addr + k)) ((data.drop k).take count) (hpart ▸ h)
  rw [take_add, flatWrite_append, length_take, min_eq_left (by omega), hrun, hpart]
  funext o
  unfold splice
  split
  · next ho =>
    rw [List.getD_eq_getElem?_getD, List.getD_eq_getElem?_getD, List.getElem?_take_of_lt]
    omega
  · rfl

/-- The loop of a read delivers the bytes of flat RAM. -/
theorem readLoop_ok (fuel : Nat) {len k : Nat} (h : st.Holds g bytes)
    (hin : ∀ i < len, InRam m g (addr + i)) (hk : k ≤ len) (hfuel : len ≤ k + fuel) :
    ∃ st', (readLoop m addr len (fun _ => .allOk) fuel (flatRead m bytes addr k)).run st =
      .ok (flatRead m bytes addr len) st' ∧ st'.Holds g bytes := by
  induction fuel generalizing st k with
  | zero =>
    obtain rfl : k = len := by omega
    exact ⟨st, rfl, h⟩
  | succ fuel ih =>
    show ∃ st', readLoop m addr len (fun _ => .allOk) (fuel + 1) (flatRead m bytes addr k) st = _ ∧ _
    unfold readLoop
    rw [length_flatRead]
    by_cases hdone : len ≤ k
    · obtain rfl : k = len := by omega
      exact ⟨st, if_pos hdone, h⟩
    · have hram := hin k (by omega)
      obtain ⟨st', start, span, hslot, hchunk⟩ :=
        chunk_exists h hram (show 0 < len - k by omega)
      rw [if_neg hdone, h.geometry, hram.nextSpan]
      dsimp only
      rw [hslot]
      dsimp only
      rw [if_neg (ne_of_gt hchunk.pos)]
      generalize chunkLen _ span (len - k) = count at hchunk ⊢
      have hcopied : flatRead m bytes addr k ++
          (range count).map (fun i => st'.ram (start + i)) =
          flatRead m bytes addr (k + count) := by
        rw [flatRead_add]
        congr 1
        exact map_congr_left fun i hi => hchunk.read i (List.mem_range.mp hi)
      rw [hcopied]
      have hpos := hchunk.pos
      have hle := hchunk.le
      exact ih hchunk.holds (by omega) (by omega)

/-- The loop of a write leaves flat RAM written. -/
theorem writeLoop_ok (fuel : Nat) {k : Nat} (h : st.Holds g (flatWrite m bytes addr (data.take k)))
    (hin : ∀ i < data.length, InRam m g (addr + i)) (hk : k ≤ data.length)
    (hfuel : data.length ≤ k + fuel) :
    ∃ st', (writeLoop m addr data (fun _ => .allOk) fuel k).run st = .ok data.length st' ∧
      st'.Holds g (flatWrite m bytes addr data) := by
  induction fuel generalizing st k with
  | zero =>
    obtain rfl : k = data.length := by omega
    rw [take_length] at h
    exact ⟨st, rfl, h⟩
  | succ fuel ih =>
    show ∃ st', writeLoop m addr data (fun _ => .allOk) (fuel + 1) k st = _ ∧ _
    unfold writeLoop
    by_cases hdone : data.length ≤ k
    · obtain rfl : k = data.length := by omega
      rw [take_length] at h
      exact ⟨st, if_pos hdone, h⟩
    · have hram := hin k (by omega)
      obtain ⟨st', start, span, hslot, hchunk⟩ :=
        chunk_exists h hram (show 0 < data.length - k by omega)
      rw [if_neg hdone, h.geometry, hram.nextSpan]
      dsimp only
      rw [hslot]
      dsimp only
      rw [if_neg (ne_of_gt hchunk.pos)]
      have hpos := hchunk.pos
      have hle := hchunk.le
      have hwrite := hchunk.write (data.drop k)
      rw [flatWrite_chunk (by omega) hchunk.consecutive] at hwrite
      exact ih hwrite (by omega) (by omega)

end RamStore

/-! ## Runs of transfers -/

/-- A transfer; of the machine only the A20 line matters. -/
inductive RamCall
  | read (m : Machine) (addr : BitVec 64) (len : Nat)
  | write (m : Machine) (addr : BitVec 64) (data : List (BitVec 8))

inductive RamAnswer
  | bytes (bytes : List (BitVec 8))
  | count (copied : Nat)
  deriving DecidableEq

namespace RamCall

open RamStore

/-- All the bytes of the transfer are in guest RAM. -/
def Inside (g : BlockGeometry) : RamCall → Prop
  | read m addr len => ∀ i < len, InRam m g (addr.toNat + i)
  | write m addr data => ∀ i < data.length, InRam m g (addr.toNat + i)

/-- The transfer over the slot table, with a file that works. -/
def exec : RamCall → RamM RamAnswer
  | read m addr len => return .bytes (← readRam m addr.toNat len fun _ => .allOk)
  | write m addr data => return .count (← writeRam m addr.toNat data fun _ => .allOk)

/-- The transfer over flat RAM. -/
def flatExec (bytes : Nat → BitVec 8) : RamCall → RamAnswer × (Nat → BitVec 8)
  | read m addr len => (.bytes (flatRead m bytes addr.toNat len), bytes)
  | write m addr data => (.count data.length, flatWrite m bytes addr.toNat data)

/-- What each transfer of a run returns, and the store at the end. -/
def run : List RamCall → RamStore → List (Except RamError RamAnswer) × RamStore
  | [], st => ([], st)
  | call :: calls, st =>
    match call.exec.run st with
    | .ok answer st => let rest := run calls st; (.ok answer :: rest.1, rest.2)
    | .error e st => let rest := run calls st; (.error e :: rest.1, rest.2)

def flatRun : List RamCall → (Nat → BitVec 8) → List RamAnswer
  | [], _ => []
  | call :: calls, bytes => (call.flatExec bytes).1 :: flatRun calls (call.flatExec bytes).2

variable {st : RamStore} {g : BlockGeometry} {bytes : Nat → BitVec 8}

theorem exec_ok (h : st.Holds g bytes) {call : RamCall} (hin : call.Inside g) :
    ∃ st', call.exec.run st = .ok (call.flatExec bytes).1 st' ∧
      st'.Holds g (call.flatExec bytes).2 := by
  cases call with
  | read m addr len =>
    obtain ⟨st', hrun, hholds⟩ :=
      readLoop_ok len (k := 0) h hin (zero_le _) (by omega)
    exact ⟨st', Lib.run_bind_of_ok hrun, hholds⟩
  | write m addr data =>
    obtain ⟨st', hrun, hholds⟩ :=
      writeLoop_ok data.length (k := 0) h hin (zero_le _) (by omega)
    exact ⟨st', Lib.run_bind_of_ok hrun, hholds⟩

theorem run_ok (h : st.Holds g bytes) {calls : List RamCall} (hin : ∀ call ∈ calls, call.Inside g) :
    (run calls st).1 = (flatRun calls bytes).map .ok ∧
      ∃ bytes', (run calls st).2.Holds g bytes' := by
  induction calls generalizing st bytes with
  | nil => exact ⟨rfl, bytes, h⟩
  | cons call calls ih =>
    obtain ⟨st', hexec, hholds⟩ := exec_ok h (hin call (mem_cons_self ..))
    obtain ⟨hanswers, hend⟩ := ih hholds fun c hc => hin c (mem_cons_of_mem _ hc)
    unfold run
    rw [hexec]
    refine ⟨?_, hend⟩
    exact congrArg _ hanswers

end RamCall

/-- Resident blocks keep clear of each other and of the end of the region. -/
def Residency.SlotsApart (r : Residency) : Prop :=
  (∀ b b' o o', b ≠ b' → r.blocks b = some o → r.blocks b' = some o' →
      o + r.geometry.blockSize ≤ o' ∨ o' + r.geometry.blockSize ≤ o) ∧
    ∀ b o, r.blocks b = some o → o + r.geometry.logicalBlockLen b ≤ r.geometry.residentLen

theorem Residency.Valid.slotsApart {r : Residency} (h : r.Valid) : r.SlotsApart := by
  refine ⟨fun b b' o o' hne hb hb' => ?_, h.fits⟩
  obtain ⟨s, -, rfl⟩ := h.slots b o hb
  obtain ⟨t, -, rfl⟩ := h.slots b' o' hb'
  have hst : s ≠ t := by
    rintro rfl
    exact hne (h.unshared b b' _ hb hb')
  obtain hlt | hgt := lt_or_gt_of_ne hst
  · have hmul := mul_le_mul_right r.geometry.blockSize hlt
    rw [succ_mul] at hmul
    exact .inl hmul
  · have hmul := mul_le_mul_right r.geometry.blockSize hgt
    rw [succ_mul] at hmul
    exact .inr hmul

namespace RamStore

/-- RAM as `create_and_init` leaves it: zero, and so is the overflow file. -/
def zeroed (g : BlockGeometry) : RamStore := ⟨.initLayout g, fun _ => 0#8, fun _ => 0#8⟩

theorem zeroed_holds (g : BlockGeometry) : (zeroed g).Holds g fun _ => 0#8 where
  geometry := rfl
  valid := Residency.initLayout_valid g
  covered := Residency.initLayout_covered g
  flat off _ := by
    unfold RamStore.flat
    split <;> rfl

/-- Reads and writes inside guest RAM answer as flat RAM does, whichever blocks are resident
in between, and at every point of a run the resident blocks keep clear of each other. -/
theorem swapped_ram_refines_flat (g : BlockGeometry) (calls : List RamCall)
    (hin : ∀ call ∈ calls, call.Inside g) :
    (RamCall.run calls (zeroed g)).1 = (RamCall.flatRun calls fun _ => 0#8).map .ok ∧
      (RamCall.run calls (zeroed g)).2.map.SlotsApart := by
  obtain ⟨hanswers, bytes, hholds⟩ := RamCall.run_ok (zeroed_holds g) hin
  exact ⟨hanswers, hholds.valid.slotsApart⟩

/-- A machine with A20 enabled and nothing on the bus. -/
def bareMachine : Machine where
  hostLen := 0
  hostLen_mod := Nat.zero_mod 8
  hostLen_lt := Nat.two_pow_pos 63
  a20Enabled := true
  devices := ⟨fun _ _ _ => none, fun _ _ _ => false⟩

/-- A byte that was evicted comes back. -/
theorem evicted_byte_comes_back :
    let calls : List RamCall := [.write bareMachine 0 [7], .write bareMachine 4096 [8],
      .read bareMachine 0 1]
    (RamCall.run calls (zeroed oneSlot)).1 = [.ok (.count 1), .ok (.count 1), .ok (.bytes [7])] := by
  intro calls
  have hin : ∀ call ∈ calls, call.Inside oneSlot := by
    intro call hcall
    simp only [calls, mem_cons, not_mem_nil, or_false] at hcall
    obtain rfl | rfl | rfl := hcall
    all_goals
      intro i hi
      obtain rfl : i = 0 := Nat.lt_one_iff.mp hi
      exact ⟨by decide, by decide +kernel⟩
  exact (swapped_ram_refines_flat oneSlot calls hin).1.trans (by decide +kernel)

end RamStore

end RustyBox
