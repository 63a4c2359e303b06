-- SUMMARY: Guest blocks, the slots they occupy and the overflow file behind them.
import RustyBox.Lib.Exec
import Mathlib.Data.Nat.Bitwise
import Mathlib.Data.BitVec

/-!
# Residency

Guest RAM is cut into blocks of one size. When the host grants less memory than the guest
asks for, a block that is touched is loaded from the overflow file into a slot, and once
every slot is taken another block is written out to make room. The operations of the file
may fail, each after any number of bytes; `SwapIo` is how the three that one swap can make
turn out.
-/

namespace RustyBox

/-- The errors of the block map. `outOfBounds` is a slice index that panics. -/
inductive RamError
  | blockSizeIsNotAPowerOfTwo (size : Nat)
  | unableToAllocateGuestMemory (size : Nat)
  | insufficientRam
  | internal (what : String)
  | cantSeek (offset : Nat)
  | failedToWrite (offset : Nat)
  | readFailed
  | outOfBounds
  deriving DecidableEq

/-! ## Geometry -/

/-- `MAX_MEM_BLOCKS`. -/
def maxMemBlocks : Nat := 16384

/-- `is_power_of_2`. -/
def isPowerOf2 (x : Nat) : Bool := x ≠ 0 ∧ x &&& (x - 1) = 0

/-- The resident region: whole blocks when some have to be swapped, else the host figure. -/
def residentLenOf (guestLen hostLen blockSize : Nat) : Nat :=
  if hostLen < guestLen then (hostLen + (blockSize - 1)) / blockSize * blockSize else hostLen

/-- `BlockGeometry`, with what its validation establishes. -/
structure BlockGeometry where
  guestLen : Nat
  hostLen : Nat
  residentLen : Nat
  blockSize : Nat
  numBlocks : Nat
  blockSize_pow : isPowerOf2 blockSize
  blockSize_lt : blockSize < 2 ^ 64
  residentLen_eq : residentLen = residentLenOf guestLen hostLen blockSize
  residentLen_pos : guestLen ≠ 0 → residentLen ≠ 0
  numBlocks_eq : numBlocks = (guestLen + (blockSize - 1)) / blockSize
  numBlocks_le : numBlocks ≤ maxMemBlocks
  guestLen_lt : guestLen + (blockSize - 1) < 2 ^ 64
  residentLen_lt : residentLen < 2 ^ 64

namespace BlockGeometry

/-- `BlockGeometry::new`; the lengths are 64-bit, and so are the rounded sums. -/
def new (guestLen hostLen : BitVec 64) (blockSize : BitVec 64) : Except RamError BlockGeometry :=
  let guest := guestLen.toNat
  let host := hostLen.toNat
  let size := blockSize.toNat
  if hpow : isPowerOf2 size then
    if hhost : host < guest ∧ 2 ^ 64 ≤ host + (size - 1) then
      .error (.unableToAllocateGuestMemory host)
    else if hpos : guest ≠ 0 ∧ residentLenOf guest host size = 0 then .error .insufficientRam
    else if hguest : 2 ^ 64 ≤ guest + (size - 1) then .error (.unableToAllocateGuestMemory guest)
    else if hnum : maxMemBlocks < (guest + (size - 1)) / size then
      .error (.unableToAllocateGuestMemory guest)
    else
      .ok {
        guestLen := guest
        hostLen := host
        residentLen := residentLenOf guest host size
        blockSize := size
        numBlocks := (guest + (size - 1)) / size
        blockSize_pow := hpow
        blockSize_lt := blockSize.isLt
        residentLen_eq := rfl
        residentLen_pos := fun h h0 => hpos ⟨h, h0⟩
        numBlocks_eq := rfl
        numBlocks_le := Nat.le_of_not_lt hnum
        guestLen_lt := Nat.lt_of_not_le hguest
        residentLen_lt := by
          unfold residentLenOf
          split
          · next hlt =>
            have hsum : host + (size - 1) < 2 ^ 64 := Nat.lt_of_not_le fun h => hhost ⟨hlt, h⟩
            exact Nat.lt_of_le_of_lt (Nat.div_mul_le_self _ _) hsum
          · exact hostLen.isLt }
  else .error (.blockSizeIsNotAPowerOfTwo size)

variable (g : BlockGeometry)

/-- `full_residency`. -/
def fullResidency : Bool := g.guestLen ≤ g.hostLen

/-- The whole blocks the resident region holds. -/
def capacity : Nat := g.residentLen / g.blockSize

/-- `logical_block_len`: the last block may be short. -/
def logicalBlockLen (block : Nat) : Nat := min (g.guestLen - block * g.blockSize) g.blockSize

end BlockGeometry

/-! ## The block map -/

/-- `Residency` without the file; a block is at an offset of the resident region or swapped
out. -/
structure Residency where
  geometry : BlockGeometry
  blocks : Nat → Option Nat
  usedBlocks : Nat
  nextSwapout : Nat
  identityMap : Bool
  swapEpoch : BitVec 64

/-- The block map with the bytes of the resident region and of the overflow file. -/
structure RamStore where
  map : Residency
  ram : Nat → BitVec 8
  file : Nat → BitVec 8

/-- How an operation on the overflow file turns out; a failed transfer may have moved a few
bytes. -/
inductive FileIo
  | ok
  | seekFailed
  | failed (bytes : Nat)
  deriving DecidableEq

/-- The file operations of one swap, in the order they come. -/
structure SwapIo where
  writeVictim : FileIo
  readTarget : FileIo
  readVictim : FileIo

namespace Residency

variable (r : Residency)

/-- `bump_swap_epoch`. -/
def bumpSwapEpoch : Residency :=
  { r with swapEpoch := if r.swapEpoch = BitVec.allOnes 64 then r.swapEpoch else r.swapEpoch + 1 }

def setBlock (block : Nat) (slot : Option Nat) : Residency :=
  { r with blocks := fun b => if b = block then slot else r.blocks b }

def withCursor (cursor : Nat) : Residency := { r with nextSwapout := cursor }

/-- A block in a slot nobody has had. -/
def openSlot (block slot : Nat) : Residency :=
  { (r.setBlock block (some slot)).bumpSwapEpoch with
    usedBlocks := r.usedBlocks + 1
    identityMap := false }

/-- A slot goes from a victim to a block. -/
def handOver (block victim slot : Nat) : Residency :=
  { ((r.setBlock victim none).setBlock block (some slot)).bumpSwapEpoch with
    identityMap := false }

/-- `init_layout`. -/
def initLayout (g : BlockGeometry) : Residency where
  geometry := g
  blocks := fun b => if g.fullResidency ∧ b < g.numBlocks then some (b * g.blockSize) else none
  usedBlocks := if g.fullResidency then g.numBlocks else 0
  nextSwapout := 0
  identityMap := g.fullResidency
  swapEpoch := 0

/-- The round-robin search: the first resident block from the cursor on, and the cursor
after it. -/
def nextVictim : Nat → Nat → Option (Nat × Nat) × Nat
  | 0, cursor => (none, cursor)
  | n + 1, cursor =>
    match r.blocks cursor with
    | some offset => (some (cursor, offset), (cursor + 1) % r.geometry.numBlocks)
    | none => nextVictim n ((cursor + 1) % r.geometry.numBlocks)

end Residency

namespace RamStore

abbrev RamM := EStateM RamError RamStore

variable (st : RamStore)

/-- A slot that holds the first `n` bytes of a block and zeros after them. -/
def fillSlot (block slot n : Nat) : RamStore :=
  { st with
    ram := fun o =>
      if slot ≤ o ∧ o < slot + st.map.geometry.blockSize then
        if o < slot + n then st.file (block * st.map.geometry.blockSize + (o - slot)) else 0#8
      else st.ram o }

/-- The first `n` bytes of a slot, written to a block's place in the file. -/
def writeBack (block slot n : Nat) : RamStore :=
  { st with
    file := fun o =>
      let start := block * st.map.geometry.blockSize
      if start ≤ o ∧ o < start + n then st.ram (slot + (o - start)) else st.file o }

/-- `read_block_into`. -/
def readBlockInto (block slot : Nat) (io : FileIo) : RamM Unit := fun st =>
  let g := st.map.geometry
  if 2 ^ 64 ≤ slot + g.blockSize then .error (.internal "resident slot overflow") st
  else if g.residentLen < slot + g.blockSize then
    .error (.internal "resident slot outside host backing") st
  else match io with
    | .ok => .ok () (st.fillSlot block slot (g.logicalBlockLen block))
    | .seekFailed => .error (.cantSeek (block * g.blockSize)) (st.fillSlot block slot 0)
    | .failed n => .error .readFailed (st.fillSlot block slot (min n (g.logicalBlockLen block)))

/-- The victim's bytes go to the file before its slot is reused. -/
def writeVictim (victim slot : Nat) (io : FileIo) : RamM Unit := fun st =>
  let g := st.map.geometry
  let len := g.logicalBlockLen victim
  if g.residentLen < slot + len then .error .outOfBounds st
  else match io with
    | .ok => .ok () (st.writeBack victim slot len)
    | .seekFailed => .error (.cantSeek (victim * g.blockSize)) st
    | .failed n =>
      .error (.failedToWrite (victim * g.blockSize)) (st.writeBack victim slot (min n len))

/-- A block that was swapped out gets a slot nobody has had. -/
def loadFresh (block : Nat) (io : FileIo) : RamM Unit := do
  let slot := (← get).map.usedBlocks * (← get).map.geometry.blockSize
  readBlockInto block slot io
  modify fun st => { st with map := st.map.openSlot block slot }

/-- The reload failed after the victim was written out. Its slot is restored from the file;
if that fails too it stops being resident, and the slot belongs to nobody. -/
def restoreVictim (victim slot : Nat) (error : RamError) (io : FileIo) : RamM Unit := fun st =>
  match (readBlockInto victim slot io).run st with
  | .ok _ st => .error error st
  | .error restoreError st => .error restoreError { st with map := st.map.setBlock victim none }

/-- The slot of a victim that was written out is filled with a block's bytes. -/
def takeSlot (block victim slot : Nat) (io : SwapIo) : RamM Unit := fun st =>
  match (readBlockInto block slot io.readTarget).run st with
  | .ok _ st => .ok () { st with map := st.map.handOver block victim slot }
  | .error e st => (restoreVictim victim slot e io.readVictim).run st

/-- A block takes the slot of a victim. -/
def swapIn (block victim slot : Nat) (io : SwapIo) : RamM Unit := do
  writeVictim victim slot io.writeVictim
  takeSlot block victim slot io

/-- `allocate_block`. -/
def allocateBlock (block : Nat) (io : SwapIo) : RamM Unit := fun st =>
  let r := st.map
  let g := r.geometry
  if g.numBlocks ≤ block then .error (.internal "guest block out of range") st
  else if (r.blocks block).isSome then .ok () st
  else if g.capacity = 0 then .error .insufficientRam st
  else if r.usedBlocks < g.capacity then (loadFresh block io.readTarget).run st
  else if g.numBlocks ≤ r.nextSwapout then .error .outOfBounds st
  else
    let found := r.nextVictim g.numBlocks r.nextSwapout
    let st := { st with map := r.withCursor found.2 }
    match found.1 with
    | none => .error .insufficientRam st
    | some (victim, slot) => (swapIn block victim slot io).run st

/-- The span of a resident block from an address to the end of the block or of RAM. -/
def residentSpan (addr : Nat) : RamM (Nat × Nat) := fun st =>
  let g := st.map.geometry
  match st.map.blocks (addr / g.blockSize) with
  | none => .error (.internal "allocated block is not resident") st
  | some offset =>
    let within := addr &&& (g.blockSize - 1)
    if 2 ^ 64 ≤ offset + within then .error (.internal "resident block offset overflow") st
    else .ok (offset + within, min (g.blockSize - within) (g.guestLen - addr)) st

/-- Make a block resident if it is not. -/
def ensureResident (block : Nat) (io : SwapIo) : RamM Unit := fun st =>
  if (st.map.blocks block).isNone then (allocateBlock block io).run st else .ok () st

/-- `slot_range`: where a byte of guest RAM lives, and how far the span runs. -/
def slotRange (addr : Nat) (io : SwapIo) : RamM (Nat × Nat) := fun st =>
  let g := st.map.geometry
  if g.guestLen ≤ addr then .error (.internal "translated RAM offset out of range") st
  else (ensureResident (addr / g.blockSize) io >>= fun _ => residentSpan addr).run st

/-! ## What a file operation leaves behind -/

open Lib

/-- A reload into a slot that does not succeed. -/
def ReloadFails (g : BlockGeometry) (slot : Nat) (io : FileIo) : Prop :=
  2 ^ 64 ≤ slot + g.blockSize ∨ g.residentLen < slot + g.blockSize ∨ io ≠ .ok

variable {st}

/-- A reload fills the slot, or fails and touches no more than the bytes of the region. -/
theorem readBlockInto_run (st : RamStore) (block slot : Nat) (io : FileIo) :
    ¬ ReloadFails st.map.geometry slot io ∧
        (readBlockInto block slot io).run st =
          .ok () (st.fillSlot block slot (st.map.geometry.logicalBlockLen block)) ∨
      ReloadFails st.map.geometry slot io ∧
        ∃ e ram, (readBlockInto block slot io).run st = .error e { st with ram := ram } := by
  show ¬ _ ∧ readBlockInto block slot io st = _ ∨ _ ∧ ∃ e ram, readBlockInto block slot io st = _
  unfold readBlockInto
  dsimp only
  split
  · next h => exact .inr ⟨.inl h, _, _, rfl⟩
  next hoverflow =>
  split
  · next h => exact .inr ⟨.inr (.inl h), _, _, rfl⟩
  next hbound =>
  cases io with
  | ok =>
    refine .inl ⟨?_, rfl⟩
    rintro (h | h | h)
    · exact hoverflow h
    · exact hbound h
    · exact h rfl
  | seekFailed | failed n => exact .inr ⟨.inr (.inr nofun), _, _, rfl⟩

/-- A write-back that goes through. -/
def WritesBack (g : BlockGeometry) (victim slot : Nat) (io : FileIo) : Prop :=
  slot + g.logicalBlockLen victim ≤ g.residentLen ∧ io = .ok

theorem writeVictim_run (st : RamStore) (victim slot : Nat) (io : FileIo) :
    WritesBack st.map.geometry victim slot io ∧
        (writeVictim victim slot io).run st =
          .ok () (st.writeBack victim slot (st.map.geometry.logicalBlockLen victim)) ∨
      ¬ WritesBack st.map.geometry victim slot io ∧
        ∃ e file, (writeVictim victim slot io).run st = .error e { st with file := file } := by
  show _ ∧ writeVictim victim slot io st = _ ∨ ¬ _ ∧ ∃ e file, writeVictim victim slot io st = _
  unfold writeVictim
  dsimp only
  split
  · next h => exact .inr ⟨fun hw => absurd hw.1 (by omega), _, _, rfl⟩
  next hbound =>
  cases io with
  | ok => exact .inl ⟨⟨by omega, rfl⟩, rfl⟩
  | seekFailed | failed n => exact .inr ⟨fun hw => (nomatch hw.2), _, _, rfl⟩

/-! ## What an allocation does to the block table -/

theorem nextVictim_found {r : Residency} {n cursor victim slot : Nat}
    (h : (r.nextVictim n cursor).1 = some (victim, slot)) : r.blocks victim = some slot := by
  induction n generalizing cursor with
  | zero => cases h
  | succ n ih =>
    unfold Residency.nextVictim at h
    split at h
    · next offset hblock =>
      cases h
      exact hblock
    · exact ih h

theorem nextVictim_lt {r : Residency} {n cursor victim slot : Nat}
    (hcursor : cursor < r.geometry.numBlocks)
    (h : (r.nextVictim n cursor).1 = some (victim, slot)) : victim < r.geometry.numBlocks := by
  induction n generalizing cursor with
  | zero => cases h
  | succ n ih =>
    unfold Residency.nextVictim at h
    split at h
    · cases h
      exact hcursor
    · exact ih (Nat.mod_lt _ (Nat.zero_lt_of_lt hcursor)) h

/-- A swap starts: the wanted block is out, every slot is taken and a victim was found. -/
structure Evicts (r : Residency) (block victim slot : Nat) : Prop where
  inRange : block < r.geometry.numBlocks
  swappedOut : r.blocks block = none
  capacity : r.geometry.capacity ≠ 0
  full : r.geometry.capacity ≤ r.usedBlocks
  cursor : r.nextSwapout < r.geometry.numBlocks
  found : (r.nextVictim r.geometry.numBlocks r.nextSwapout).1 = some (victim, slot)

/-- The write-back of the victim goes through, and then both the reload of the wanted block
and the restoration of the victim fail. -/
structure LosesVictim (r : Residency) (block : Nat) (io : SwapIo) (victim slot : Nat) : Prop where
  evicts : Evicts r block victim slot
  written : WritesBack r.geometry victim slot io.writeVictim
  reload : ReloadFails r.geometry slot io.readTarget
  restore : ReloadFails r.geometry slot io.readVictim

theorem Evicts.unique {r : Residency} {block victim slot victim' slot' : Nat}
    (h : Evicts r block victim slot) (h' : Evicts r block victim' slot') :
    victim' = victim ∧ slot' = slot := by
  have hpair := h'.found.symm.trans h.found
  simp only [Option.some.injEq, Prod.mk.injEq] at hpair
  exact hpair

/-- A block that is out goes to a slot nobody has had. -/
structure LoadsFresh (r : Residency) (block : Nat) (io : SwapIo) : Prop where
  inRange : block < r.geometry.numBlocks
  swappedOut : r.blocks block = none
  room : r.usedBlocks < r.geometry.capacity
  loaded : ¬ ReloadFails r.geometry (r.usedBlocks * r.geometry.blockSize) io.readTarget

/-- What an allocation does to the table. -/
inductive TableStep (r : Residency) (block : Nat) (io : SwapIo) : Residency → Prop
  | kept (cursor : Nat) (hsafe : ∀ victim slot, ¬ LosesVictim r block io victim slot)
      (hcursor : cursor = r.nextSwapout ∨ cursor < r.geometry.numBlocks) :
      TableStep r block io (r.withCursor cursor)
  | fresh (hfresh : LoadsFresh r block io) :
      TableStep r block io (r.openSlot block (r.usedBlocks * r.geometry.blockSize))
  | swapped (victim slot cursor : Nat) (hevicts : Evicts r block victim slot)
      (hloaded : ¬ ReloadFails r.geometry slot io.readTarget)
      (hcursor : cursor < r.geometry.numBlocks) :
      TableStep r block io ((r.withCursor cursor).handOver block victim slot)
  | lost (victim slot cursor : Nat) (hlost : LosesVictim r block io victim slot)
      (hcursor : cursor < r.geometry.numBlocks) :
      TableStep r block io ((r.withCursor cursor).setBlock victim none)

theorem TableStep.geometry {r r' : Residency} {block : Nat} {io : SwapIo}
    (h : TableStep r block io r') : r'.geometry = r.geometry := by
  cases h <;> rfl

theorem loadFresh_step {block : Nat} {io : SwapIo} (hrange : block < st.map.geometry.numBlocks)
    (hout : st.map.blocks block = none) (hroom : st.map.usedBlocks < st.map.geometry.capacity) :
    TableStep st.map block io (finalState ((loadFresh block io.readTarget).run st)).map := by
  unfold loadFresh
  rw [run_get_bind, run_get_bind]
  obtain ⟨hloaded, hrun⟩ | ⟨-, e, ram, hrun⟩ :=
    readBlockInto_run st block (st.map.usedBlocks * st.map.geometry.blockSize)
      io.readTarget
  · rw [run_bind_of_ok hrun]
    exact .fresh ⟨hrange, hout, hroom, hloaded⟩
  · rw [run_bind_of_error hrun]
    refine .kept st.map.nextSwapout (fun victim slot h => ?_) (.inl rfl)
    exact absurd h.evicts.full (Nat.not_le.mpr hroom)

/-- The restoration keeps the table, or takes the victim out of it. -/
theorem restoreVictim_run (st : RamStore) (victim slot : Nat) (error : RamError) (io : FileIo) :
    ¬ ReloadFails st.map.geometry slot io ∧
        (∃ ram, (restoreVictim victim slot error io).run st = .error error { st with ram := ram }) ∨
      ReloadFails st.map.geometry slot io ∧
        ∃ e ram, (restoreVictim victim slot error io).run st =
          .error e { st with ram := ram, map := st.map.setBlock victim none } := by
  show ¬ _ ∧ (∃ ram, restoreVictim victim slot error io st = _) ∨
    _ ∧ ∃ e ram, restoreVictim victim slot error io st = _
  unfold restoreVictim
  obtain ⟨hok, hrun⟩ | ⟨hfail, e, ram, hrun⟩ := readBlockInto_run st victim slot io
  · rw [hrun]
    exact .inl ⟨hok, _, rfl⟩
  · rw [hrun]
    exact .inr ⟨hfail, e, ram, rfl⟩

/-- With the victim written out, its slot is handed over, restored or lost. -/
theorem takeSlot_run (st : RamStore) (block victim slot : Nat) (io : SwapIo) :
    (¬ ReloadFails st.map.geometry slot io.readTarget ∧
        (takeSlot block victim slot io).run st =
          .ok () { st.fillSlot block slot (st.map.geometry.logicalBlockLen block) with
            map := st.map.handOver block victim slot }) ∨
      (ReloadFails st.map.geometry slot io.readTarget ∧
        ¬ ReloadFails st.map.geometry slot io.readVictim ∧
        ∃ e ram, (takeSlot block victim slot io).run st = .error e { st with ram := ram }) ∨
      (ReloadFails st.map.geometry slot io.readTarget ∧
        ReloadFails st.map.geometry slot io.readVictim ∧
        ∃ e ram, (takeSlot block victim slot io).run st =
          .error e { st with ram := ram, map := st.map.setBlock victim none }) := by
  have htake : (takeSlot block victim slot io).run st =
      match (readBlockInto block slot io.readTarget).run st with
      | .ok _ st => .ok () { st with map := st.map.handOver block victim slot }
      | .error e st => (restoreVictim victim slot e io.readVictim).run st := rfl
  rw [htake]
  obtain ⟨hok, hrun⟩ | ⟨hfail, e, ram, hrun⟩ :=
    readBlockInto_run st block slot io.readTarget
  · rw [hrun]
    exact .inl ⟨hok, rfl⟩
  · rw [hrun]
    obtain ⟨hok, ram', hrestore⟩ | ⟨hfail', e', ram', hrestore⟩ :=
      restoreVictim_run { st with ram := ram } victim slot e io.readVictim
    · exact .inr (.inl ⟨hfail, hok, e, ram', hrestore⟩)
    · exact .inr (.inr ⟨hfail, hfail', e', ram', hrestore⟩)

theorem nextVictim_cursor_lt {r : Residency} {n cursor : Nat}
    (hcursor : cursor < r.geometry.numBlocks) :
    (r.nextVictim n cursor).2 < r.geometry.numBlocks := by
  have hpos : 0 < r.geometry.numBlocks := Nat.zero_lt_of_lt hcursor
  induction n generalizing cursor with
  | zero => exact hcursor
  | succ n ih =>
    unfold Residency.nextVictim
    split
    · exact Nat.mod_lt _ hpos
    · exact ih (Nat.mod_lt _ hpos)

/-- The store after a swap. -/
def afterSwap (st : RamStore) (block victim slot : Nat) : RamStore :=
  { (st.writeBack victim slot (st.map.geometry.logicalBlockLen victim)).fillSlot block slot
      (st.map.geometry.logicalBlockLen block) with
    map := st.map.handOver block victim slot }

/-- A swap goes through, keeps the table, or loses the victim. -/
theorem swapIn_run (st : RamStore) (block victim slot : Nat) (io : SwapIo) :
    (¬ ReloadFails st.map.geometry slot io.readTarget ∧
        (swapIn block victim slot io).run st = .ok () (st.afterSwap block victim slot)) ∨
      ((WritesBack st.map.geometry victim slot io.writeVictim →
          ReloadFails st.map.geometry slot io.readTarget ∧
            ¬ ReloadFails st.map.geometry slot io.readVictim) ∧
        ∃ e ram file, (swapIn block victim slot io).run st =
          .error e { st with ram := ram, file := file }) ∨
      (WritesBack st.map.geometry victim slot io.writeVictim ∧
        ReloadFails st.map.geometry slot io.readTarget ∧
        ReloadFails st.map.geometry slot io.readVictim ∧
        ∃ e ram file, (swapIn block victim slot io).run st =
          .error e { map := st.map.setBlock victim none, ram := ram, file := file }) := by
  unfold swapIn
  obtain ⟨hwritten, hrun⟩ | ⟨hunwritten, e, file, hrun⟩ :=
    writeVictim_run st victim slot io.writeVictim
  · rw [run_bind_of_ok hrun]
    obtain ⟨hloaded, htake⟩ | ⟨hreload, hrestored, e, ram, htake⟩ |
        ⟨hreload, hrestore, e, ram, htake⟩ :=
      takeSlot_run (st.writeBack victim slot (st.map.geometry.logicalBlockLen victim))
        block victim slot io
    · exact .inl ⟨hloaded, htake⟩
    · exact .inr (.inl ⟨fun _ => ⟨hreload, hrestored⟩, e, ram, _, htake⟩)
    · exact .inr (.inr ⟨hwritten, hreload, hrestore, e, ram, _, htake⟩)
  · exact .inr (.inl ⟨fun h => absurd h hunwritten, e, st.ram, file, run_bind_of_error hrun⟩)

theorem swapIn_step {block victim slot cursor : Nat} {io : SwapIo}
    (hevicts : Evicts st.map block victim slot) (hcursor : cursor < st.map.geometry.numBlocks) :
    TableStep st.map block io
      (finalState ((swapIn block victim slot io).run
        { st with map := st.map.withCursor cursor })).map := by
  obtain ⟨hloaded, hrun⟩ | ⟨hsafe, e, ram, file, hrun⟩ |
      ⟨hwritten, hreload, hrestore, e, ram, file, hrun⟩ :=
    swapIn_run { st with map := st.map.withCursor cursor } block victim slot io
  · rw [hrun]
    exact .swapped victim slot cursor hevicts hloaded hcursor
  · rw [hrun]
    refine .kept cursor (fun victim' slot' hlost => ?_) (.inr hcursor)
    obtain ⟨rfl, rfl⟩ := hevicts.unique hlost.evicts
    exact (hsafe hlost.written).2 hlost.restore
  · rw [hrun]
    exact .lost victim slot cursor ⟨hevicts, hwritten, hreload, hrestore⟩ hcursor

/-- An allocation keeps the table, opens a slot, hands one over or loses its victim. -/
theorem allocateBlock_step (st : RamStore) (block : Nat) (io : SwapIo) :
    TableStep st.map block io (finalState ((allocateBlock block io).run st)).map := by
  show TableStep st.map block io (finalState (allocateBlock block io st)).map
  -- An exit before the search leaves the table alone, and no victim is at stake.
  have hkept : (∀ victim slot, ¬ Evicts st.map block victim slot) →
      TableStep st.map block io st.map := fun h =>
    .kept st.map.nextSwapout (fun victim slot hlost => h victim slot hlost.evicts) (.inl rfl)
  unfold allocateBlock
  dsimp only
  split
  · next hrange => exact hkept fun _ _ h => absurd h.inRange (Nat.not_lt.mpr hrange)
  next hrange =>
  split
  · next hin => exact hkept fun _ _ h => by simp [h.swappedOut] at hin
  next hin =>
  have hout : st.map.blocks block = none := by simpa using hin
  split
  · next hzero => exact hkept fun _ _ h => h.capacity hzero
  next hcapacity =>
  split
  · next hroom => exact loadFresh_step (Nat.lt_of_not_le hrange) hout hroom
  next hfull =>
  split
  · next hcursor => exact hkept fun _ _ h => absurd h.cursor (Nat.not_lt.mpr hcursor)
  next hcursor =>
  have hnext := nextVictim_cursor_lt (n := st.map.geometry.numBlocks) (Nat.lt_of_not_le hcursor)
  split
  · next hnone =>
    refine .kept _ (fun victim slot hlost => ?_) (.inr hnext)
    rw [hlost.evicts.found] at hnone
    cases hnone
  · next victim slot hfound =>
    exact swapIn_step ⟨Nat.lt_of_not_le hrange, hout, hcapacity, Nat.le_of_not_lt hfull,
      Nat.lt_of_not_le hcursor, hfound⟩ hnext

theorem ensureResident_step (st : RamStore) (block : Nat) (io : SwapIo) :
    TableStep st.map block io (finalState ((ensureResident block io).run st)).map := by
  show TableStep st.map block io (finalState (ensureResident block io st)).map
  unfold ensureResident
  split
  · exact allocateBlock_step st block io
  · next hin =>
    refine .kept st.map.nextSwapout (fun victim slot hlost => ?_) (.inl rfl)
    simp [hlost.evicts.swappedOut] at hin

theorem ensureResident_fresh {block : Nat} {io : SwapIo} (h : LoadsFresh st.map block io) :
    ∃ ram, (ensureResident block io).run st =
      .ok () { st with
        ram, map := st.map.openSlot block (st.map.usedBlocks * st.map.geometry.blockSize) } := by
  obtain ⟨-, hread⟩ | ⟨hfails, -⟩ := readBlockInto_run st block
    (st.map.usedBlocks * st.map.geometry.blockSize) io.readTarget
  · have hload : (loadFresh block io.readTarget).run st = _ :=
      (run_get_bind _ _).trans ((run_get_bind _ _).trans (run_bind_of_ok hread))
    refine ⟨_, Eq.trans ?_ hload⟩
    have hcapacity : st.map.geometry.capacity ≠ 0 := Nat.ne_zero_of_lt h.room
    show ensureResident block io st = _
    rw [ensureResident, h.swappedOut, Option.isNone_none, if_pos rfl]
    show allocateBlock block io st = _
    rw [allocateBlock]
    dsimp only
    rw [if_neg (Nat.not_le.mpr h.inRange), h.swappedOut, Option.isSome_none, if_neg nofun,
      if_neg hcapacity, if_pos h.room]
  · exact absurd hfails h.loaded

theorem residentSpan_state (st : RamStore) (addr : Nat) :
    finalState ((residentSpan addr).run st) = st := by
  show finalState (residentSpan addr st) = st
  unfold residentSpan
  dsimp only
  split
  · rfl
  · split <;> rfl

/-- Finding the place of an address below the end of RAM allocates its block and no more;
past the end nothing happens. -/
theorem slotRange_step (st : RamStore) (addr : Nat) (io : SwapIo) :
    st.map.geometry.guestLen ≤ addr ∧ finalState ((slotRange addr io).run st) = st ∨
      addr < st.map.geometry.guestLen ∧
        TableStep st.map (addr / st.map.geometry.blockSize) io
          (finalState ((slotRange addr io).run st)).map := by
  have hstep := ensureResident_step st (addr / st.map.geometry.blockSize) io
  show _ ∧ finalState (slotRange addr io st) = st ∨
    _ ∧ TableStep _ _ _ (finalState (slotRange addr io st)).map
  unfold slotRange
  dsimp only
  split
  · next hpast => exact .inl ⟨hpast, rfl⟩
  · next hbelow =>
    refine .inr ⟨Nat.lt_of_not_le hbelow, ?_⟩
    cases hrun : (ensureResident (addr / st.map.geometry.blockSize) io).run st with
    | ok u st' =>
      rw [run_bind_of_ok hrun, residentSpan_state]
      rw [hrun] at hstep
      exact hstep
    | error e st' =>
      rw [run_bind_of_error hrun]
      rw [hrun] at hstep
      exact hstep

theorem slotRange_fresh {addr : Nat} {io : SwapIo} (hbelow : addr < st.map.geometry.guestLen)
    (h : LoadsFresh st.map (addr / st.map.geometry.blockSize) io) :
    (finalState ((slotRange addr io).run st)).map =
      st.map.openSlot (addr / st.map.geometry.blockSize)
        (st.map.usedBlocks * st.map.geometry.blockSize) := by
  obtain ⟨ram, hrun⟩ := ensureResident_fresh h
  show (finalState (slotRange addr io st)).map = _
  rw [slotRange, if_neg (Nat.not_le.mpr hbelow), run_bind_of_ok hrun, residentSpan_state]

end RamStore

end RustyBox
