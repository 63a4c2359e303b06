-- SUMMARY: Loading a BIOS image below 4 GiB, and what routed and debugger reads of it return.
import RustyBox.Memory.RouteAgreement
import RustyBox.Memory.Traffic

/-!
# BIOS images

`load_ROM` folds the address of a BIOS image into the 4 MiB ROM area, so an image that ends at
4 GiB fills the end of the area. `dbg_fetch_mem` folds the addresses it reads in the same way.
`read_physical_page` folds them into the last megabyte of the area only: of a larger image it
shows that megabyte over and over.
-/

namespace RustyBox

/-! ## Loading -/

/-- The errors of `load_ROM`. -/
inductive RomError
  | romTooLarge (len : Nat)
  | romSizeNotMultipleOf512
  | romNot2kAligned
  | romAddressOutOfRange
  deriving DecidableEq

/-- The ROM images and the bogus page behind them. -/
def romLen : Nat := bogusOffset + 0x1000

/-- `copy_from_slice` into the ROM area. -/
def overlay (rom : Nat → BitVec 8) (offset : Nat) (data : List (BitVec 8)) (o : Nat) : BitVec 8 :=
  if offset ≤ o then data.getD (o - offset) (rom o) else rom o

namespace Board

/-- `load_ROM`. -/
def loadRom (b : Board) (romData : List (BitVec 8)) (romAddress : BitVec 64) (romType : BitVec 8) :
    Except RomError Board :=
  let address := romAddress.toNat
  let size := romData.length
  if size = 0 then .error (.romTooLarge 0)
  else if romType = 0#8 then
    let offset := address % biosRomSize
    if romLen < offset + size then .error (.romTooLarge romLen)
    else .ok { b with rom := overlay b.rom offset romData, biosRomAddr := address % 2 ^ 32 }
  else if size % 512 ≠ 0 then .error .romSizeNotMultipleOf512
  else if address % 2048 ≠ 0 then .error .romNot2kAligned
  else if address < 0xC0000 then .error .romAddressOutOfRange
  else
    let offset :=
      if address < 0xE0000 then address % exRomSize + biosRomSize else address % biosRomSize
    if romLen < offset + size then .error (.romTooLarge romLen)
    else .ok { b with rom := overlay b.rom offset romData }

end Board

/-! ## Debugger reads -/

/-- `DbgFetch`, with the bytes of the buffer; `valid` is `Fetched::Valid`. -/
inductive DbgFetch
  | read (valid : Bool) (bytes : List (BitVec 8))
  | device (hit : MmioHit)
  deriving DecidableEq

namespace Board

variable (b : Board)

/-- `dbg_ram_byte`. -/
def dbgRamByte (a20Addr : BitVec 64) : Option (BitVec 8) :=
  (guestRamSpan a20Addr 1 b.guestLen).map b.ram

/-- One byte of `dbg_fetch_mem`, and whether there is memory. No flash is configured, so that
`dbg_bios_byte` is the byte of the ROM. -/
def dbgByte (isBios : Bool) (a20Addr : BitVec 64) : Option (Bool × BitVec 8) :=
  let a := a20Addr.toNat
  if b.pciEnabled ∧ 0xC0000 ≤ a ∧ a < 0x100000 then
    if b.memoryType (shadowArea a) false then (b.dbgRamByte a20Addr).map (true, ·)
    else some (true, b.cellValue (romCell a))
  else if translateGpaToLinear a < b.guestLen ∧ ¬ isBios then
    if pciHoleStart ≤ a ∧ a < pciHoleEnd then some (false, 0xFF#8)
    else if a < 0xC0000 ∨ 0x100000 ≤ a then (b.dbgRamByte a20Addr).map (true, ·)
    else some (true, b.cellValue (romCell a))
  else if 0xffffffff < a then some (false, 0xFF#8)
  else if isBios then some (true, b.rom (a % biosRomSize))
  else some (false, 0xFF#8)

/-- The loop of `dbg_fetch_mem`; the address wraps at the top of the address space. -/
def dbgBytes (isBios : Bool) (a20Addr : BitVec 64) : Nat → Option (Bool × List (BitVec 8))
  | 0 => some (true, [])
  | n + 1 => do
    let (valid, v) ← b.dbgByte isBios a20Addr
    let (valid', vs) ← dbgBytes isBios (a20Addr + 1#64) n
    return (valid && valid', v :: vs)

/-- `dbg_fetch_mem`; `none` is the error of `dbg_ram_byte`. -/
def dbgFetchMem (p : CpuMemoryPolicy) (addr : BitVec 64) (len : Nat) : Option DbgFetch :=
  let a20 := b.a20Addr addr
  let isBios := b.biosRomAddr ≤ a20.toNat ∧ a20.toNat ≤ 0xffffffff
  let useSmram := inSmramWindow a20.toNat && b.smramAvailable &&
    (b.smramEnable || (p.smmMode && !b.smramRestricted))
  match if useSmram then none else b.mmio.lookup a20.toNat with
  | some hit => some (.device hit)
  | none => (b.dbgBytes isBios a20 len).map fun r => .read r.1 r.2

end Board

/-! ## Reading back -/

theorem overlay_of_le {rom : Nat → BitVec 8} {offset o : Nat} {data : List (BitVec 8)}
    (hlow : offset ≤ o) (hhigh : o < offset + data.length) :
    overlay rom offset data o = data[o - offset] := by
  rw [overlay, if_pos hlow, List.getD_eq_getElem]

namespace Board

variable {b b' : Board} {image : List (BitVec 8)} {romAddress : BitVec 64}

/-- What loading an image that ends at 4 GiB does, if it is accepted. -/
structure BiosLoaded (b b' : Board) (image : List (BitVec 8)) : Prop where
  size : image.length ≤ 0x400000
  rom : b'.rom = overlay b.rom (0x400000 - image.length) image
  biosRomAddr : b'.biosRomAddr = 2 ^ 32 - image.length
  host : b'.host = b.host
  mmio : b'.mmio = b.mmio

theorem biosLoaded (hload : b.loadRom image romAddress 0#8 = .ok b')
    (hend : romAddress.toNat + image.length = 2 ^ 32) : b.BiosLoaded b' image := by
  unfold loadRom at hload
  simp only [if_true] at hload
  split_ifs at hload with hzero hsize
  cases hload
  rw [show romLen = 0x421000 from rfl, biosRomSize] at hsize
  have hle : image.length ≤ 0x400000 := by omega
  have hoffset : romAddress.toNat % biosRomSize = 0x400000 - image.length := by
    rw [biosRomSize]
    omega
  refine ⟨hle, congrArg (overlay b.rom · image) hoffset, ?_, rfl, rfl⟩
  dsimp only
  omega

section Loaded

variable (h : b.BiosLoaded b' image) (ha20 : b.host.a20Enabled = true)
  (hend : romAddress.toNat + image.length = 2 ^ 32)
  (hfree : ∀ i < image.length, b.mmio.covers (romAddress.toNat + i) = false)
  {i : Nat} (hi : i < image.length)

include hend hi in
theorem toNat_biosAddr : (romAddress + BitVec.ofNat 64 i).toNat = romAddress.toNat + i := by
  rw [BitVec.toNat_add, BitVec.toNat_ofNat]
  omega

include h ha20 hend hi in
theorem BiosLoaded.toNat_a20Addr :
    (b'.a20Addr (romAddress + BitVec.ofNat 64 i)).toNat = romAddress.toNat + i := by
  rw [a20Addr, h.host, Machine.toNat_applyA20, if_pos ha20, toNat_biosAddr hend hi]

include h ha20 hend hfree hi

theorem BiosLoaded.dbgFetchMem (p : CpuMemoryPolicy) :
    b'.dbgFetchMem p (romAddress + BitVec.ofNat 64 i) 1 = some (.read true [image[i]]) := by
  have haddr := h.toNat_a20Addr ha20 hend hi
  have hsize := h.size
  have hlookup : b'.mmio.lookup (romAddress.toNat + i) = none := by
    rw [h.mmio]
    simpa [MmioMap.covers, MmioMap.lookup] using hfree i hi
  have hbios : b'.biosRomAddr ≤ romAddress.toNat + i ∧ romAddress.toNat + i ≤ 0xffffffff := by
    rw [h.biosRomAddr]
    omega
  have hoffset : (romAddress.toNat + i) % biosRomSize = 0x400000 - image.length + i := by
    rw [biosRomSize]
    omega
  have hbyte : b'.rom (0x400000 - image.length + i) = image[i] := by
    rw [h.rom, overlay_of_le (by omega) (by omega)]
    simp
  have hlegacy : ¬ (b'.pciEnabled ∧ 0xC0000 ≤ romAddress.toNat + i ∧
      romAddress.toNat + i < 0x100000) := by omega
  simp only [Board.dbgFetchMem, haddr, hlookup, ite_self, hbios, and_self, decide_true, dbgBytes,
    dbgByte, if_neg hlegacy, not_true_eq_false, and_false, hoffset, hbyte,
    if_neg (Nat.not_lt.mpr hbios.2)]
  rfl

/-- The last megabyte of the image shows in place of every other one. -/
theorem BiosLoaded.readPhysicalPage (p : CpuMemoryPolicy) :
    b'.loaded (b'.readPhysicalPage p (romAddress + BitVec.ofNat 64 i) 1) =
      .bytes [image[i + (image.length - 1 - i) / 0x100000 * 0x100000]] := by
  have haddr := h.toNat_a20Addr ha20 hend hi
  have hsize := h.size
  have hrom : b'.rom (biosMapLast128k (romAddress.toNat + i)) =
      image[i + (image.length - 1 - i) / 0x100000 * 0x100000] := by
    rw [biosMapLast128k_eq, h.rom, overlay_of_le (by omega) (by omega)]
    congr 1
    omega
  have hunclaimed : b'.Unclaimed (romAddress + BitVec.ofNat 64 i) := by
    refine ⟨?_, ?_⟩
    · rw [inSmramWindow, decide_eq_false (by omega)]
    · rw [haddr, h.mmio]
      exact hfree i hi
  have hspan : guestRamSpan (b'.a20Addr (romAddress + BitVec.ofNat 64 i)) 1 b'.guestLen = none := by
    rw [guestRamSpan, if_neg (by omega), if_pos]
    unfold pciHoleStart pciHoleEnd
    omega
  have hfits : b'.Fits (romAddress + BitVec.ofNat 64 i) (.blank 0#8) 1 := by
    refine ⟨by decide, ?_, ?_, fun _ hram => by cases hram⟩ <;> rw [toNat_biosAddr hend hi] <;> omega
  have hbios : b'.isBios (romAddress.toNat + i) = true := by
    rw [isBios, h.biosRomAddr, decide_eq_true]
    omega
  rw [hunclaimed.outsideRead hfits hspan, haddr, hbios]
  simp [loaded, cellValue, hrom]

end Loaded

/-- A debugger reads back every byte of an image that ends at 4 GiB. The routed read does so
exactly when the image repeats its last megabyte, as every image of at most that size does. -/
theorem bios_image_reads_back_iff (hload : b.loadRom image romAddress 0#8 = .ok b')
    (hend : romAddress.toNat + image.length = 2 ^ 32) (ha20 : b.host.a20Enabled = true)
    (hfree : ∀ i < image.length, b.mmio.covers (romAddress.toNat + i) = false)
    (p : CpuMemoryPolicy) :
    (∀ i (hi : i < image.length),
      b'.dbgFetchMem p (romAddress + BitVec.ofNat 64 i) 1 = some (.read true [image[i]])) ∧
    ((∀ i (hi : i < image.length),
        b'.loaded (b'.readPhysicalPage p (romAddress + BitVec.ofNat 64 i) 1) = .bytes [image[i]]) ↔
      ∀ i (hi : i < image.length),
        image[i + (image.length - 1 - i) / 0x100000 * 0x100000] = image[i]) := by
  have h := biosLoaded hload hend
  refine ⟨fun i hi => h.dbgFetchMem ha20 hend hfree hi p, forall₂_congr fun i hi => ?_⟩
  rw [h.readPhysicalPage ha20 hend hfree hi p]
  simp

theorem lowBiosBoard_free (a : Nat) : lowBiosBoard.mmio.covers a = false := by
  rw [MmioMap.covers, MmioMap.find]
  split <;> rfl

/-- A far jump at the reset vector. -/
def resetVector : List (BitVec 8) := [0xEA#8, 0x5B#8, 0xE0#8, 0x00#8, 0xF0#8] ++ List.replicate 11 0#8

/-- A small image on a board whose BIOS was loaded low before. -/
theorem resetVector_reads_back :
    ∃ b', lowBiosBoard.loadRom resetVector 0xFFFFFFF0#64 0#8 = .ok b' ∧
      ∀ i (hi : i < resetVector.length),
        b'.dbgFetchMem .device (0xFFFFFFF0#64 + BitVec.ofNat 64 i) 1 =
          some (.read true [resetVector[i]]) ∧
        b'.loaded (b'.readPhysicalPage .device (0xFFFFFFF0#64 + BitVec.ofNat 64 i) 1) =
          .bytes [resetVector[i]] := by
  obtain ⟨b', hload⟩ : ∃ b', lowBiosBoard.loadRom resetVector 0xFFFFFFF0#64 0#8 = .ok b' :=
    ⟨_, rfl⟩
  obtain ⟨hdbg, hrouted⟩ := bios_image_reads_back_iff hload (by decide) rfl
    (fun _ _ => lowBiosBoard_free _) .device
  exact ⟨b', hload, fun i hi => ⟨hdbg i hi, hrouted.mpr (by decide) i hi⟩⟩

/-- Two megabytes; the first byte is zero and all others are one. -/
def twoMegabytes : List (BitVec 8) := 0#8 :: List.replicate 0x1FFFFF 1#8

/-- The first byte of a two-megabyte image is a zero and reads as a one. -/
theorem two_megabyte_bios_misread :
    ∃ b', lowBiosBoard.loadRom twoMegabytes 0xFFE00000#64 0#8 = .ok b' ∧
      twoMegabytes[0]? = some 0#8 ∧
      b'.loaded (b'.readPhysicalPage .device 0xFFE00000#64 1) = .bytes [1#8] := by
  have hlen : twoMegabytes.length = 0x200000 := by
    rw [twoMegabytes, List.length_cons, List.length_replicate]
  have hone : twoMegabytes[0x100000]? = some 1#8 := by
    rw [twoMegabytes, List.getElem?_cons_succ, List.getElem?_replicate_of_lt (by decide)]
  obtain ⟨b', hload⟩ : ∃ b', lowBiosBoard.loadRom twoMegabytes 0xFFE00000#64 0#8 = .ok b' := by
    simp only [loadRom, hlen]
    rw [if_neg (by decide), if_pos trivial, if_neg (by decide)]
    exact ⟨_, rfl⟩
  have hend : (0xFFE00000#64).toNat + twoMegabytes.length = 2 ^ 32 := by
    rw [hlen]
    rfl
  have hread := (biosLoaded hload hend).readPhysicalPage rfl hend (fun _ _ => lowBiosBoard_free _)
    (show 0 < twoMegabytes.length by rw [hlen]; decide) .device
  refine ⟨b', hload, rfl, hread.trans ?_⟩
  have hindex : 0 + (twoMegabytes.length - 1 - 0) / 0x100000 * 0x100000 = 0x100000 := by rw [hlen]
  simp only [hindex]
  obtain ⟨_, hbyte⟩ := List.getElem?_eq_some_iff.mp hone
  rw [hbyte]

end Board

end RustyBox
