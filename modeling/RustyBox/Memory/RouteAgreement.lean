-- SUMMARY: Where the direct mapping of an address and the routed access to it go to the same bytes.
import RustyBox.Memory.Routing

/-!
# Two routes to one byte

A processor that has a host mapping of an address uses it instead of `read_physical_page` and
`write_physical_page`. The two decisions are written out separately; they part in the legacy
ROM area when PCI is off, in the option ROM area when RAM ends before it, in RAM above a BIOS
that was loaded low, and on a page behind the ROM images that no longer reads as it was filled.
-/

namespace RustyBox

open List

/-- The page that `host_mem_range` maps where nothing answers: it follows the ROM images. -/
def bogusOffset : Nat := biosRomSize + exRomSize

namespace Board

variable (b : Board)

/-- The routed byte `i` of an access is byte `i` of a host mapping. Where nothing answers the
mapping shows the bogus page, and a routed read gives the value that page was filled with. -/
def Shows (a20 i : Nat) : Cell → Cell → Prop
  | .ram off, routed => routed = .ram (off + i)
  | .rom off, routed => routed = .rom (off + i)
  | .blank v, routed => routed = .blank v ∧ b.rom (bogusOffset + a20 % 0x1000 + i) = v

/-- An access of the length stays in the page and in what the mapping covers, and its end is
an address. -/
structure Fits (addr : BitVec 64) (c : Cell) (len : Nat) : Prop where
  pos : 0 < len
  page : addr.toNat % 0x1000 + len ≤ 0x1000
  wrap : addr.toNat + len < 2 ^ 64
  ram : ∀ off, c = .ram off → off + len ≤ b.guestLen

/-- A host mapping of an address, if one is handed out, is of the bytes the route goes to. -/
def MappingAgrees (addr : BitVec 64) (mapping : Option Cell) (route : Nat → Route) : Prop :=
  ∀ c, mapping = some c → ∀ len, b.Fits addr c len →
    ∃ cell : Nat → Cell, route len = .cells ((range len).map cell) ∧
      ∀ i < len, b.Shows (b.a20Addr addr).toNat i c (cell i)

/-- RAM in the legacy ROM area is read through, but not routed to, with PCI off. -/
def LegacyUnrouted (a : Nat) : Prop :=
  b.pciEnabled = false ∧ 0xC0000 ≤ a ∧ a < 0x100000 ∧ a < b.guestLen

/-- An option ROM is routed to only where there is RAM under it. -/
def OptionRomUnbacked (a : Nat) : Prop :=
  b.pciEnabled = true ∧ 0xC0000 ≤ a ∧ a < 0xE0000 ∧ b.memoryType (shadowArea a) false = false ∧
    b.guestLen < a / 0x1000 * 0x1000 + 0x1000

/-- RAM above a BIOS that was loaded low is mapped as BIOS and routed to as RAM. -/
def BiosOverRam (a20 : BitVec 64) : Prop :=
  ¬ (0xA0000 ≤ a20.toNat ∧ a20.toNat < 0x100000) ∧ b.isBios a20.toNat ∧
    (guestRamSpan a20 1 b.guestLen).isSome

/-- The addresses that show the bogus page: neither RAM nor BIOS nor ROM area, and not the
local APIC's. -/
def OnBogusPage (a20 : BitVec 64) : Prop :=
  guestRamSpan a20 1 b.guestLen = none ∧ b.isBios a20.toNat = false ∧
    ¬ (b.pciEnabled ∧ 0xC0000 ≤ a20.toNat ∧ a20.toNat < 0x100000) ∧
    ¬ (0xFEE00000 ≤ a20.toNat ∧ a20.toNat < 0xFEF00000)

/-- A byte of the bogus page that can be read from the address is not what it was filled
with. -/
def BogusOverwritten (addr : BitVec 64) : Prop :=
  ∃ i, b.Fits addr (.blank 0xFF#8) (i + 1) ∧
    b.rom (bogusOffset + (b.a20Addr addr).toNat % 0x1000 + i) ≠ 0xFF#8

/-- Neither SMRAM nor a window is concerned. -/
structure Unclaimed (addr : BitVec 64) : Prop where
  window : inSmramWindow (b.a20Addr addr).toNat = false
  mmio : b.mmio.covers (b.a20Addr addr).toNat = false

/-- The addresses at which the two decisions differ; all of them have a host mapping. -/
def RoutesPart (addr : BitVec 64) : Prop :=
  b.Unclaimed addr ∧
    (b.LegacyUnrouted (b.a20Addr addr).toNat ∨ b.OptionRomUnbacked (b.a20Addr addr).toNat ∨
      b.BiosOverRam (b.a20Addr addr) ∨
      b.OnBogusPage (b.a20Addr addr) ∧ b.BogusOverwritten addr)

end Board

/-! ## Arithmetic of the ROM images -/

/-- Every megabyte shows the last one of the BIOS image. -/
theorem biosMapLast128k_eq (a : Nat) : biosMapLast128k a = 0x300000 + a % 0x100000 := by
  have hmask : ∀ j, (0xfff00000 : Nat).testBit j =
      if j < 20 then false else (0xfff : Nat).testBit (j - 20) := by
    intro j
    rw [show (0xfff00000 : Nat) = 2 ^ 20 * 0xfff + 0 by rfl,
      Nat.testBit_two_pow_mul_add _ (by decide)]
    simp
  apply Nat.eq_of_testBit_eq
  intro j
  rw [biosMapLast128k, biosRomSize, show 0x400000 = 2 ^ 22 by rfl, Nat.testBit_mod_two_pow,
    Nat.testBit_or, hmask, show 0x300000 = 2 ^ 20 * 3 by rfl,
    Nat.testBit_two_pow_mul_add _ (Nat.mod_lt _ (by decide)), Nat.testBit_mod_two_pow]
  by_cases hlow : j < 20
  · simp [hlow, show j < 22 by omega]
  · obtain rfl | rfl | hhigh : j = 20 ∨ j = 21 ∨ 22 ≤ j := by omega
    · simp
    · simp [show Nat.testBit 4095 1 = true by decide, show Nat.testBit 3 1 = true by decide]
    · rw [if_neg hlow, if_neg hlow, decide_eq_false (by omega), eq_comm]
      have hpow : 2 ^ 2 ≤ 2 ^ (j - 20) := Nat.pow_le_pow_right (by decide) (by omega)
      exact Nat.testBit_lt_two_pow (by omega)

/-- The ROM byte of the legacy area, from where the page's first one is. -/
theorem romCell_eq (a : Nat) : Board.romCell a =
    .rom (if a / 0x20000 = 7 then 0x300000 + a % 0x100000 else a % 0x20000 + 0x400000) := by
  unfold Board.romCell
  rw [biosMapLast128k_eq]
  split <;> rfl

namespace Board

variable {b : Board} {p : CpuMemoryPolicy} {addr : BitVec 64} {len : Nat}

/-! ## The routed access outside SMRAM and the windows -/

theorem le_a20Addr (b : Board) (addr : BitVec 64) :
    addr.toNat ≤ (b.a20Addr addr).toNat + 0x100000 := by
  rw [a20Addr, Machine.toNat_applyA20]
  split <;> omega

variable {c : Cell}

theorem Fits.page_a20 (h : b.Fits addr c len) : (b.a20Addr addr).toNat % 0x1000 + len ≤ 0x1000 := by
  rw [b.mod_a20Addr addr (.inr (.inr rfl))]
  exact h.page

/-- With SMRAM and the windows out of the way, RAM decides. -/
theorem Unclaimed.physicalPage {legacy : Nat → Cell} {outside : Nat → List Cell}
    (hfree : b.Unclaimed addr) (h : b.Fits addr c len) :
    b.physicalPage p addr len legacy outside =
      .cells (if (guestRamSpan (b.a20Addr addr) len b.guestLen).isSome then
          if 0xA0000 ≤ (b.a20Addr addr).toNat ∧ (b.a20Addr addr).toNat < 0x100000 then
            (range len).map fun i => legacy ((b.a20Addr addr).toNat + i)
          else b.stubCells (b.a20Addr addr) len
        else outside (b.a20Addr addr).toNat) := by
  have hpos := h.pos
  have hpage := h.page
  have hlookup : b.mmio.lookup (b.a20Addr addr).toNat = none := by
    simpa [MmioMap.covers, MmioMap.lookup] using hfree.mmio
  unfold Board.physicalPage
  rw [if_neg (by omega), smramHit, hfree.window, hlookup]
  simp only [Bool.and_false, Bool.false_and, Bool.false_eq_true, if_false]
  split
  · split <;> rfl
  · rfl

theorem Fits.wrap_a20 (h : b.Fits addr c len) : (b.a20Addr addr).toNat + len < 2 ^ 64 := by
  have hwrap := h.wrap
  rw [a20Addr, Machine.toNat_applyA20]
  split <;> omega

variable {off : Nat} {route : Nat → Route} {a20 : BitVec 64}

/-- A span of RAM within a page. -/
theorem Fits.guestRamSpan (h : b.Fits addr (.ram off) len)
    (hspan : guestRamSpan (b.a20Addr addr) 1 b.guestLen = some off) :
    guestRamSpan (b.a20Addr addr) len b.guestLen = some off := by
  have hpage := h.page_a20
  have hram := h.ram off rfl
  rw [Machine.guestRamSpan_eq_some] at hspan ⊢
  obtain ⟨-, hside, -, rfl⟩ := hspan
  have hstart : pciHoleStart = 0xC0000000 := rfl
  exact ⟨h.wrap_a20, by omega, hram, rfl⟩

/-- A span that starts outside RAM is outside it. -/
theorem guestRamSpan_none (h : guestRamSpan a20 1 b.guestLen = none)
    (hpos : 0 < len) : guestRamSpan a20 len b.guestLen = none := by
  rw [Option.eq_none_iff_forall_ne_some] at h ⊢
  intro off hspan
  rw [Machine.guestRamSpan_eq_some] at hspan
  refine h off (Machine.guestRamSpan_eq_some.mpr ?_)
  omega

theorem guestRamSpan_legacy (hend : a20.toNat + len ≤ 0x100000) :
    (guestRamSpan a20 len b.guestLen).isSome ↔ a20.toNat + len ≤ b.guestLen := by
  have hspan : ∀ off, guestRamSpan a20 len b.guestLen = some off ↔
      a20.toNat + len ≤ b.guestLen ∧ off = a20.toNat := by
    intro off
    have hstart : pciHoleStart = 0xC0000000 := rfl
    have hlow : translateGpaToLinear a20.toNat = a20.toNat := if_neg (by unfold pciHoleEnd; omega)
    rw [Machine.guestRamSpan_eq_some]
    omega
  rw [Option.isSome_iff_exists]
  simp [hspan]

/-! ## Mappings of RAM, of ROM and of nothing -/

theorem stubCells_of_span (hpos : 0 < len)
    (h : guestRamSpan a20 len b.guestLen = some off) :
    b.stubCells a20 len = (range len).map fun i => .ram (off + i) := by
  have hside := (Machine.guestRamSpan_eq_some.mp h).2.1
  unfold stubCells
  rw [if_neg (by omega), h]
  rfl

/-- A mapping of RAM agrees with a route that goes to RAM. -/
theorem agrees_ram (h : ∀ len, b.Fits addr (.ram off) len →
      route len = .cells ((range len).map fun i => .ram (off + i))) :
    b.MappingAgrees addr (some (.ram off)) route := by
  rintro c ⟨⟩ len hfits
  exact ⟨_, h len hfits, fun i _ => rfl⟩

theorem agrees_rom (cell : Nat → Cell)
    (h : ∀ len, b.Fits addr (.rom off) len → route len = .cells ((range len).map cell))
    (hcell : ∀ i, (b.a20Addr addr).toNat % 0x1000 + i < 0x1000 → cell i = .rom (off + i)) :
    b.MappingAgrees addr (some (.rom off)) route := by
  rintro c ⟨⟩ len hfits
  have hpage := hfits.page_a20
  exact ⟨cell, h len hfits, fun i hi => hcell i (by omega)⟩

/-- A mapping of the bogus page agrees while the page is as it was filled. -/
theorem agrees_blank_iff (h : ∀ len, b.Fits addr (.blank 0xFF#8) len →
      route len = .cells (replicate len (.blank 0xFF#8))) :
    b.MappingAgrees addr (some (.blank 0xFF#8)) route ↔
      ¬ b.BogusOverwritten addr := by
  have hconst : ∀ len, replicate len (Cell.blank 0xFF#8) =
      (range len).map fun _ => Cell.blank 0xFF#8 := by
    intro len
    rw [map_const', length_range]
  constructor
  · rintro hagrees ⟨i, hfits, hne⟩
    obtain ⟨cell, -, hshows⟩ := hagrees _ rfl (i + 1) hfits
    exact hne (hshows i (Nat.lt_succ_self i)).2
  · rintro hintact c ⟨⟩ len hfits
    refine ⟨fun _ => .blank 0xFF#8, (h len hfits).trans (by rw [hconst]), fun i hi => ⟨rfl, ?_⟩⟩
    by_contra hne
    have hpage := hfits.page
    have hwrap := hfits.wrap
    exact hintact ⟨i, ⟨by omega, by omega, by omega, nofun⟩, hne⟩

/-- A first byte that differs settles it. -/
theorem not_agrees_of_first {first : Cell} {rest : List Cell} (hfits : b.Fits addr c len)
    (hroute : route len = .cells (first :: rest))
    (hne : ¬ b.Shows (b.a20Addr addr).toNat 0 c first) : ¬ b.MappingAgrees addr (some c) route := by
  intro hagrees
  obtain ⟨cell, hcells, hshows⟩ := hagrees c rfl len hfits
  have hpos := hfits.pos
  rw [hroute, ← Nat.sub_add_cancel hpos, List.range_succ_eq_map, List.map_cons] at hcells
  have hfirst := hshows 0 hpos
  simp only [Route.cells.injEq, List.cons.injEq] at hcells
  rw [← hcells.1] at hfirst
  exact hne hfirst

/-! ## Reads, area by area -/

/-- A byte of the legacy ROM area, a few bytes on in the page. -/
theorem legacyReadCell_page {a i : Nat} (hlow : 0xC0000 ≤ a) (hhigh : a < 0x100000)
    (hi : a % 0x1000 + i < 0x1000) :
    b.legacyReadCell (a + i) =
      if b.pciEnabled then
        if b.memoryType (shadowArea a) false then .ram (a + i) else romCell (a + i)
      else .blank 0#8 := by
  have harea : shadowArea (a + i) = shadowArea a := by
    unfold shadowArea
    omega
  have hram : translateGpaToLinear (a + i) = a + i := if_neg (by unfold pciHoleEnd; omega)
  unfold legacyReadCell
  rw [if_neg (by omega), harea, hram]

theorem Unclaimed.legacyRead (hfree : b.Unclaimed addr) (hlow : 0xC0000 ≤ (b.a20Addr addr).toNat)
    (hhigh : (b.a20Addr addr).toNat < 0x100000) (hfits : b.Fits addr c len)
    (hspan : (b.a20Addr addr).toNat + len ≤ b.guestLen) :
    b.readPhysicalPage p addr len = .cells ((range len).map fun i =>
      if b.pciEnabled then
        if b.memoryType (shadowArea (b.a20Addr addr).toNat) false then
          .ram ((b.a20Addr addr).toNat + i)
        else romCell ((b.a20Addr addr).toNat + i)
      else .blank 0#8) := by
  have hpage := hfits.page_a20
  unfold readPhysicalPage
  rw [hfree.physicalPage hfits,
    if_pos ((guestRamSpan_legacy (by omega)).mpr hspan), if_pos ⟨by omega, hhigh⟩]
  congr 1
  refine map_congr_left fun i hi => legacyReadCell_page hlow hhigh ?_
  have := List.mem_range.mp hi
  omega

theorem Unclaimed.outsideRead (hfree : b.Unclaimed addr) (hfits : b.Fits addr c len)
    (hspan : guestRamSpan (b.a20Addr addr) len b.guestLen = none) :
    b.readPhysicalPage p addr len =
      .cells (if b.isBios (b.a20Addr addr).toNat then
        (range len).map fun i => .rom (biosMapLast128k ((b.a20Addr addr).toNat + i))
        else replicate len (.blank 0xFF#8)) := by
  unfold readPhysicalPage
  rw [hfree.physicalPage hfits, hspan, if_neg (by simp)]

theorem biosMapLast128k_page {a i : Nat} (hi : a % 0x1000 + i < 0x1000) :
    biosMapLast128k (a + i) = biosMapLast128k a + i := by
  rw [biosMapLast128k_eq, biosMapLast128k_eq]
  omega

section

variable (hfree : b.Unclaimed addr)
include hfree

/-- Shadow RAM. -/
theorem read_shadow_agrees (hpci : b.pciEnabled = true)
    (hlow : 0xC0000 ≤ (b.a20Addr addr).toNat) (hhigh : (b.a20Addr addr).toNat < 0x100000)
    (hshadow : b.memoryType (shadowArea (b.a20Addr addr).toNat) false = true) :
    b.MappingAgrees addr (b.residentRam (b.a20Addr addr)) (b.readPhysicalPage p addr) := by
  unfold residentRam
  cases hspan : guestRamSpan (b.a20Addr addr) 1 b.guestLen with
  | none => exact fun c hc => nomatch hc
  | some off =>
    obtain ⟨-, -, -, rfl⟩ := Machine.guestRamSpan_eq_some.mp hspan
    have hram : translateGpaToLinear (b.a20Addr addr).toNat = (b.a20Addr addr).toNat :=
      if_neg (by unfold pciHoleEnd; omega)
    refine agrees_ram fun len hfits => ?_
    have hlen := hfits.ram _ rfl
    rw [hram] at hlen ⊢
    rw [hfree.legacyRead hlow hhigh hfits hlen, hpci, hshadow]
    rfl

omit hfree in
/-- The ROM byte of the area, a few bytes on in the page. -/
theorem romCell_page {a i : Nat} (hi : a % 0x1000 + i < 0x1000)
    (h : romCell a = .rom off) : romCell (a + i) = .rom (off + i) := by
  rw [romCell_eq, Cell.rom.injEq] at h
  rw [romCell_eq, ← h, show (a + i) / 0x20000 = a / 0x20000 by omega]
  congr 1
  split <;> omega

/-- ROM under an area that is not shadowed: the BIOS image is reached with or without RAM. -/
theorem read_rom_agrees (hpci : b.pciEnabled = true)
    (hlow : 0xC0000 ≤ (b.a20Addr addr).toNat) (hhigh : (b.a20Addr addr).toNat < 0x100000)
    (hrom : b.memoryType (shadowArea (b.a20Addr addr).toNat) false = false)
    (hbacked : ¬ b.OptionRomUnbacked (b.a20Addr addr).toNat) :
    b.MappingAgrees addr (some (romCell (b.a20Addr addr).toNat)) (b.readPhysicalPage p addr) := by
  obtain ⟨off, hoff⟩ : ∃ off, romCell (b.a20Addr addr).toNat = .rom off := ⟨_, romCell_eq _⟩
  rw [hoff]
  refine agrees_rom (fun i => romCell ((b.a20Addr addr).toNat + i)) (fun len hfits => ?_)
    (fun i hi => romCell_page hi hoff)
  have hpage := hfits.page_a20
  by_cases hspan : (b.a20Addr addr).toNat + len ≤ b.guestLen
  · rw [hfree.legacyRead hlow hhigh hfits hspan, hpci, hrom]
    rfl
  · have hbios : 0xE0000 ≤ (b.a20Addr addr).toNat := by
      by_contra hopt
      exact hbacked ⟨hpci, hlow, by omega, hrom, by omega⟩
    have hnone : guestRamSpan (b.a20Addr addr) len b.guestLen = none := by
      rw [← Option.not_isSome_iff_eq_none, guestRamSpan_legacy (by omega)]
      exact hspan
    have hisBios : b.isBios (b.a20Addr addr).toNat = true := by
      simp only [isBios, decide_eq_true_eq]
      omega
    rw [hfree.outsideRead hfits hnone, hisBios]
    congr 1
    refine map_congr_left fun i hi => ?_
    have hi := List.mem_range.mp hi
    unfold romCell
    rw [if_pos (by omega)]

/-- An option ROM with no RAM under the end of its page. -/
theorem read_optionRom_differs (h : b.OptionRomUnbacked (b.a20Addr addr).toNat) :
    ¬ b.MappingAgrees addr (some (romCell (b.a20Addr addr).toNat)) (b.readPhysicalPage p addr) := by
  obtain ⟨hpci, hlow, hhigh, hrom, hend⟩ := h
  have hmod := b.mod_a20Addr addr (.inr (.inr rfl))
  have hle := b.le_a20Addr addr
  have hcell : romCell (b.a20Addr addr).toNat = .rom ((b.a20Addr addr).toNat % 0x20000 + 0x400000) := by
    rw [romCell_eq, if_neg (by omega)]
  have hfits : b.Fits addr (romCell (b.a20Addr addr).toNat) (0x1000 - addr.toNat % 0x1000) :=
    ⟨by omega, by omega, by omega, by rw [hcell]; exact nofun⟩
  have hnone : guestRamSpan (b.a20Addr addr) (0x1000 - addr.toNat % 0x1000) b.guestLen =
      none := by
    rw [← Option.not_isSome_iff_eq_none, guestRamSpan_legacy (by omega)]
    omega
  have hroute := hfree.outsideRead (p := p) hfits hnone
  obtain ⟨n, hn⟩ : ∃ n, 0x1000 - addr.toNat % 0x1000 = n + 1 :=
    ⟨_, (Nat.sub_add_cancel hfits.pos).symm⟩
  rw [hn] at hroute hfits
  by_cases hbios : b.isBios (b.a20Addr addr).toNat = true
  · rw [if_pos hbios, List.range_succ_eq_map, List.map_cons] at hroute
    refine not_agrees_of_first hfits hroute ?_
    rw [hcell, biosMapLast128k_eq]
    intro hshows
    have hoff := Cell.rom.inj hshows
    omega
  · rw [if_neg hbios] at hroute
    refine not_agrees_of_first hfits hroute ?_
    rw [hcell]
    exact nofun

/-- The legacy ROM area with PCI off and RAM under it: nothing is read. -/
theorem read_legacy_differs (h : b.LegacyUnrouted (b.a20Addr addr).toNat)
    (off : Nat) : ¬ b.MappingAgrees addr (some (.rom off)) (b.readPhysicalPage p addr) := by
  obtain ⟨hpci, hlow, hhigh, hram⟩ := h
  have hle := b.le_a20Addr addr
  have hfits : b.Fits addr (.rom off) 1 := ⟨by omega, by omega, by omega, nofun⟩
  have hroute := hfree.legacyRead (p := p) hlow hhigh hfits hram
  rw [hpci] at hroute
  exact not_agrees_of_first hfits hroute nofun

omit hfree in
theorem le_of_isBios {a : Nat} (h : b.isBios a = true) : a ≤ 0xffffffff := by
  simp only [isBios, decide_eq_true_eq] at h
  exact h.1

/-- The BIOS image outside RAM. -/
theorem read_bios_agrees (hspan : guestRamSpan (b.a20Addr addr) 1 b.guestLen = none)
    (hbios : b.isBios (b.a20Addr addr).toNat = true) :
    b.MappingAgrees addr (some (.rom (biosMapLast128k (b.a20Addr addr).toNat)))
      (b.readPhysicalPage p addr) := by
  refine agrees_rom _ (fun len hfits => ?_) (fun i hi => congrArg Cell.rom (biosMapLast128k_page hi))
  rw [hfree.outsideRead hfits (guestRamSpan_none hspan hfits.pos), if_pos hbios]

/-- Nothing at all. -/
theorem read_bogus_agrees_iff (hspan : guestRamSpan (b.a20Addr addr) 1 b.guestLen = none)
    (hbios : b.isBios (b.a20Addr addr).toNat = false) :
    b.MappingAgrees addr (some (.blank 0xFF#8)) (b.readPhysicalPage p addr) ↔
      ¬ b.BogusOverwritten addr := by
  refine agrees_blank_iff fun len hfits => ?_
  rw [hfree.outsideRead hfits (guestRamSpan_none hspan hfits.pos), hbios]
  rfl

/-- RAM outside the legacy area is read as RAM. -/
theorem Unclaimed.ramRead
    (hout : ¬ (0xA0000 ≤ (b.a20Addr addr).toNat ∧ (b.a20Addr addr).toNat < 0x100000))
    (hfits : b.Fits addr c len)
    (hspan : guestRamSpan (b.a20Addr addr) len b.guestLen = some off) :
    b.readPhysicalPage p addr len = .cells ((range len).map fun i => .ram (off + i)) := by
  unfold readPhysicalPage
  rw [hfree.physicalPage hfits, hspan, Option.isSome_some, if_pos rfl, if_neg hout,
    stubCells_of_span hfits.pos hspan]

/-- RAM that is mapped as BIOS. -/
theorem read_biosOverRam_differs (h : b.BiosOverRam (b.a20Addr addr))
    (off : Nat) : ¬ b.MappingAgrees addr (some (.rom off)) (b.readPhysicalPage p addr) := by
  obtain ⟨hout, hbios, hram⟩ := h
  obtain ⟨ramOff, hspan⟩ := Option.isSome_iff_exists.mp hram
  have hle := b.le_a20Addr addr
  have hlow := le_of_isBios hbios
  have hfits : b.Fits addr (.rom off) 1 := ⟨by omega, by omega, by omega, nofun⟩
  exact not_agrees_of_first hfits (hfree.ramRead hout hfits hspan) nofun

end

/-! ## All addresses -/

theorem agrees_none : b.MappingAgrees addr none route :=
  fun _ h => nomatch h

/-- The legacy ROM area with PCI on. -/
theorem legacy_agrees_iff (hfree : b.Unclaimed addr) (hpci : b.pciEnabled = true)
    (hlow : 0xC0000 ≤ (b.a20Addr addr).toNat) (hhigh : (b.a20Addr addr).toNat < 0x100000) :
    b.MappingAgrees addr (b.hostReadRange (b.a20Addr addr)) (b.readPhysicalPage p addr) ↔
      ¬ b.RoutesPart addr := by
  have hnotLegacy : ¬ b.LegacyUnrouted (b.a20Addr addr).toNat := by
    simp [LegacyUnrouted, hpci]
  have hnotBios : ¬ b.BiosOverRam (b.a20Addr addr) := fun h => h.1 ⟨by omega, hhigh⟩
  have hnotBogus : ¬ b.OnBogusPage (b.a20Addr addr) := fun h => h.2.2.1 ⟨hpci, hlow, hhigh⟩
  unfold hostReadRange RoutesPart
  dsimp only
  rw [hfree.window, if_neg (by decide), if_pos ⟨hpci, hlow, hhigh⟩]
  cases hshadow : b.memoryType (shadowArea (b.a20Addr addr).toNat) false with
  | true =>
    refine iff_of_true (read_shadow_agrees hfree hpci hlow hhigh hshadow) ?_
    simp [hnotLegacy, hnotBios, hnotBogus, OptionRomUnbacked, hshadow]
  | false =>
    rw [if_neg (by decide)]
    simp only [hfree, hnotLegacy, hnotBios, hnotBogus, true_and, false_and, or_false, false_or]
    exact ⟨fun hagrees h => read_optionRom_differs hfree h hagrees,
      read_rom_agrees hfree hpci hlow hhigh hshadow⟩

section

variable (hfree : b.Unclaimed addr)
  (hpci : ¬ (b.pciEnabled ∧ 0xC0000 ≤ (b.a20Addr addr).toNat ∧ (b.a20Addr addr).toNat < 0x100000))
include hfree hpci

/-- Where nothing is in RAM and PCI has no say: the BIOS image or nothing. -/
theorem outside_agrees_iff (hspan : guestRamSpan (b.a20Addr addr) 1 b.guestLen = none) :
    b.MappingAgrees addr (b.hostReadRange (b.a20Addr addr)) (b.readPhysicalPage p addr) ↔
      ¬ b.RoutesPart addr := by
  have hnotLegacy : ¬ b.LegacyUnrouted (b.a20Addr addr).toNat := by
    rintro ⟨-, hlow, hhigh, hram⟩
    have hsome : (guestRamSpan (b.a20Addr addr) 1 b.guestLen).isSome :=
      (guestRamSpan_legacy (by omega)).mpr hram
    simp [hspan] at hsome
  have hnotRom : ¬ b.OptionRomUnbacked (b.a20Addr addr).toNat :=
    fun h => hpci ⟨h.1, h.2.1, by have := h.2.2.1; omega⟩
  have hnotBios : ¬ b.BiosOverRam (b.a20Addr addr) := by
    rintro ⟨-, -, hram⟩
    simp [hspan] at hram
  unfold hostReadRange RoutesPart OnBogusPage
  simp only [hfree, hnotLegacy, hnotRom, hnotBios, hpci, hspan, true_and, false_or,
    not_false_eq_true, hfree.window, Bool.false_eq_true, Option.isSome_none, false_and, if_false]
  split
  · next hhigh =>
    have hbios : b.isBios (b.a20Addr addr).toNat = false := by
      simp only [isBios, decide_eq_false_iff_not]
      omega
    rw [read_bogus_agrees_iff hfree hspan hbios]
    simp [hbios, show ¬ (b.a20Addr addr).toNat < 0xFEF00000 by omega]
  · split
    · next hapic => exact iff_of_true agrees_none fun h => h.1.2 hapic
    · next hnotApic =>
      split
      · next hbios =>
        exact iff_of_true (read_bios_agrees hfree hspan hbios) (by simp [hbios])
      · next hbios =>
        rw [read_bogus_agrees_iff hfree hspan (by simpa using hbios)]
        simp [hbios, hnotApic]

/-- RAM, outside the legacy area or with PCI off. -/
theorem ram_agrees_iff (hspan : guestRamSpan (b.a20Addr addr) 1 b.guestLen = some off) :
    b.MappingAgrees addr (b.hostReadRange (b.a20Addr addr)) (b.readPhysicalPage p addr) ↔
      ¬ b.RoutesPart addr := by
  have hside := (Machine.guestRamSpan_eq_some.mp hspan).2.1
  have hnotBogus : ¬ b.OnBogusPage (b.a20Addr addr) := fun h => by
    rw [h.1] at hspan
    cases hspan
  have hend : pciHoleEnd = 0x100000000 := rfl
  have hstart : pciHoleStart = 0xC0000000 := rfl
  -- What is left of the mapping when the address counts as BIOS.
  have hbiosRange : b.isBios (b.a20Addr addr).toNat = true → b.hostReadRange (b.a20Addr addr) =
      some (.rom (biosMapLast128k (b.a20Addr addr).toNat)) := by
    intro hbios
    have hlow := le_of_isBios hbios
    unfold hostReadRange
    dsimp only
    rw [hfree.window, if_neg (by decide), if_neg hpci, if_neg (fun h => h.2 hbios),
      if_neg (by omega), if_neg (by omega), if_pos hbios]
  have hramRange : b.isBios (b.a20Addr addr).toNat = false → b.hostReadRange (b.a20Addr addr) =
      if 0xC0000 ≤ (b.a20Addr addr).toNat ∧ (b.a20Addr addr).toNat < 0x100000 then
        some (romCell (b.a20Addr addr).toNat)
      else some (.ram off) := by
    intro hbios
    unfold hostReadRange residentRam
    dsimp only
    rw [hfree.window, if_neg (by decide), if_neg hpci, if_pos (by simp [hspan, hbios]), hspan]
    rfl
  by_cases hlegacy : 0xC0000 ≤ (b.a20Addr addr).toNat ∧ (b.a20Addr addr).toNat < 0x100000
  · have hunrouted : b.LegacyUnrouted (b.a20Addr addr).toNat := by
      refine ⟨by simpa [hlegacy] using hpci, hlegacy.1, hlegacy.2, ?_⟩
      have hsome : (guestRamSpan (b.a20Addr addr) 1 b.guestLen).isSome := by
        rw [hspan]
        rfl
      exact (guestRamSpan_legacy (by omega)).mp hsome
    obtain ⟨romOff, hrange⟩ : ∃ romOff, b.hostReadRange (b.a20Addr addr) = some (.rom romOff) := by
      cases hbios : b.isBios (b.a20Addr addr).toNat with
      | true => exact ⟨_, hbiosRange hbios⟩
      | false => exact ⟨_, (hramRange hbios).trans ((if_pos hlegacy).trans (by rw [romCell_eq]))⟩
    rw [hrange]
    exact iff_of_false (read_legacy_differs hfree hunrouted romOff)
      fun h => h ⟨hfree, .inl hunrouted⟩
  · have hout : ¬ (0xA0000 ≤ (b.a20Addr addr).toNat ∧ (b.a20Addr addr).toNat < 0x100000) := by
      have hwindow := hfree.window
      simp only [inSmramWindow, decide_eq_false_iff_not] at hwindow
      omega
    cases hbios : b.isBios (b.a20Addr addr).toNat with
    | true =>
      have hover : b.BiosOverRam (b.a20Addr addr) := ⟨hout, hbios, by rw [hspan]; rfl⟩
      rw [hbiosRange hbios]
      exact iff_of_false (read_biosOverRam_differs hfree hover _)
        fun h => h ⟨hfree, .inr (.inr (.inl hover))⟩
    | false =>
      rw [hramRange hbios, if_neg hlegacy]
      refine iff_of_true (agrees_ram fun _ hfits =>
          hfree.ramRead hout hfits (hfits.guestRamSpan hspan)) ?_
      simp only [RoutesPart, hnotBogus, LegacyUnrouted, OptionRomUnbacked, BiosOverRam, hbios]
      simp only [Bool.false_eq_true, false_and, and_false, or_false]
      omega

end

/-- Reads agree wherever the two decisions do. -/
theorem read_agrees_iff (b : Board) (p : CpuMemoryPolicy) (addr : BitVec 64) :
    b.MappingAgrees addr (b.hostMemRange p .read addr) (b.readPhysicalPage p addr) ↔
      ¬ b.RoutesPart addr := by
  unfold hostMemRange
  dsimp only
  by_cases hmmio : b.mmio.covers (b.a20Addr addr).toNat = true
  · rw [if_pos hmmio]
    exact iff_of_true agrees_none fun h => absurd hmmio (by simp [h.1.mmio])
  · rw [if_neg hmmio]
    cases hwindow : inSmramWindow (b.a20Addr addr).toNat with
    | true =>
      have hnone : b.hostReadRange (b.a20Addr addr) = none := if_pos hwindow
      rw [hnone]
      exact iff_of_true agrees_none fun h => absurd hwindow (by simp [h.1.window])
    | false =>
      have hfree : b.Unclaimed addr := ⟨hwindow, by simpa using hmmio⟩
      by_cases hpci : b.pciEnabled ∧ 0xC0000 ≤ (b.a20Addr addr).toNat ∧
          (b.a20Addr addr).toNat < 0x100000
      · exact legacy_agrees_iff hfree hpci.1 hpci.2.1 hpci.2.2
      · cases hspan : guestRamSpan (b.a20Addr addr) 1 b.guestLen with
        | none => exact outside_agrees_iff hfree hpci hspan
        | some off => exact ram_agrees_iff hfree hpci hspan

/-- A direct write always goes where the routed write does. -/
theorem write_agrees (b : Board) (p : CpuMemoryPolicy) (addr : BitVec 64) :
    b.MappingAgrees addr (b.hostMemRange p .write addr) (b.writePhysicalPage p addr) := by
  unfold hostMemRange
  rw [if_neg (by simp)]
  split
  · exact agrees_none
  split
  · exact agrees_none
  next hmmio =>
  rw [if_pos rfl]
  split
  · next hallowed =>
    simp only [directHostWriteAllowed, decide_eq_true_eq] at hallowed
    obtain ⟨-, hram, -, hwindow, hlegacy⟩ := hallowed
    obtain ⟨off, hspan⟩ := Option.isSome_iff_exists.mp hram
    have hfree : b.Unclaimed addr := ⟨by simpa [inSmramWindow] using hwindow, by simpa using hmmio⟩
    unfold residentRam
    rw [hspan]
    refine agrees_ram fun len hfits => ?_
    have hlen := hfits.guestRamSpan hspan
    unfold writePhysicalPage
    rw [hfree.physicalPage hfits, hlen, Option.isSome_some, if_pos rfl, if_neg (by omega),
      stubCells_of_span hfits.pos hlen]
  · exact agrees_none

/-- Direct and routed accesses go to the same bytes, for every board and address, except
where the two decisions part. -/
theorem routes_agree_iff (b : Board) (p : CpuMemoryPolicy) (addr : BitVec 64) :
    (b.MappingAgrees addr (b.hostMemRange p .read addr) (b.readPhysicalPage p addr) ∧
        b.MappingAgrees addr (b.hostMemRange p .write addr) (b.writePhysicalPage p addr)) ↔
      ¬ b.RoutesPart addr := by
  rw [← read_agrees_iff]
  exact and_iff_left (write_agrees b p addr)

/-- Two megabytes of RAM, no PCI, and a BIOS loaded at 0xF0000. -/
def lowBiosBoard : Board where
  host := ⟨0x200000, rfl, by decide, true, ⟨fun _ _ _ => none, fun _ _ _ => false⟩⟩
  guestLen := 0x200000
  pciEnabled := false
  biosRomAddr := 0xF0000
  biosWriteEnabled := false
  memoryType _ _ := false
  smramAvailable := false
  smramEnable := false
  smramRestricted := false
  mmio := ⟨fun _ => none⟩
  pciConf _ := 0#8
  pamPending := false
  smramPending := false
  ram _ := 0x11#8
  rom _ := 0xFF#8

/-- The first option ROM byte is mapped and not routed to; the first byte above one megabyte
is mapped as BIOS and routed to as RAM. -/
theorem lowBiosBoard_routes_part :
    let p := CpuMemoryPolicy.outsideSmm false
    lowBiosBoard.hostMemRange p .read 0xC0000#64 = some (.rom 0x400000) ∧
      lowBiosBoard.readPhysicalPage p 0xC0000#64 1 = .cells [.blank 0#8] ∧
      lowBiosBoard.hostMemRange p .read 0x100000#64 = some (.rom 0x300000) ∧
      lowBiosBoard.readPhysicalPage p 0x100000#64 1 = .cells [.ram 0x100000] := by
  decide +kernel

end Board

end RustyBox
