-- SUMMARY: The fixed part of the machine: guest RAM layout, the A20 line and the devices.
import Mathlib.Data.Nat.Bitwise
import Mathlib.Tactic.Common
import Mathlib.Tactic.IntervalCases

/-!
# Guest RAM and devices

What does not change while a processor runs: how much guest RAM there is, where it sits
in the physical address space, whether A20 is enabled, and how the devices behind the
memory bus answer. RAM is stored densely, with the PCI hole between 3 and 4 GiB cut out,
and the legacy window `0xA0000..0xFFFFF` is never accessed as plain RAM.
-/

namespace RustyBox

/-- `BX_PCI_HOLE_START`, `BX_PCI_HOLE_END` and `BX_PCI_HOLE_SIZE`. -/
def pciHoleStart : Nat := 0xC0000000
def pciHoleEnd : Nat := 0x100000000
def pciHoleSize : Nat := 0x40000000

/-- `bx_translate_gpa_to_linear`. -/
def translateGpaToLinear (gpa : Nat) : Nat :=
  if pciHoleEnd ≤ gpa then gpa - pciHoleSize else gpa

/-- `bx_guest_ram_span`: where the bytes `gpa .. gpa + len` start in RAM, if all of them
are RAM. -/
def guestRamSpan (gpa : BitVec 64) (len ramLen : Nat) : Option Nat :=
  if 2 ^ 64 ≤ gpa.toNat + len then none
  else if len ≠ 0 ∧ gpa.toNat < pciHoleEnd ∧ pciHoleStart < gpa.toNat + len then none
  else if translateGpaToLinear gpa.toNat + len ≤ ramLen then some (translateGpaToLinear gpa.toNat)
  else none

/-- An access that reached a device. `walkWrite` is an accessed/dirty update of a paging
structure that does not live in RAM. -/
inductive DeviceAccess
  | read (addr : BitVec 64) (len : Nat)
  | write (addr : BitVec 64) (len : Nat) (val : BitVec 64)
  | walkWrite (addr : BitVec 64) (len : Nat) (val : BitVec 64)

/-- Everything on the memory bus that is not plain RAM (the legacy window, ROM, the local
APIC, PCI devices). Its answers depend on all earlier accesses; `none` and `false` are a
transaction the memory system refuses. -/
structure Devices where
  read : List DeviceAccess → BitVec 64 → Nat → Option (BitVec 64)
  accepts : List DeviceAccess → BitVec 64 → Nat → Bool

/-- `hostLen` is 0 when guest RAM is not directly addressable. RAM is a whole number of
8-byte words, so that a paging-structure entry is in RAM or outside it as a whole, and no
longer than a slice can be. -/
structure Machine where
  hostLen : Nat
  hostLen_mod : hostLen % 8 = 0
  hostLen_lt : hostLen < 2 ^ 63
  a20Enabled : Bool
  devices : Devices

namespace Machine

variable (m : Machine)

def a20Mask : BitVec 64 := if m.a20Enabled then 0xFFFFFFFFFFFFFFFF#64 else 0xFFFFFFFFFFEFFFFF#64

/-- `apply_a20`. -/
def applyA20 (paddr : BitVec 64) : BitVec 64 := paddr &&& m.a20Mask

/-- `is_plain_ram_for_walk`. -/
def isPlainRamForWalk (a20Addr : BitVec 64) : Bool :=
  a20Addr.toNat < 0xA0000 ∨ 0x100000 ≤ a20Addr.toNat

/-- `direct_ram_offset`: the RAM offset a data access of `len` bytes goes to directly. -/
def directRamOffset (addr : BitVec 64) (len : Nat) : Option Nat :=
  let a20 := m.applyA20 addr
  if (a20.toNat < 0xA0000 ∧ a20.toNat + len ≤ 0xA0000) ∨ 0x100000 ≤ a20.toNat then
    guestRamSpan a20 len m.hostLen
  else none

/-- The RAM offset at which a page walk reads or writes an entry directly. -/
def walkRamOffset (paddr : BitVec 64) (len : Nat) : Option Nat :=
  let a20 := m.applyA20 paddr
  if isPlainRamForWalk a20 then guestRamSpan a20 len m.hostLen else none

/-- The `host_page` a data TLB fill caches for a page frame: a RAM offset that begins a
page. -/
def hostPage (ppf : BitVec 64) : Option Nat :=
  (m.walkRamOffset ppf 0x1000).filter (· % 0x1000 = 0)

theorem toNat_applyA20 (paddr : BitVec 64) :
    (m.applyA20 paddr).toNat =
      if m.a20Enabled then paddr.toNat else paddr.toNat - paddr.toNat / 2 ^ 20 % 2 * 2 ^ 20 := by
  unfold applyA20 a20Mask
  split
  · rw [show 0xFFFFFFFFFFFFFFFF#64 = BitVec.allOnes 64 by decide, BitVec.and_allOnes]
  · have hparts : (paddr &&& 0xFFFFFFFFFFEFFFFF#64) + (paddr &&& 0x100000#64) = paddr := by
      rw [BitVec.add_eq_or_of_and_eq_zero, ← BitVec.and_or_distrib_left]
      · exact BitVec.and_allOnes
      · rw [BitVec.and_assoc, ← BitVec.and_assoc _ paddr, BitVec.and_comm _ paddr,
          BitVec.and_assoc paddr]
        simp
    have hbit : (paddr &&& 0x100000#64).toNat = paddr.toNat / 2 ^ 20 % 2 * 2 ^ 20 := by
      rw [BitVec.toNat_and, show (0x100000#64).toNat = 2 ^ 20 by decide, Nat.and_two_pow,
        Nat.toNat_testBit]
    have hsum := congrArg BitVec.toNat hparts
    rw [BitVec.toNat_add] at hsum
    omega

/-- A step within a page leaves bit 20 alone. -/
theorem applyA20_add {x : BitVec 64} {i : Nat} (h : x.toNat % 0x1000 + i < 0x1000) :
    m.applyA20 (x + BitVec.ofNat 64 i) = m.applyA20 x + BitVec.ofNat 64 i := by
  apply BitVec.eq_of_toNat_eq
  simp only [toNat_applyA20, BitVec.toNat_add, BitVec.toNat_ofNat]
  split
  · rfl
  · omega

theorem guestRamSpan_eq_some {gpa : BitVec 64} {len ramLen off : Nat} :
    guestRamSpan gpa len ramLen = some off ↔
      gpa.toNat + len < 2 ^ 64 ∧
        (len = 0 ∨ pciHoleEnd ≤ gpa.toNat ∨ gpa.toNat + len ≤ pciHoleStart) ∧
        translateGpaToLinear gpa.toNat + len ≤ ramLen ∧ off = translateGpaToLinear gpa.toNat := by
  unfold guestRamSpan
  split_ifs <;> simp only [Option.some.injEq, false_iff] <;> omega

variable {m}

theorem directRamOffset_eq_some {addr : BitVec 64} {len off : Nat} :
    m.directRamOffset addr len = some off ↔
      ((m.applyA20 addr).toNat < 0xA0000 ∧ (m.applyA20 addr).toNat + len ≤ 0xA0000 ∨
        0x100000 ≤ (m.applyA20 addr).toNat) ∧
      guestRamSpan (m.applyA20 addr) len m.hostLen = some off := by
  unfold directRamOffset
  dsimp only
  split_ifs with h <;> simp [h]

theorem walkRamOffset_eq_some {paddr : BitVec 64} {len off : Nat} :
    m.walkRamOffset paddr len = some off ↔
      ((m.applyA20 paddr).toNat < 0xA0000 ∨ 0x100000 ≤ (m.applyA20 paddr).toNat) ∧
      guestRamSpan (m.applyA20 paddr) len m.hostLen = some off := by
  unfold walkRamOffset isPlainRamForWalk
  simp only [decide_eq_true_eq]
  split_ifs with h <;> simp [h]

/-- An aligned word outside directly accessible RAM has no byte in it. -/
theorem directRamOffset_of_walkRamOffset_none {a : BitVec 64} {n i len : Nat}
    (hn : n = 4 ∨ n = 8) (ha : a.toNat % n = 0) (hlen : 0 < len) (hi : i + len ≤ n)
    (h : m.walkRamOffset a n = none) :
    m.directRamOffset (m.applyA20 a + BitVec.ofNat 64 i) len = none := by
  have hmod := m.hostLen_mod
  have hlt := m.hostLen_lt
  have hbase : (m.applyA20 a).toNat % n = 0 := by
    rw [toNat_applyA20]
    rcases hn with rfl | rfl <;> split <;> omega
  have hidem : m.applyA20 (m.applyA20 a) = m.applyA20 a := by
    unfold applyA20
    rw [BitVec.and_assoc, BitVec.and_self]
  have hstep : m.applyA20 (m.applyA20 a + BitVec.ofNat 64 i) = m.applyA20 a + BitVec.ofNat 64 i := by
    rw [applyA20_add m (by rcases hn with rfl | rfl <;> omega), hidem]
  have haddr : (m.applyA20 a + BitVec.ofNat 64 i).toNat = (m.applyA20 a).toNat + i := by
    rw [BitVec.toNat_add, BitVec.toNat_ofNat]
    rcases hn with rfl | rfl <;> omega
  rw [Option.eq_none_iff_forall_ne_some]
  intro off hoff
  rw [directRamOffset_eq_some, guestRamSpan_eq_some, hstep] at hoff
  have hsome : m.walkRamOffset a n ≠ some (translateGpaToLinear (m.applyA20 a).toNat) := by
    rw [h]
    exact nofun
  rw [ne_eq, walkRamOffset_eq_some, guestRamSpan_eq_some] at hsome
  apply hsome
  unfold translateGpaToLinear pciHoleStart pciHoleEnd pciHoleSize at *
  by_cases hhole : 0x100000000 ≤ (m.applyA20 a).toNat
  · rw [if_pos hhole]
    rw [if_pos (by omega)] at hoff
    rcases hn with rfl | rfl <;> omega
  · rw [if_neg hhole]
    rw [if_neg (by rcases hn with rfl | rfl <;> omega)] at hoff
    rcases hn with rfl | rfl <;> omega

end Machine

end RustyBox
