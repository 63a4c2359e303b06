-- SUMMARY: Where physical accesses go: guest RAM, ROM or a device window, for processors and devices.
import RustyBox.Cpu.Machine
import RustyBox.Memory.MmioMap

/-!
# Routing of physical accesses

The memory system as the processors and the devices reach it. A processor gets to RAM by
the direct path, by a page walk, through a cached host page, or through
`read_physical_page` and `write_physical_page`, which look at SMRAM and at the registered
windows first. A device transfer goes through `read_ram` and `write_ram`. A route says, for
each byte of an access, which byte of RAM or ROM it is; it depends on how the board is set
up and not on what the memory holds.
-/

namespace RustyBox

open List

/-- `CpuMemoryPolicy`. -/
structure CpuMemoryPolicy where
  smmMode : Bool
  monitorHit : Bool
  cpuContext : Bool

namespace CpuMemoryPolicy

/-- A processor outside system management mode. -/
def outsideSmm (monitorHit : Bool) : CpuMemoryPolicy := ⟨false, monitorHit, true⟩

/-- `CpuMemoryPolicy::device`. -/
def device : CpuMemoryPolicy := ⟨false, false, false⟩

end CpuMemoryPolicy

/-- The memory system and the host bridge registers that steer it. `host` is what the
processors use for direct access; `guestLen` is the size of guest RAM. -/
structure Board where
  host : Machine
  guestLen : Nat
  pciEnabled : Bool
  biosRomAddr : Nat
  biosWriteEnabled : Bool
  /-- `memory_type[area][rw]`, `rw` true for writes. -/
  memoryType : Nat → Bool → Bool
  smramAvailable : Bool
  smramEnable : Bool
  smramRestricted : Bool
  mmio : MmioMap
  pciConf : Nat → BitVec 8
  pamPending : Bool
  smramPending : Bool
  ram : Nat → BitVec 8
  rom : Nat → BitVec 8

/-- One byte of an access. `blank` is a byte that nothing answers for: what a read of it
gives; a write to it is dropped. -/
inductive Cell
  | ram (off : Nat)
  | rom (off : Nat)
  | blank (v : BitVec 8)
  deriving DecidableEq

/-- `PhysAccess`, with the bytes a completed access is about. -/
inductive Route
  | cells (cs : List Cell)
  | mmio (hit : MmioHit)
  | refused
  deriving DecidableEq

/-- `MemoryAccessType`, as far as a host mapping depends on it. -/
inductive HostAccess
  | read | write | execute
  deriving DecidableEq

/-- `BIOSROMSZ`, `EXROMSIZE`. -/
def biosRomSize : Nat := 0x400000
def exRomSize : Nat := 0x20000

/-- `bios_map_last128k`. -/
def biosMapLast128k (addr : Nat) : Nat := (addr ||| 0xfff00000) % biosRomSize

/-- The SMRAM window, which the legacy VGA aperture covers. -/
def inSmramWindow (a20Addr : Nat) : Bool := 0xA0000 ≤ a20Addr ∧ a20Addr < 0xC0000

namespace Board

variable (b : Board)

/-- `a20_addr`. -/
def a20Addr (addr : BitVec 64) : BitVec 64 := b.host.applyA20 addr

/-- A20 leaves the low bits of an address alone. -/
theorem mod_a20Addr (addr : BitVec 64) {n : Nat} (hn : n = 4 ∨ n = 8 ∨ n = 0x1000) :
    (b.a20Addr addr).toNat % n = addr.toNat % n := by
  rw [a20Addr, Machine.toNat_applyA20]
  rcases hn with rfl | rfl | rfl <;> split <;> omega

variable (a20Addr : Nat)

def isBios : Bool :=
  a20Addr ≤ 0xffffffff ∧ (0xE0000 ≤ a20Addr ∧ a20Addr < 0x100000 ∨ b.biosRomAddr ≤ a20Addr)

/-- The shadow RAM area of an address in `0xC0000..0xFFFFF`. -/
def shadowArea : Nat := min (a20Addr / 0x4000 % 16) 12

/-- `len` bytes of RAM from an offset. -/
def ramCells (off len : Nat) : List Cell := (range len).map fun i => .ram (off + i)

/-- The bytes `BxMemoryStubC::read_physical_page` and `write_physical_page` go to. -/
def stubCells (a20Addr : BitVec 64) (len : Nat) : List Cell :=
  if pciHoleStart ≤ a20Addr.toNat ∧ a20Addr.toNat < pciHoleEnd then
    replicate len (.blank 0xFF#8)
  else match guestRamSpan a20Addr len b.guestLen with
    | some off => ramCells off len
    | none => replicate len (.blank 0xFF#8)

/-- The ROM byte that `0xC0000..0xFFFFF` shows when it is not shadowed. -/
def romCell : Cell :=
  if a20Addr / 0x20000 = 7 then .rom (biosMapLast128k a20Addr)
  else .rom (a20Addr % exRomSize + biosRomSize)

/-- A byte read in `0xA0000..0xFFFFF`. -/
def legacyReadCell : Cell :=
  if a20Addr < 0xC0000 then .ram (translateGpaToLinear a20Addr)
  else if b.pciEnabled then
    if b.memoryType (shadowArea a20Addr) false then .ram (translateGpaToLinear a20Addr)
    else romCell a20Addr
  else .blank 0#8

/-- A byte written in `0xA0000..0xFFFFF`. -/
def legacyWriteCell : Cell :=
  if a20Addr < 0xC0000 then .ram (translateGpaToLinear a20Addr)
  else if b.pciEnabled then
    if b.memoryType (shadowArea a20Addr) true then .ram (translateGpaToLinear a20Addr)
    else if 8 ≤ shadowArea a20Addr ∧ b.biosWriteEnabled then .rom (biosMapLast128k a20Addr)
    else .blank 0#8
  else .blank 0#8

variable (p : CpuMemoryPolicy)

/-- Whether an access is answered by SMRAM. -/
def smramHit (a20Addr : Nat) : Bool :=
  p.cpuContext && inSmramWindow a20Addr && b.smramAvailable &&
    (b.smramEnable || (p.smmMode && !b.smramRestricted))

/-- A page-crossing access is refused; SMRAM comes before the registered windows, and
those before RAM. What is left is the part in which reads and writes differ. -/
def physicalPage (addr : BitVec 64) (len : Nat) (legacy : Nat → Cell)
    (outside : Nat → List Cell) : Route :=
  let a20 := b.a20Addr addr
  if addr.toNat / 0x1000 ≠ (addr.toNat + len - 1) / 0x1000 then .refused
  else if b.smramHit p a20.toNat then .cells (b.stubCells a20 len)
  else match b.mmio.lookup a20.toNat with
    | some hit => .mmio hit
    | none =>
      if (guestRamSpan a20 len b.guestLen).isSome then
        if 0xA0000 ≤ a20.toNat ∧ a20.toNat < 0x100000 then
          .cells ((range len).map fun i => legacy (a20.toNat + i))
        else .cells (b.stubCells a20 len)
      else .cells (outside a20.toNat)

/-- `read_physical_page`. -/
def readPhysicalPage (addr : BitVec 64) (len : Nat) : Route :=
  b.physicalPage p addr len b.legacyReadCell fun a20 =>
    if b.isBios a20 then (range len).map fun i => .rom (biosMapLast128k (a20 + i))
    else replicate len (.blank 0xFF#8)

/-- `write_physical_page`. -/
def writePhysicalPage (addr : BitVec 64) (len : Nat) : Route :=
  b.physicalPage p addr len b.legacyWriteCell fun a20 =>
    if b.biosWriteEnabled && b.isBios a20 then
      (range len).map fun i => .rom (biosMapLast128k (a20 + i))
    else replicate len (.blank 0#8)

/-- `resident_ram_range`: the first byte of the range. -/
def residentRam (a20Addr : BitVec 64) : Option Cell :=
  (guestRamSpan a20Addr 1 b.guestLen).map .ram

/-- The host mapping of an address that no SMRAM fetch and no window decides, for reads
and fetches. -/
def hostReadRange (a20Addr : BitVec 64) : Option Cell :=
  let a := a20Addr.toNat
  if inSmramWindow a then none
  else if b.pciEnabled ∧ 0xC0000 ≤ a ∧ a < 0x100000 then
    if b.memoryType (shadowArea a) false then b.residentRam a20Addr else some (romCell a)
  else if (guestRamSpan a20Addr 1 b.guestLen).isSome ∧ ¬ b.isBios a then
    if 0xC0000 ≤ a ∧ a < 0x100000 then some (romCell a) else b.residentRam a20Addr
  else if 0xffffffff < a then some (.blank 0xFF#8)
  else if 0xFEE00000 ≤ a ∧ a < 0xFEF00000 then none
  else if b.isBios a then some (.rom (biosMapLast128k a))
  else some (.blank 0xFF#8)

/-- `direct_host_write_allowed`. -/
def directHostWriteAllowed (a20Addr : BitVec 64) : Bool :=
  let a := a20Addr.toNat
  ¬ (0xFEE00000 ≤ a ∧ a < 0xFEF00000) ∧ (guestRamSpan a20Addr 1 b.guestLen).isSome ∧
    ¬ b.isBios a ∧ ¬ (0xA0000 ≤ a ∧ a < 0xC0000) ∧ ¬ (0xC0000 ≤ a ∧ a < 0x100000)

/-- `host_mem_range`: the byte a host mapping of the address starts with. -/
def hostMemRange (rw : HostAccess) (addr : BitVec 64) : Option Cell :=
  let a20 := b.a20Addr addr
  if rw = .execute ∧ inSmramWindow a20.toNat ∧ b.smramAvailable ∧ (b.smramEnable ∨ p.smmMode) then
    b.residentRam a20
  else if rw = .write ∧ p.monitorHit then none
  else if b.mmio.covers a20.toNat then none
  else if rw = .write then if b.directHostWriteAllowed a20 then b.residentRam a20 else none
  else b.hostReadRange a20

end Board

/-! ## The routes of a processor -/

/-- How an instruction reaches a physical address: the direct path of `mem_read_*` and
`mem_write_*`, a page walk, a host page cached by the data TLB, one byte of the slow path,
or a routed transaction. -/
inductive CpuPath
  | direct | walk | hostPage | slowByte | routed
  deriving DecidableEq

namespace Board

variable (b : Board)

/-- An access that has to fall on plain RAM is not made at all otherwise. -/
def plainRoute (off : Option Nat) (len : Nat) : Route :=
  match off with
  | some off => .cells (ramCells off len)
  | none => .refused

/-- The RAM offset of a paging-structure entry, which is aligned to its size. -/
def walkOffset (addr : BitVec 64) (len : Nat) : Option Nat :=
  if (len = 4 ∨ len = 8) ∧ addr.toNat % len = 0 then b.host.walkRamOffset addr len else none

/-- The host page of a data TLB entry, for an access that stays in the page. -/
def hostPageOffset (addr : BitVec 64) (len : Nat) : Option Nat :=
  if addr.toNat % 0x1000 + len ≤ 0x1000 then
    (b.host.hostPage (BitVec.ofNat 64 (addr.toNat / 0x1000 * 0x1000))).map
      (· + addr.toNat % 0x1000)
  else none

variable (monitorHit : Bool)

/-- The route of a load by a processor outside SMM. -/
def loadRoute (path : CpuPath) (addr : BitVec 64) (len : Nat) : Route :=
  let p := CpuMemoryPolicy.outsideSmm monitorHit
  match path with
  | .direct => plainRoute (b.host.directRamOffset addr len) len
  | .walk => plainRoute (b.walkOffset addr len) len
  | .hostPage => plainRoute (b.hostPageOffset addr len) len
  | .slowByte =>
    match b.hostMemRange p .read addr with
    | some c => .cells [c]
    | none => b.readPhysicalPage p addr 1
  | .routed => b.readPhysicalPage p addr len

/-- The route of a store by a processor outside SMM. -/
def storeRoute (path : CpuPath) (addr : BitVec 64) (len : Nat) : Route :=
  let p := CpuMemoryPolicy.outsideSmm monitorHit
  match path with
  | .direct => plainRoute (b.host.directRamOffset addr len) len
  | .walk => plainRoute (b.walkOffset addr len) len
  | .hostPage => plainRoute (b.hostPageOffset addr len) len
  | .slowByte =>
    match b.hostMemRange p .write addr with
    | some c => .cells [c]
    | none => b.writePhysicalPage p addr 1
  | .routed => b.writePhysicalPage p addr len

/-- The page of code a prefetch maps, or nothing when it is vetoed. -/
def fetchRoute (page : Nat) : Route :=
  match b.hostMemRange (.outsideSmm monitorHit) .execute (BitVec.ofNat 64 (page * 0x1000)) with
  | some (.ram off) => .cells (ramCells off 0x1000)
  | some (.rom off) => .cells ((range 0x1000).map fun i => .rom (off + i))
  | some (.blank v) => .cells (replicate 0x1000 (.blank v))
  | none => .refused

/-! ## Device transfers -/

/-- The RAM offsets that `read_ram` and `write_ram` copy, in order. They copy page by page,
and within a page neither A20 nor the PCI hole makes a difference. -/
def transferSpan (addr : Nat) : Nat → List Nat
  | 0 => []
  | n + 1 =>
    if 2 ^ 64 ≤ addr then []
    else
      let a20 := b.a20Addr (BitVec.ofNat 64 addr)
      if pciHoleStart ≤ a20.toNat ∧ a20.toNat < pciHoleEnd then []
      else match guestRamSpan a20 1 b.guestLen with
        | some off => off :: transferSpan (addr + 1) n
        | none => []

end Board

end RustyBox
