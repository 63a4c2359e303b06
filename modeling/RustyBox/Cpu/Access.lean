-- SUMMARY: The linear data accesses: reads, writes and read-modify-writes of 1, 2, 4 and 8 bytes.
import RustyBox.Cpu.Segment
import RustyBox.Cpu.Translate

/-!
# Linear accesses

`read_linear_*`, `write_linear_*` and the read-modify-write accesses of `cpu/access.rs`.
Each first probes the data TLB for a host page: a hit goes straight to RAM. Otherwise an
access within one page is translated, checked against the page permissions, offered to the
registered MMIO regions and then made; an access that crosses into the next page takes a
route of its own for every width.

Self-modifying-code tracking and the access hooks are left out: they change none of the
state here.
-/

namespace RustyBox

open Lib

variable {m : Machine}

/-! ## Checks and MMIO dispatch -/

variable (laddr : BitVec 64) (n : Nat) (paddr val : BitVec 64) (width : AccessWidth) (size : Nat)

/-- `check_alignment`. -/
def checkAlignment (acMask : BitVec 32) : CpuM m PUnit := do
  let s ← get
  if s.alignmentCheckMask ≠ 0#32 ∧ s.userPl ∧
      laddr.setWidth 32 &&& (acMask &&& s.alignmentCheckMask) ≠ 0#32 then
    exception .ac 0#16

/-- `check_perm_read` and `check_perm_write`: a page without the permission raises unless
the hook suppresses it. -/
def checkPerm (write : Bool) : CpuM m PUnit := do
  let s ← get
  match s.pagePermissions with
  | none => return ⟨⟩
  | some pp =>
    if pp.check paddr write then return ⟨⟩
    else
      match s.memPermHook with
      | none => exception .gp 0#16
      | some hook =>
        let violation : MemPermViolation := ⟨laddr, size, write⟩
        set { s with permViolations := s.permViolations ++ [violation] }
        if hook s.permViolations violation then return ⟨⟩ else exception .gp 0#16

/-- `MmioRegistry::find_mut`. -/
def Cpu.findMmio (s : Cpu m) (paddr : BitVec 64) : Option MmioRegion :=
  s.mmio.find? fun r => r.Contains paddr

/-- The call of an MMIO callback. -/
def Cpu.callMmio (s : Cpu m) (r : MmioRegion) (write : Bool) (paddr : BitVec 64) (size : Nat)
    (val : BitVec 64) : Cpu m :=
  let call : MmioCall := ⟨r.start, write, paddr, size, val⟩
  { s with mmioLog := s.mmioLog ++ [call] }.note (.mmio r.start) write paddr size

/-- `mmio_read`. -/
def mmioRead : CpuM m (Option (BitVec 64)) := do
  let s ← get
  match s.findMmio paddr with
  | none => return none
  | some r =>
    set (s.callMmio r false paddr size 0#64)
    return some (r.readCb s.mmioLog paddr size)

/-- `mmio_write`. -/
def mmioWrite (val : BitVec 64) : CpuM m Bool := do
  let s ← get
  match s.findMmio paddr with
  | none => return false
  | some r =>
    set (s.callMmio r true paddr size val)
    return true

/-! ## The host-page probe -/

/-- A probe that hit: the RAM offset of the first byte and its physical address. -/
structure HostHit where
  offset : Nat
  paddr : BitVec 64
  deriving DecidableEq

/-- The hit test of an access of `n` bytes. The slot is that of the last byte, the tag that
of the first. -/
def Cpu.hostHit (s : Cpu m) (laddr : BitVec 64) (n : Nat) (isWrite : Bool) : Option HostHit :=
  let e := s.dtlb.entryOf laddr (n - 1)
  let allow := if isWrite then s.wrPkey e.pkey else s.rdPkey e.pkey
  if e.lpf = lpfOf laddr ∧ e.accessBits &&& neededBit s.userPl isWrite false &&& allow ≠ 0#32 then
    e.hostPage.map fun page => ⟨page + (pageOffset laddr).toNat, e.ppf ||| pageOffset laddr⟩
  else none

/-- All `n` bytes are in one page. -/
def InPage : Prop := (pageOffset laddr).toNat + n ≤ 0x1000

instance (laddr : BitVec 64) (n : Nat) : Decidable (InPage laddr n) :=
  inferInstanceAs (Decidable (_ ≤ _))

/-- The first address of the page after that of `laddr`. -/
def nextPage : BitVec 64 := (laddr ||| 0xFFF#64) + 1#64

/-! ## Reads -/

/-- The fast path of a read, or `slow`. -/
def readHostOr (laddr : BitVec 64) (slow : CpuM m (BitVec (8 * n))) : CpuM m (BitVec (8 * n)) := do
  let s ← get
  match s.hostHit laddr n false with
  | some hit =>
    checkPerm laddr hit.paddr n false
    ramRead n hit.offset hit.paddr
  | none => slow

/-- A read from an MMIO region if one is registered there, otherwise from memory. -/
def dispatchRead (memRead : BitVec 64 → CpuM m (BitVec (8 * n))) (paddr : BitVec 64) :
    CpuM m (BitVec (8 * n)) := do
  match ← mmioRead paddr n with
  | some v => return v.setWidth (8 * n)
  | none => memRead paddr

/-- A read within one page. -/
def readOnePage (memRead : BitVec 64 → CpuM m (BitVec (8 * n))) (laddr : BitVec 64) :
    CpuM m (BitVec (8 * n)) := do
  let paddr ← translateDataRead laddr
  checkPerm laddr paddr n false
  dispatchRead n memRead paddr

/-- A read that translates and reads each byte by itself. -/
def readBytewise (laddr : BitVec 64) : CpuM m (BitVec (8 * n)) :=
  gatherBytes n fun i => do
    let p ← translateDataRead (laddr + BitVec.ofNat 64 i)
    memReadByte p

/-- `read_linear_byte`. -/
def readLinearByte : CpuM m (BitVec 8) :=
  readHostOr 1 laddr (readOnePage 1 memReadByte laddr)

/-- `read_linear_word`. -/
def readLinearWord : CpuM m (BitVec 16) := do
  checkAlignment laddr 1#32
  readHostOr 2 laddr <|
    if InPage laddr 2 then readOnePage 2 memReadWord laddr
    else do
      let p0 ← translateDataRead laddr
      let b0 ← memReadByte p0
      let p1 ← translateDataRead (nextPage laddr)
      let b1 ← memReadByte p1
      return b1 ++ b0

/-- `read_linear_dword`. -/
def readLinearDword : CpuM m (BitVec 32) := do
  checkAlignment laddr 3#32
  readHostOr 4 laddr <|
    if InPage laddr 4 then readOnePage 4 memReadDword laddr else readBytewise 4 laddr

/-- `read_linear_qword`. -/
def readLinearQword : CpuM m (BitVec 64) := do
  checkAlignment laddr 7#32
  readHostOr 8 laddr <|
    if InPage laddr 8 then readOnePage 8 memReadQword laddr else readBytewise 8 laddr

/-! ## Writes -/

/-- The fast path of a write, or `slow`. -/
def writeHostOr (laddr : BitVec 64) (val : BitVec (8 * n)) (slow : CpuM m PUnit) :
    CpuM m PUnit := do
  let s ← get
  match s.hostHit laddr n true with
  | some hit =>
    checkPerm laddr hit.paddr n true
    modify fun s => s.ramWrite .data n hit.offset hit.paddr val
  | none => slow

/-- A write to an MMIO region if one is registered there, otherwise to memory. -/
def dispatchWrite (memWrite : Cpu m → BitVec 64 → BitVec (8 * n) → Cpu m) (paddr : BitVec 64)
    (val : BitVec (8 * n)) : CpuM m PUnit := do
  if ← mmioWrite paddr n (val.setWidth 64) then return ⟨⟩
  else modify fun s => memWrite s paddr val

/-- A write within one page. -/
def writeOnePage (memWrite : Cpu m → BitVec 64 → BitVec (8 * n) → Cpu m) (laddr : BitVec 64)
    (val : BitVec (8 * n)) : CpuM m PUnit := do
  let paddr ← translateDataWrite laddr
  checkPerm laddr paddr n true
  dispatchWrite n memWrite paddr val

/-- Bytes `i .. n` of a write that translates and writes each byte by itself. -/
def writeBytewiseFrom {w : Nat} (laddr : BitVec 64) (val : BitVec w) : (i n : Nat) → CpuM m PUnit
  | _, 0 => return ⟨⟩
  | i, n + 1 => do
    let p ← translateDataWrite (laddr + BitVec.ofNat 64 i)
    modify fun s => s.memWriteByte .data p (byteAt val i)
    writeBytewiseFrom laddr val (i + 1) n

/-- `write_linear_byte`. -/
def writeLinearByte (val : BitVec 8) : CpuM m PUnit :=
  writeHostOr 1 laddr val (writeOnePage 1 (Cpu.memWriteByte · .data) laddr val)

/-- `write_linear_word`: both pages are translated and checked before the first byte is
written. -/
def writeLinearWord (val : BitVec 16) : CpuM m PUnit := do
  checkAlignment laddr 1#32
  writeHostOr 2 laddr val <|
    if InPage laddr 2 then writeOnePage 2 (Cpu.memWriteWord · .data) laddr val
    else do
      let p0 ← translateDataWrite laddr
      let p1 ← translateDataWrite (nextPage laddr)
      checkPerm laddr p0 1 true
      checkPerm (nextPage laddr) p1 1 true
      dispatchWrite 1 (Cpu.memWriteByte · .data) p0 (byteAt val 0)
      dispatchWrite 1 (Cpu.memWriteByte · .data) p1 (byteAt val 1)

/-- `write_linear_dword`. -/
def writeLinearDword (val : BitVec 32) : CpuM m PUnit := do
  checkAlignment laddr 3#32
  writeHostOr 4 laddr val <|
    if InPage laddr 4 then writeOnePage 4 (Cpu.memWriteDword · .data) laddr val
    else writeBytewiseFrom laddr val 0 4

/-- `write_linear_qword`. -/
def writeLinearQword : CpuM m PUnit := do
  checkAlignment laddr 7#32
  writeHostOr 8 laddr val <|
    if InPage laddr 8 then writeOnePage 8 (Cpu.memWriteQword · .data) laddr val
    else writeBytewiseFrom laddr val 0 8

/-! ## Read-modify-writes -/

/-- `address_xlation` set. -/
def setXlation (x : AddressXlation) : CpuM m PUnit := modify fun s => { s with addressXlation := x }

/-- The two translations of a read-modify-write that crosses a page. -/
def prepareSplit (laddr : BitVec 64) : CpuM m PUnit := do
  let len1 := 0x1000 - (pageOffset laddr).toNat
  let p0 ← translateDataWrite laddr
  let p1 ← translateDataWrite (nextPage laddr)
  setXlation (.two p0 p1 len1 (n - len1))

/-- `prepare_rmw_linear_byte`, `prepare_rmw_linear_word` and `prepare_rmw_linear_dword`: the
fast path is taken only while no MMIO region is registered. -/
def prepareRmwLinear (laddr : BitVec 64) : CpuM m PUnit := do
  let s ← get
  match (if s.mmio.isEmpty then s.hostHit laddr n true else none) with
  | some hit => setXlation (.host hit.offset hit.paddr)
  | none =>
    if InPage laddr n then do
      let paddr ← translateDataWrite laddr
      setXlation (.one paddr)
    else prepareSplit n laddr

/-- A read of `n` bytes offered to the MMIO regions as one access, otherwise made byte by
byte. -/
def dispatchReadBytes : CpuM m (BitVec (8 * n)) :=
  dispatchRead n (fun p => gatherBytes n fun i => memReadByte (p + BitVec.ofNat 64 i)) paddr

/-- The two parts of a read that crosses a page, put together. -/
def joinParts (n len1 len2 : Nat) (v1 : BitVec (8 * len1)) (v2 : BitVec (8 * len2)) :
    BitVec (8 * n) :=
  (v2 ++ v1).setWidth (8 * n)

/-- `read_prepared_rmw_byte`, `read_prepared_rmw_word` and `read_prepared_rmw_dword`. -/
def readPreparedRmw (memRead : BitVec 64 → CpuM m (BitVec (8 * n))) : CpuM m (BitVec (8 * n)) := do
  match (← get).addressXlation with
  | .host offset paddr => ramRead n offset paddr
  | .one paddr => dispatchRead n memRead paddr
  | .two p0 p1 len1 len2 =>
    let v1 ← dispatchReadBytes len1 p0
    let v2 ← dispatchReadBytes len2 p1
    return joinParts n len1 len2 v1 v2
  | .empty => return 0

/-- The low `n` bytes of `val` offered to the MMIO regions as one access, otherwise written
byte by byte. -/
def dispatchWriteBytes : CpuM m PUnit :=
  dispatchWrite n (fun s p v => s.memWriteBytes .data p v n) paddr (val.setWidth (8 * n))

/-- `write_rmw_linear_byte`, `write_rmw_linear_word` and `write_rmw_linear_dword`. -/
def writeRmwLinear (memWrite : Cpu m → BitVec 64 → BitVec (8 * n) → Cpu m)
    (val : BitVec (8 * n)) : CpuM m PUnit := do
  match (← get).addressXlation with
  | .host offset paddr => modify fun s => s.ramWrite .data n offset paddr val
  | .one paddr => dispatchWrite n memWrite paddr val
  | .two p0 p1 len1 len2 =>
    dispatchWriteBytes len1 p0 (val.setWidth 64)
    dispatchWriteBytes len2 p1 (val.setWidth 64 >>> (8 * len1))
  | .empty => return ⟨⟩

/-- `read_rmw_linear_byte`, `_word` and `_dword`. -/
def readRmwLinear (memRead : BitVec 64 → CpuM m (BitVec (8 * n))) (laddr : BitVec 64) :
    CpuM m (BitVec (8 * n)) := do
  prepareRmwLinear n laddr
  readPreparedRmw n memRead

/-- `read_rmw_linear_qword`: the fast path is taken whatever MMIO is registered, and no other
route asks for it either. -/
def readRmwLinearQword : CpuM m (BitVec 64) := do
  let s ← get
  match s.hostHit laddr 8 true with
  | some hit =>
    let data ← ramRead 8 hit.offset hit.paddr
    setXlation (.host hit.offset hit.paddr)
    return data
  | none =>
    if InPage laddr 8 then do
      let paddr ← translateDataWrite laddr
      let data ← memReadQword paddr
      setXlation (.one paddr)
      return data
    else do
      let len1 := 0x1000 - (pageOffset laddr).toNat
      let p0 ← translateDataWrite laddr
      let p1 ← translateDataWrite (nextPage laddr)
      let v1 ← gatherBytes len1 fun i => memReadByte (p0 + BitVec.ofNat 64 i)
      let v2 ← gatherBytes (8 - len1) fun i => memReadByte (p1 + BitVec.ofNat 64 i)
      setXlation (.two p0 p1 len1 (8 - len1))
      return joinParts 8 len1 (8 - len1) v1 v2

/-- `write_rmw_linear_qword`. -/
def writeRmwLinearQword : CpuM m PUnit := do
  match (← get).addressXlation with
  | .host offset paddr => modify fun s => s.ramWrite .data 8 offset paddr val
  | .one paddr => modify fun s => s.memWriteQword .data paddr val
  | .two p0 p1 len1 len2 =>
    modify fun s => s.memWriteBytes .data p0 val len1
    modify fun s => s.memWriteBytes .data p1 (val >>> (8 * len1)) len2
  | .empty => return ⟨⟩

/-! ## One guest access -/

/-- A data access of the guest. A read-modify-write stores what `f` makes of the value. -/
inductive GuestAccess
  | read (width : AccessWidth) (laddr : BitVec 64)
  | write (width : AccessWidth) (laddr val : BitVec 64)
  | rmw (width : AccessWidth) (laddr : BitVec 64) (f : BitVec 64 → BitVec 64)

def readLinear (laddr : BitVec 64) : CpuM m (BitVec 64) :=
  match width with
  | .byte => do return (← readLinearByte laddr).setWidth 64
  | .word => do return (← readLinearWord laddr).setWidth 64
  | .dword => do return (← readLinearDword laddr).setWidth 64
  | .qword => readLinearQword laddr

def writeLinear (laddr val : BitVec 64) : CpuM m PUnit :=
  match width with
  | .byte => writeLinearByte laddr (val.setWidth 8)
  | .word => writeLinearWord laddr (val.setWidth 16)
  | .dword => writeLinearDword laddr (val.setWidth 32)
  | .qword => writeLinearQword laddr val

/-- The two phases of a read-modify-write of up to four bytes. -/
def rmwLinearNarrow (memRead : BitVec 64 → CpuM m (BitVec (8 * n)))
    (memWrite : Cpu m → BitVec 64 → BitVec (8 * n) → Cpu m) (laddr : BitVec 64)
    (f : BitVec 64 → BitVec 64) : CpuM m PUnit := do
  let v ← readRmwLinear n memRead laddr
  writeRmwLinear n memWrite ((f (v.setWidth 64)).setWidth (8 * n))

def rmwLinear (laddr : BitVec 64) (f : BitVec 64 → BitVec 64) : CpuM m PUnit :=
  match width with
  | .byte => rmwLinearNarrow 1 memReadByte (Cpu.memWriteByte · .data) laddr f
  | .word => rmwLinearNarrow 2 memReadWord (Cpu.memWriteWord · .data) laddr f
  | .dword => rmwLinearNarrow 4 memReadDword (Cpu.memWriteDword · .data) laddr f
  | .qword => do
    let v ← readRmwLinearQword laddr
    writeRmwLinearQword (f v)

def GuestAccess.perform : GuestAccess → CpuM m PUnit
  | .read width laddr => do
    let _ ← readLinear width laddr
    return ⟨⟩
  | .write width laddr val => writeLinear width laddr val
  | .rmw width laddr f => rmwLinear width laddr f

end RustyBox
