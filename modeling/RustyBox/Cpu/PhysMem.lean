-- SUMMARY: Physical memory accesses: plain RAM directly, everything else through the devices.
import RustyBox.Cpu.State

/-!
# Physical memory

`mem_read_*` and `mem_write_*`: RAM when the whole access is plain RAM, otherwise the
devices, falling back to narrower accesses when the memory system refuses the width. The
paging-structure accesses of a page walk take the same routes; a walk's reads leave the
devices alone, and its writes are not data accesses.
-/

namespace RustyBox

open Lib

variable {m : Machine}

/-! ## Data reads -/

/-- `n` bytes of RAM at offset `off`. -/
def ramRead (n off : Nat) (paddr : BitVec 64) : CpuM m (BitVec (8 * n)) := do
  let s ← get
  set (s.note .ram false paddr n)
  return load s.ram off n

/-- A device transaction of `n` bytes; `none` when the memory system refuses it. -/
def deviceRead (n : Nat) (addr : BitVec 64) : CpuM m (Option (BitVec (8 * n))) := do
  let s ← get
  match m.devices.read s.deviceLog addr n with
  | none => return none
  | some v =>
    let s := { s with deviceLog := s.deviceLog ++ [DeviceAccess.read addr n] }
    set (s.note .device false addr n)
    return some (v.setWidth (8 * n))

/-- `mem_read_byte`; a refused byte reads as 0. -/
def memReadByte (addr : BitVec 64) : CpuM m (BitVec 8) := do
  match m.directRamOffset addr 1 with
  | some off => ramRead 1 off (m.applyA20 addr)
  | none =>
    match ← deviceRead 1 addr with
    | some v => return v
    | none =>
      modify fun s => s.note .device false addr 1
      return 0

/-- Bytes `0 .. n` read one after the other and put together. -/
def gatherBytes : (n : Nat) → (Nat → CpuM m (BitVec 8)) → CpuM m (BitVec (8 * n))
  | 0, _ => return 0
  | n + 1, byte => do
    let b ← byte 0
    let rest ← gatherBytes n fun i => byte (i + 1)
    return rest ++ b

/-- `mem_read_word`. -/
def memReadWord (addr : BitVec 64) : CpuM m (BitVec 16) := do
  let bytes := gatherBytes 2 fun i => memReadByte (addr + BitVec.ofNat 64 i)
  if pageOffset (m.applyA20 addr) = 0xFFF#64 then bytes
  else match m.directRamOffset addr 2 with
    | some off => ramRead 2 off (m.applyA20 addr)
    | none =>
      match ← deviceRead 2 addr with
      | some v => return v
      | none => bytes

/-- `mem_read_dword`. -/
def memReadDword (addr : BitVec 64) : CpuM m (BitVec 32) := do
  match m.directRamOffset addr 4 with
  | some off => ramRead 4 off (m.applyA20 addr)
  | none =>
    match ← deviceRead 4 addr with
    | some v => return v
    | none =>
      let lo ← memReadWord addr
      let hi ← memReadWord (addr + 2)
      return hi ++ lo

/-- `mem_read_qword`. -/
def memReadQword (addr : BitVec 64) : CpuM m (BitVec 64) :=
  gatherBytes 8 fun i => memReadByte (addr + BitVec.ofNat 64 i)

/-! ## Writes -/

/-- Whether a write is the guest's data or an accessed/dirty update of a page walk. -/
inductive Purpose
  | data
  | walk
  deriving DecidableEq

/-- The low `n` bytes of `v` to RAM at offset `off`. -/
def Cpu.ramWrite (s : Cpu m) (purpose : Purpose) (n off : Nat) (paddr : BitVec 64) {w : Nat}
    (v : BitVec w) : Cpu m :=
  let s := { s with ram := store s.ram off n v }
  match purpose with
  | .data => s.note .ram true paddr n
  | .walk => s

def Cpu.deviceWrite (s : Cpu m) (purpose : Purpose) (n : Nat) (addr : BitVec 64) {w : Nat}
    (v : BitVec w) : Cpu m :=
  match purpose with
  | .data =>
    let s := { s with deviceLog := s.deviceLog ++ [DeviceAccess.write addr n (v.setWidth 64)] }
    s.note .device true addr n
  | .walk => { s with deviceLog := s.deviceLog ++ [.walkWrite addr n (v.setWidth 64)] }

/-- `mem_write_byte`; a refused byte is dropped, so the devices see it either way. -/
def Cpu.memWriteByte (s : Cpu m) (purpose : Purpose) (addr : BitVec 64) (v : BitVec 8) : Cpu m :=
  match m.directRamOffset addr 1 with
  | some off => s.ramWrite purpose 1 off (m.applyA20 addr) v
  | none => s.deviceWrite purpose 1 addr v

/-- Bytes `0 .. n` of `v` written one after the other. -/
def Cpu.memWriteBytes (s : Cpu m) (purpose : Purpose) (addr : BitVec 64) {w : Nat}
    (v : BitVec w) (n : Nat) : Cpu m :=
  (List.range n).foldl
    (fun s i => s.memWriteByte purpose (addr + BitVec.ofNat 64 i) (byteAt v i)) s

/-- `mem_write_word`. -/
def Cpu.memWriteWord (s : Cpu m) (purpose : Purpose) (addr : BitVec 64) (v : BitVec 16) : Cpu m :=
  if pageOffset (m.applyA20 addr) = 0xFFF#64 then s.memWriteBytes purpose addr v 2
  else match m.directRamOffset addr 2 with
    | some off => s.ramWrite purpose 2 off (m.applyA20 addr) v
    | none =>
      if m.devices.accepts s.deviceLog addr 2 then s.deviceWrite purpose 2 addr v
      else s.memWriteBytes purpose addr v 2

/-- `mem_write_dword`. -/
def Cpu.memWriteDword (s : Cpu m) (purpose : Purpose) (addr : BitVec 64) (v : BitVec 32) : Cpu m :=
  match m.directRamOffset addr 4 with
  | some off => s.ramWrite purpose 4 off (m.applyA20 addr) v
  | none =>
    if m.devices.accepts s.deviceLog addr 4 then s.deviceWrite purpose 4 addr v
    else (s.memWriteWord purpose addr (v.setWidth 16)).memWriteWord purpose (addr + 2)
      ((v >>> 16).setWidth 16)

/-- `mem_write_qword`. -/
def Cpu.memWriteQword (s : Cpu m) (purpose : Purpose) (addr : BitVec 64) (v : BitVec 64) : Cpu m :=
  s.memWriteBytes purpose addr v 8

/-! ## Paging-structure accesses -/

/-- What `mem_read_byte` returns. -/
def Cpu.physByte (s : Cpu m) (addr : BitVec 64) : BitVec 8 :=
  match m.directRamOffset addr 1 with
  | some off => s.ram off
  | none => ((m.devices.read s.deviceLog addr 1).getD 0).setWidth 8

/-- What `mem_read_word` returns. -/
def Cpu.physWord (s : Cpu m) (addr : BitVec 64) : BitVec 16 :=
  let bytes := s.physByte (addr + 1) ++ s.physByte addr
  if pageOffset (m.applyA20 addr) = 0xFFF#64 then bytes
  else match m.directRamOffset addr 2 with
    | some off => load s.ram off 2
    | none =>
      match m.devices.read s.deviceLog addr 2 with
      | some v => v.setWidth 16
      | none => bytes

/-- What `mem_read_dword` returns. -/
def Cpu.physDword (s : Cpu m) (addr : BitVec 64) : BitVec 32 :=
  match m.directRamOffset addr 4 with
  | some off => load s.ram off 4
  | none =>
    match m.devices.read s.deviceLog addr 4 with
    | some v => v.setWidth 32
    | none => s.physWord (addr + 2) ++ s.physWord addr

/-- `page_walk_read_dword`. -/
def Cpu.pageWalkReadDword (s : Cpu m) (paddr : BitVec 64) : BitVec 32 :=
  match m.walkRamOffset paddr 4 with
  | some off => load s.ram off 4
  | none => s.physDword paddr

/-- `page_walk_read_qword`. -/
def Cpu.pageWalkReadQword (s : Cpu m) (paddr : BitVec 64) : BitVec 64 :=
  match m.walkRamOffset paddr 8 with
  | some off => load s.ram off 8
  | none => ofBytes 8 fun i => s.physByte (paddr + BitVec.ofNat 64 i)

/-- `page_walk_write_dword`. -/
def Cpu.pageWalkWriteDword (s : Cpu m) (paddr : BitVec 64) (v : BitVec 32) : Cpu m :=
  match m.walkRamOffset paddr 4 with
  | some off => { s with ram := store s.ram off 4 v }
  | none => s.memWriteDword .walk (m.applyA20 paddr) v

/-- `page_walk_write_qword`. -/
def Cpu.pageWalkWriteQword (s : Cpu m) (paddr : BitVec 64) (v : BitVec 64) : Cpu m :=
  match m.walkRamOffset paddr 8 with
  | some off => { s with ram := store s.ram off 8 v }
  | none => s.memWriteQword .walk (m.applyA20 paddr) v

end RustyBox
