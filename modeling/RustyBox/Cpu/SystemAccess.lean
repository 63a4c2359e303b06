-- SUMMARY: Supervisor accesses to linear addresses: the system reads and writes of 1, 2, 4 and 8 bytes.
import RustyBox.Cpu.AccessLog
import RustyBox.Cpu.SystemWalk

/-!
# System accesses

`system_read_*` and `system_write_*`, with which descriptor tables, task segments and new
stacks are accessed: at supervisor privilege, without segment, alignment or permission
checks and without asking the registered MMIO regions.
-/

namespace RustyBox

open Lib

variable {m : Machine} {s s' s'' : Cpu m}

/-! ## Translation -/

/-- `x` at supervisor privilege; the caller's privilege is put back whatever comes out. -/
def asSupervisor {α : Type} (x : CpuM m α) : CpuM m α := fun s =>
  match x.run { s with userPl := false } with
  | .ok a s' => .ok a { s' with userPl := s.userPl }
  | .error f s' => .error f { s' with userPl := s.userPl }

/-- `translate_system_read_via_dtlb`. -/
def translateSystemRead (laddr : BitVec 64) : CpuM m (BitVec 64) := do
  let s ← get
  if s.ctl.pg ∧ s.longMode then asSupervisor (translateDataRead laddr)
  else match s.translateLinearSystemRead laddr with
    | .ok paddr => return paddr
    | .error fault => pageFault fault laddr false false

/-- The second page of a word that crosses a page. -/
def Cpu.systemNextPage (s : Cpu m) (laddr : BitVec 64) : BitVec 64 :=
  s.maskLaddr ((laddr &&& 0xFFFFF000#64) + 0x1000#64)

/-! ## Reads -/

/-- `system_read_byte`. -/
def systemReadByte (laddr : BitVec 64) : CpuM m (BitVec 8) := do
  let paddr ← translateSystemRead laddr
  memReadByte paddr

/-- Each byte translated and read by itself. -/
def systemReadBytewise (n : Nat) (laddr : BitVec 64) : CpuM m (BitVec (8 * n)) := do
  let s ← get
  gatherBytes n fun i => systemReadByte (s.maskLaddr (laddr + BitVec.ofNat 64 i))

/-- `system_read_qword`. -/
def systemReadQword (laddr : BitVec 64) : CpuM m (BitVec 64) := do
  if InPage laddr 8 then do
    let paddr ← translateSystemRead laddr
    memReadQword paddr
  else systemReadBytewise 8 laddr

/-! ## Writes -/

/-- `system_write_byte`. -/
def systemWriteByte (laddr : BitVec 64) (data : BitVec 8) : CpuM m PUnit := do
  let paddr ← translateLinearSystemWrite laddr
  modify fun s => s.memWriteByte .data paddr data

/-- Bytes `i .. i + n` of a write that translates and writes each byte by itself. -/
def systemWriteBytewiseFrom {w : Nat} (laddr : BitVec 64) (data : BitVec w) :
    (i n : Nat) → CpuM m PUnit
  | _, 0 => return ⟨⟩
  | i, n + 1 => do
    let s ← get
    systemWriteByte (s.maskLaddr (laddr + BitVec.ofNat 64 i)) (byteAt data i)
    systemWriteBytewiseFrom laddr data (i + 1) n

/-- `system_write_word`: the first byte is written before the second page is translated. -/
def systemWriteWord (laddr : BitVec 64) (data : BitVec 16) : CpuM m PUnit := do
  let s ← get
  if InPage laddr 2 then do
    let paddr ← translateLinearSystemWrite laddr
    modify fun s => s.memWriteWord .data paddr data
  else do
    systemWriteByte laddr (byteAt data 0)
    systemWriteByte (s.systemNextPage laddr) (byteAt data 1)

/-- `system_write_dword`. -/
def systemWriteDword (laddr : BitVec 64) (data : BitVec 32) : CpuM m PUnit := do
  if InPage laddr 4 then do
    let paddr ← translateLinearSystemWrite laddr
    modify fun s => s.memWriteDword .data paddr data
  else systemWriteBytewiseFrom laddr data 0 4

/-- `system_write_qword`. -/
def systemWriteQword (laddr : BitVec 64) (data : BitVec 64) : CpuM m PUnit := do
  if InPage laddr 8 then do
    let paddr ← translateLinearSystemWrite laddr
    modify fun s => s.memWriteQword .data paddr data
  else systemWriteBytewiseFrom laddr data 0 8

variable {laddr : BitVec 64} {isWrite : Bool} {q : SystemPath}

/-! ## The updates of system walks -/

theorem systemUpdates_spec (h : s.systemPath isWrite laddr = .ok q) {u : BitVec 64 × BitVec 64}
    (hu : u ∈ q.updates) : u.1.toNat % s.entryBytes = 0 ∧ AdLe (s.readEntry u.1) u.2 := by
  have hu : u ∈ Path.updates ⟨q.upper, q.leafAddr, q.leaf, combinedAll, q.ppf, 0#32⟩ true := hu
  obtain ⟨e, he, haddr, hle, -⟩ := of_mem_updates hu
  have hentry := (systemPath_shape h).entries e he
  rw [haddr, ← hentry.1]
  exact ⟨hentry.2, hle⟩

end RustyBox
