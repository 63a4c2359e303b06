-- SUMMARY: The processor with its segment state, and descriptors read from the descriptor tables.
import RustyBox.Cpu.SystemAccess
import RustyBox.Cpu.Segment

/-!
# Descriptor tables

Far transfers work on the segment registers, the descriptor-table registers and the stack
and instruction pointers as well as on memory. `Proc` puts these beside the `Cpu` that
memory accesses change; a memory access is run on that part of it.
-/

namespace RustyBox

open Lib

variable {m : Machine}

/-! ## State -/

/-- GDTR. -/
structure TableReg where
  base : BitVec 64
  limit : BitVec 16
  deriving DecidableEq

structure Proc (m : Machine) where
  cpu : Cpu m
  sregs : Sregs
  gdtr : TableReg
  ldtr : BxSegmentReg
  rip : BitVec 64
  rsp : BitVec 64
  cpuMode : CpuMode
  /-- CR0.AM -/
  am : Bool

/-- Code that reads and changes the processor with its segment state. -/
abbrev ProcM (m : Machine) (α : Type) := EStateM Fault (Proc m) α

variable {α : Type}

/-- A memory access. -/
def onCpu (x : CpuM m α) : ProcM m α :=
  zoom Proc.cpu (fun cpu p => { p with cpu := cpu }) x

/-- `exception`, as far transfers raise it. -/
def raise (vector : Exception) (errorCode : BitVec 16) : ProcM m α :=
  throw ⟨vector, errorCode⟩

namespace Proc

/-- The current privilege level. -/
def cpl (p : Proc m) : BitVec 2 := (p.sregs .cs).selector.rpl

def setSreg (p : Proc m) (seg : SegReg) (r : BxSegmentReg) : Proc m :=
  { p with sregs := Function.update p.sregs seg r }

end Proc

/-! ## Selectors and descriptors -/

/-- `parse_selector`. -/
def parseSelector (raw : BitVec 16) : Selector :=
  ⟨raw, raw >>> 3, raw.getLsbD 2, raw.setWidth 2⟩

/-- The selector part of an error code: `raw & 0xfffc`. -/
def selectorError (raw : BitVec 16) : BitVec 16 := raw &&& 0xFFFC#16

variable (type : BitVec 4) (sel : Selector)

/-- `is_code_segment`. -/
def isCodeSegment : Bool := type.getLsbD 3

/-- `is_data_segment`. -/
def isDataSegment : Bool := !isCodeSegment type

/-- `is_code_segment_non_conforming`. -/
def isCodeSegmentNonConforming : Bool := !type.getLsbD 2

/-- `is_data_segment_writable`. -/
def isDataSegmentWritable : Bool := type.getLsbD 1

/-- `SEG_VALID_CACHE`: valid, and no check may be skipped yet. -/
def segValidCache : SegAccess := ⟨true, false, false, false, false⟩

def segInvalid : SegAccess := ⟨false, false, false, false, false⟩

/-- The base and limit of a segment, LDT or TSS descriptor. -/
def parseSegment (dword1 dword2 : BitVec 32) (l : Bool) : DescriptorSegment :=
  let limit := (dword1 &&& 0xFFFF#32) ||| (dword2 &&& 0x000F0000#32)
  let base := (dword1 >>> 16) ||| ((dword2 &&& 0xFF#32) <<< 16) ||| (dword2 &&& 0xFF000000#32)
  let g := dword2.getLsbD 23
  { base := base.setWidth 64
    limitScaled := if g then (limit <<< 12) ||| 0xFFF#32 else limit
    g := g
    dB := dword2.getLsbD 22
    l := l
    avl := dword2.getLsbD 20 }

/-- The system and gate descriptors of `parse_descriptor`; other types are not valid. -/
def parseSystem (dword1 dword2 : BitVec 32) : Option Descriptor :=
  let gate (offset : BitVec 32) : Descriptor :=
    .gate ⟨(dword2 &&& 0x1F#32).setWidth 8, (dword1 >>> 16).setWidth 16, offset⟩
  if type = 0x4#4 ∨ type = 0x6#4 ∨ type = 0x7#4 then some (gate (dword1 &&& 0xFFFF#32))
  else if type = 0xC#4 ∨ type = 0xE#4 ∨ type = 0xF#4 then
    some (gate ((dword2 &&& 0xFFFF0000#32) ||| (dword1 &&& 0xFFFF#32)))
  else if type = 0x5#4 then some (.taskGate ((dword1 >>> 16).setWidth 16))
  else if type = 0x2#4 ∨ type = 0x1#4 ∨ type = 0x3#4 ∨ type = 0x9#4 ∨ type = 0xB#4 then
    some (.segment (parseSegment dword1 dword2 false))
  else none

/-- `parse_descriptor`. -/
def parseDescriptor (dword1 dword2 : BitVec 32) : BxDescriptor :=
  let segment := dword2.getLsbD 12
  let type := dword2.extractLsb' 8 4
  let u :=
    if segment then some (.segment (parseSegment dword1 dword2 (dword2.getLsbD 21)))
    else parseSystem type dword1 dword2
  { valid := if u.isSome then segValidCache else segInvalid
    p := dword2.getLsbD 15
    dpl := dword2.extractLsb' 13 2
    segment := segment
    type := type
    u := u.getD (.segment ⟨0, 0, false, false, false, false⟩) }

/-- `gate_dest_selector` and `gate_dest_offset`; another variant reads as zero. -/
def Descriptor.gatePart : Descriptor → DescriptorGate
  | .gate g => g
  | _ => ⟨0, 0, 0⟩

/-! ## Reading and touching descriptors -/

/-- Where the `len` bytes of a descriptor are in its table, or the error of `fetch_raw_descriptor`
when they are not. -/
def descriptorAddr (len : Nat) : ProcM m (BitVec 64) := do
  let p ← get
  let last := 8 * sel.index.toNat + (len - 1)
  let entry := 8#64 * sel.index.setWidth 64
  if ¬ sel.ti then
    if p.gdtr.limit.toNat < last then raise .gp (selectorError sel.value)
    else return p.gdtr.base + entry
  else if ¬ p.ldtr.cache.valid.valid then raise .gp (selectorError sel.value)
  else if p.ldtr.cache.u.segmentLimitScaled.toNat < last then raise .gp (selectorError sel.value)
  else return p.ldtr.cache.u.segmentBase + entry

/-- `fetch_raw_descriptor`: the low and the high dword. -/
def fetchRawDescriptor : ProcM m (BitVec 32 × BitVec 32) := do
  let addr ← descriptorAddr sel 8
  let raw ← onCpu (systemReadQword addr)
  return (raw.setWidth 32, raw.extractLsb' 32 32)

/-- `fetch_raw_descriptor_64`. -/
def fetchRawDescriptor64 : ProcM m (BitVec 32 × BitVec 32 × BitVec 32) := do
  let addr ← descriptorAddr sel 16
  let raw1 ← onCpu (systemReadQword addr)
  let raw2 ← onCpu (systemReadQword (addr + 8#64))
  if raw2 &&& 0x00001F0000000000#64 ≠ 0#64 then raise .gp (selectorError sel.value)
  else return (raw1.setWidth 32, raw1.extractLsb' 32 32, raw2.setWidth 32)

/-- The descriptor a selector names, a failed fetch becoming the caller's exception. -/
def fetchDescriptorOr (vector : Exception) : ProcM m BxDescriptor := fun p =>
  match (fetchRawDescriptor sel).run p with
  | .ok (dword1, dword2) p' => .ok (parseDescriptor dword1 dword2) p'
  | .error _ p' => .error ⟨vector, selectorError sel.value⟩ p'

/-- `get_ar_byte`. -/
def BxDescriptor.arByte (d : BxDescriptor) : BitVec 8 :=
  BitVec.ofBool d.p ++ d.dpl ++ BitVec.ofBool d.segment ++ d.type

/-- `touch_segment`: the accessed bit is set in the descriptor and in its table. -/
def touchSegment (d : BxDescriptor) : ProcM m BxDescriptor := do
  if d.type.getLsbD 0 then return d
  else do
    let d := { d with type := d.type ||| 1#4 }
    let p ← get
    let base := if ¬ sel.ti then p.gdtr.base else p.ldtr.cache.u.segmentBase
    onCpu (systemWriteByte (base + 8#64 * sel.index.setWidth 64 + 5#64) d.arByte)
    return d

end RustyBox
