-- SUMMARY: Segment registers with their descriptor caches, and 32-bit address generation.
import RustyBox.Cpu.State
import Mathlib.Logic.Function.Basic

/-!
# Segments

The segment register file and `agen_read32` / `agen_write32`, which check an access
against the descriptor cache of its segment and form the linear address. A check that
passes may record in the cache that later checks can be skipped.
-/

namespace RustyBox

/-- `BxSegregs`. -/
inductive SegReg
  | es
  | cs
  | ss
  | ds
  | fs
  | gs
  deriving DecidableEq, Repr

/-- `CpuMode`. -/
inductive CpuMode
  | ia32Real
  | ia32V8086
  | ia32Protected
  | longCompat
  | long64
  deriving DecidableEq, Repr

/-- `long_mode`: EFER.LMA, which `cpu_mode` agrees with between instructions. -/
def CpuMode.longMode : CpuMode → Bool
  | .longCompat => true
  | .long64 => true
  | _ => false

/-- The operand sizes of the scalar accesses. -/
inductive AccessWidth
  | byte
  | word
  | dword
  | qword
  deriving DecidableEq, Repr

def AccessWidth.bytes : AccessWidth → Nat
  | .byte => 1
  | .word => 2
  | .dword => 4
  | .qword => 8

/-! ## Descriptors -/

/-- `BxSelector`. -/
structure Selector where
  value : BitVec 16
  index : BitVec 16
  ti : Bool
  rpl : BitVec 2
  deriving DecidableEq

/-- `SegAccess`: the cache is populated, and which checks may be skipped. -/
structure SegAccess where
  valid : Bool
  rok : Bool
  wok : Bool
  rok4g : Bool
  wok4g : Bool
  deriving DecidableEq

structure DescriptorSegment where
  base : BitVec 64
  limitScaled : BitVec 32
  g : Bool
  dB : Bool
  l : Bool
  avl : Bool
  deriving DecidableEq

structure DescriptorGate where
  paramCount : BitVec 8
  destSelector : BitVec 16
  destOffset : BitVec 32
  deriving DecidableEq

inductive Descriptor
  | segment (s : DescriptorSegment)
  | gate (g : DescriptorGate)
  | taskGate (tssSelector : BitVec 16)
  deriving DecidableEq

namespace Descriptor

/-- The `segment_*` accessors; another variant reads as zero. -/
def segmentPart : Descriptor → DescriptorSegment
  | .segment s => s
  | _ => ⟨0, 0, false, false, false, false⟩

variable (u : Descriptor)

def segmentBase : BitVec 64 := u.segmentPart.base
def segmentLimitScaled : BitVec 32 := u.segmentPart.limitScaled
def segmentDB : Bool := u.segmentPart.dB
def segmentL : Bool := u.segmentPart.l

end Descriptor

structure BxDescriptor where
  valid : SegAccess
  p : Bool
  dpl : BitVec 2
  segment : Bool
  type : BitVec 4
  u : Descriptor
  deriving DecidableEq

/-- `BxSegmentReg`. -/
structure BxSegmentReg where
  selector : Selector
  cache : BxDescriptor
  deriving DecidableEq

abbrev Sregs := SegReg → BxSegmentReg

/-! ## The checks -/

/-- `BX_MAX_MEM_ACCESS_LENGTH`. -/
def maxMemAccessLength : BitVec 32 := 8#32

variable (d : BxDescriptor)

/-- An expand-down segment refuses the access; `length` is zero-based. -/
def BxDescriptor.expandDownRefuses (offset length : BitVec 32) : Bool :=
  let upperLimit := if d.u.segmentDB then 0xFFFFFFFF#32 else 0x0000FFFF#32
  offset ≤ d.u.segmentLimitScaled ∨ upperLimit < offset ∨ upperLimit - offset < length

/-- An expand-up segment refuses the access; `length` is zero-based. -/
def BxDescriptor.expandUpRefuses (offset length : BitVec 32) : Bool :=
  d.u.segmentLimitScaled - length < offset ∨ d.u.segmentLimitScaled < length

/-- Base 0 and limit 4 GiB. -/
def BxDescriptor.flat : Bool :=
  d.u.segmentLimitScaled = 0xFFFFFFFF#32 ∧ d.u.segmentBase = 0#64

/-- `write_virtual_checks`: the verdict, and the cache with what it may skip from now on. -/
def writeVirtualChecks (offset length : BitVec 32) : Bool × BxDescriptor :=
  let length := length - 1#32
  if ¬ d.valid.valid ∨ ¬ d.p then (false, d)
  else if ¬ d.segment then (false, d)
  else if d.type.getLsbD 3 then (false, d)
  else if ¬ d.type.getLsbD 1 then (false, d)
  else if ¬ d.type.getLsbD 2 then
    if d.flat then
      (true, { d with valid := { d.valid with rok := true, wok := true, rok4g := true, wok4g := true } })
    else if d.expandUpRefuses offset length then (false, d)
    else if maxMemAccessLength - 1#32 ≤ d.u.segmentLimitScaled then
      (true, { d with valid := { d.valid with rok := true, wok := true } })
    else (true, d)
  else (¬ d.expandDownRefuses offset length, d)

/-- `read_virtual_checks`. -/
def readVirtualChecks (offset length : BitVec 32) : Bool × BxDescriptor :=
  let length := length - 1#32
  if ¬ d.valid.valid ∨ ¬ d.p then (false, d)
  else if ¬ d.segment then (false, d)
  else if d.type.getLsbD 3 ∧ ¬ d.type.getLsbD 1 then (false, d)
  else if ¬ d.type.getLsbD 3 ∧ d.type.getLsbD 2 then (¬ d.expandDownRefuses offset length, d)
  else if d.flat then (true, { d with valid := { d.valid with rok := true, rok4g := true } })
  else if d.expandUpRefuses offset length then (false, d)
  else if maxMemAccessLength - 1#32 ≤ d.u.segmentLimitScaled then
    (true, { d with valid := { d.valid with rok := true } })
  else (true, d)

/-! ## Address generation -/

/-- `seg_exception`. -/
def segException : SegReg → Exception
  | .ss => .ss
  | _ => .gp

/-- `get_laddr32`. -/
def getLaddr32 (s : Sregs) (seg : SegReg) (offset : BitVec 32) : BitVec 32 :=
  ((s seg).cache.u.segmentBase + offset.setWidth 64).setWidth 32

/-- The common text of `agen_read32` and `agen_write32`: `skipAll` and `skipLimit` select
the bits of the flat and of the cached-limit tier. -/
def agen32 (skipAll skipLimit : SegAccess → Bool)
    (checks : BxDescriptor → BitVec 32 → BitVec 32 → Bool × BxDescriptor) (mode : CpuMode)
    (seg : SegReg) (offset len : BitVec 32) : EStateM Fault Sregs (BitVec 32) := do
  let s ← get
  let d := (s seg).cache
  if mode.longMode then return getLaddr32 s seg offset
  else if skipAll d.valid then return offset
  else if skipLimit d.valid ∧ offset ≤ d.u.segmentLimitScaled - (len - 1#32) then
    return getLaddr32 s seg offset
  else
    let (accepted, d') := checks d offset len
    set (Function.update s seg { s seg with cache := d' })
    if ¬ accepted then throw ⟨segException seg, 0#16⟩
    else return getLaddr32 s seg offset

/-- `agen_read32`. -/
def agenRead32 : CpuMode → SegReg → BitVec 32 → BitVec 32 → EStateM Fault Sregs (BitVec 32) :=
  agen32 SegAccess.rok4g SegAccess.rok readVirtualChecks

/-- `agen_write32`. -/
def agenWrite32 : CpuMode → SegReg → BitVec 32 → BitVec 32 → EStateM Fault Sregs (BitVec 32) :=
  agen32 SegAccess.wok4g SegAccess.wok writeVirtualChecks

end RustyBox
