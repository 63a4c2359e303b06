-- SUMMARY: Decoded instructions, decode errors and the tables the decoders look opcodes up in.
import RustyBox.Lib.WindowReader
import RustyBox.Lib.ExceptRules

/-!
# Instructions and opcode tables

`instruction.rs`, `error.rs` and `decoder/mod.rs`. What the opcode tables hold (`opmap*.rs`,
`x87.rs`, `evex_operands.rs` and the opcode lists of `vex_shared.rs`) is a parameter of the
decoders: nothing here depends on it, and the functions that search the tables are as in the
source.
-/

namespace RustyBox

open Lib

/-! ## Errors -/

/-- The members of `BxDecodeError` that the decoders raise. -/
inductive BxDecodeError
  | illegalOpcode
  | illegalVexXopVvv
  | illegalVexXopWithSsePrefix
  | illegalVexXopWithRexPrefix
  | illegalVexXopOpcodeMap
  | vexXopBadVectorLength
  | evexReservedBitsSet
  | evexIllegalEvexBSaeNotAllowed
  | evexIllegalEvexBBroadcastNotAllowed
  deriving DecidableEq, Repr

inductive DecodeError
  | decoder (e : BxDecodeError)
  | bufferUnderflow
  | prefixBufferUnderflow
  | opcodeBufferUnderflow
  | modRmBufferUnderflow
  | sibBufferUnderflow
  | displacementBufferUnderflow
  | immediateBufferUnderflow
  | invalidSegmentRegister (index opcode : BitVec 8)
  deriving DecidableEq, Repr

/-- The bytes ended before the instruction did. -/
def DecodeError.IsUnderflow : DecodeError → Prop
  | decoder _ | invalidSegmentRegister _ _ => False
  | _ => True

abbrev DecodeM := WindowReader (BitVec 8) DecodeError

/-! ## Instructions -/

/-- The discriminant of an opcode. -/
abbrev Opcode := BitVec 16

namespace Opcode

def iaError : Opcode := 0
def movCr0rd : Opcode := 330
def movRdCr0 : Opcode := 334
def nop : Opcode := 363
def pause : Opcode := 364
def movCr0rq : Opcode := 1397
def movRqCr0 : Opcode := 1401
def extrqUdqIbIb : Opcode := 2230
def rdmsrEqId : Opcode := 2343
def urdmsrEqId : Opcode := 2345
def urdmsrEqGq : Opcode := 2347

end Opcode

structure Operands where
  dst : BitVec 8
  src1 : BitVec 8
  src2 : BitVec 8
  src3 : BitVec 8
  segment : BitVec 8
  base : BitVec 8
  index : BitVec 8
  scale : BitVec 8
  deriving DecidableEq, Repr

structure Instruction where
  opcode : Opcode
  length : BitVec 8
  flags : BitVec 8
  operands : Operands
  immediate : BitVec 32
  displacement : BitVec 32
  deriving DecidableEq, Repr

/-! `InstructionFlags`. Bits 7 and 6 are 1 for LOCK, 2 for REPNE and 3 for REP. -/

namespace InstructionFlags

def as32 : BitVec 8 := 0x01
def as64 : BitVec 8 := 0x02
def os32 : BitVec 8 := 0x04
def os64 : BitVec 8 := 0x08
def modC0 : BitVec 8 := 0x10
def extend8bit : BitVec 8 := 0x20

end InstructionFlags

/-- `lock_rep_value_from_bits`. -/
def lockRepValue (bits : BitVec 8) : BitVec 8 := (bits >>> 6) &&& 3#8

/-- `set_lock_rep_value_bits`. -/
def setLockRepValue (bits value : BitVec 8) : BitVec 8 :=
  (bits &&& ~~~0xC0#8) ||| ((value &&& 3#8) <<< 6)

def hasFlag (bits flag : BitVec 8) : Bool := bits &&& flag ≠ 0#8

/-! ## Immediate bytes -/

variable (imm : BitVec 32) (bit : BitVec 8)

/-- A byte of `imm_bytes`. -/
def immByte (k : Nat) : BitVec 8 := imm.extractLsb' (8 * k) 8

/-- `set_imm_bytes` after a change of byte `k`. -/
def setImmByte (k : Nat) (v : BitVec 8) : BitVec 32 :=
  (imm &&& ~~~(0xFF#32 <<< (8 * k))) ||| (v.setWidth 32 <<< (8 * k))

/-- `bits` of byte 2, which packs the VEX and EVEX attributes. -/
def setImmBits (mask bits : BitVec 8) : BitVec 32 :=
  setImmByte imm 2 ((immByte imm 2 &&& ~~~mask) ||| bits)

def setVl (vl : BitVec 8) : BitVec 32 := setImmByte imm 1 vl
def setVexW : BitVec 32 := setImmBits imm 0x10 ((bit &&& 1#8) <<< 4)
def setVex : BitVec 32 := setImmBits imm 0x00 0x20
def setOpmask (reg : BitVec 8) : BitVec 32 := setImmByte imm 3 reg
def setEvexB : BitVec 32 := setImmBits imm 0x08 ((bit &&& 1#8) <<< 3)
def setEvexVPrime : BitVec 32 :=
  setImmBits imm 0x40 ((bit &&& 1#8) <<< 6)
def setZeroMasking : BitVec 32 :=
  setImmBits imm 0x04 ((bit &&& 1#8) <<< 2)
def setRc (rc : BitVec 8) : BitVec 32 := setImmBits imm 0x03 (rc &&& 3#8)

/-! ## Opcode tables -/

/-- Which ModRM fields an EVEX opcode writes and reads. -/
inductive EvexDst
  | nnn
  | rm
  | rmSourceRm
  | vvvv
  deriving DecidableEq

/-- Kinds of EVEX memory operand. -/
inductive EvexTuple
  | fullVector | fullVectorW
  | scalarByte | scalarWord | scalarDword | scalarQword | scalar
  | halfVector | halfVectorW | quarterVector | quarterVectorW | eighthVector
  | vec128 | vec256
  | gpr16 | gpr32 | gpr64
  | none
  deriving DecidableEq

/-- `EvexTuple::scale`. -/
def EvexTuple.scale (t : EvexTuple) (vl : BitVec 8) (broadcast w : Bool) : BitVec 32 :=
  let len := 1#32 <<< vl.toNat
  let w4 := if w then 8#32 else 4#32
  match t with
  | gpr64 => 8
  | gpr32 => 4
  | gpr16 => 2
  | none => 1
  | fullVector => if broadcast then w4 else 16 * len
  | fullVectorW => if broadcast then 2 else 16 * len
  | scalarByte => 1
  | scalarWord => 2
  | scalarDword => 4
  | scalarQword => 8
  | scalar => w4
  | halfVector => if broadcast then w4 else 8 * len
  | halfVectorW => if broadcast then 2 else 8 * len
  | quarterVector => 4 * len
  | quarterVectorW => if broadcast then 2 else 4 * len
  | eighthVector => 2 * len
  | vec128 => 16
  | vec256 => 32

/-- The contents of the tables. `table` and `table0F` are `get_opcode_table_64` and
`get_opcode_table_0f_64` for `true`, the 32-bit ones for `false`. The last fields say which
opcodes the checks of `vex_shared.rs` list. -/
structure OpcodeTables where
  count : Nat
  table : Bool → BitVec 8 → List (BitVec 64)
  table0F : Bool → BitVec 8 → List (BitVec 64)
  table0F38 : List (List (BitVec 64))
  table0F3A : List (List (BitVec 64))
  evexTable : List (List (BitVec 64))
  vexMap7F6 : List (BitVec 64)
  vexMap7F8 : List (BitVec 64)
  floatingPoint : BitVec 32 → Nat → Opcode
  dnow : BitVec 8 → Opcode
  remapSseToVex : Opcode → BitVec 8 → Opcode
  evexDst : Opcode → EvexDst
  evexTuple : Opcode → EvexTuple
  evexFlags : Opcode → BitVec 16
  isBlendv : Opcode → Bool
  isVsib : Opcode → Bool
  noVexForm : Opcode → Bool
  vl128Only : Opcode → Bool
  registerOnly : Opcode → Bool
  memoryOnly : Opcode → Bool
  reservesVvvv : Opcode → Bool

/-- `matches_decmask`. -/
def matchesDecmask (entry : BitVec 64) (decmask : BitVec 32) : Bool :=
  let mask : BitVec 32 := (entry &&& 0xFFFFFF#64).setWidth 32
  (entry >>> 24).setWidth 32 &&& mask = decmask &&& mask

namespace OpcodeTables

variable (T : OpcodeTables)

/-- `Opcode::from_u16_const`. -/
def fromU16 (val : BitVec 16) : Opcode := if val.toNat < T.count then val else .iaError

/-- `find_opcode_in_table`. -/
def findOpcode (entries : List (BitVec 64)) (decmask : BitVec 32) : Opcode :=
  match entries.find? (matchesDecmask · decmask) with
  | some entry => T.fromU16 ((entry >>> 48).setWidth 16)
  | none => .iaError

/-- `lookup_vex_map7`. -/
def lookupVexMap7 (opcode : BitVec 8) (decmask : BitVec 32) : Opcode :=
  if opcode = 0xF6 then T.findOpcode T.vexMap7F6 decmask
  else if opcode = 0xF8 then T.findOpcode T.vexMap7F8 decmask
  else .iaError

/-- `lookup_opcode_64` and `lookup_opcode_32`. -/
def lookupOpcode (is64 : Bool) (b1 : BitVec 32) (opcodeMap : BitVec 8) (decmask : BitVec 32) :
    Opcode :=
  let opcode := b1.setWidth 8
  if opcodeMap = 0 then T.findOpcode (T.table is64 opcode) decmask
  else if opcodeMap = 1 then T.findOpcode (T.table0F is64 opcode) decmask
  else if opcodeMap = 2 then T.findOpcode (T.table0F38.getD opcode.toNat []) decmask
  else if opcodeMap = 3 then T.findOpcode (T.table0F3A.getD opcode.toNat []) decmask
  else if is64 ∧ opcodeMap = 7 then T.lookupVexMap7 opcode decmask
  else .iaError

/-- `lookup_evex_opcode`. -/
def lookupEvexOpcode (opcodeMap opcode : BitVec 8) (decmask : BitVec 32) : Opcode :=
  if opcodeMap = 0 ∨ opcodeMap.toNat > 5 then .iaError
  else T.findOpcode (T.evexTable.getD ((opcodeMap.toNat - 1) * 256 + opcode.toNat) []) decmask

variable (opcode : Opcode)

/-- `evex_scale_displ8`. -/
def evexScaleDispl8 (displacement : BitVec 32) (vl : BitVec 8) (evexB w : Bool) : BitVec 32 :=
  let scale := (T.evexTuple opcode).scale vl evexB w
  if scale.toNat > 1 then displacement * scale else displacement

/-- `vex_is4_src3`. -/
def vexIs4Src3 (imm : BitVec 32) (is64 : Bool) : Option (BitVec 8) :=
  if T.isBlendv opcode then some (((imm >>> 4) &&& (if is64 then 0xF#32 else 0x7#32)).setWidth 8)
  else none

/-- `evex_vsib_form_illegal`. -/
def evexVsibFormIllegal (modC0 : Bool) (opmask : BitVec 8) : Bool :=
  T.isVsib opcode && (modC0 || opmask = 0#8)

/-- `validate_evex_b`, for an instruction with EVEX.b. -/
def validateEvexB (evexB modC0 : Bool) : Except DecodeError Unit :=
  let flags := T.evexFlags opcode
  let forbidden : BitVec 16 := if modC0 then 0x180 else 0x280
  failIf (evexB ∧ flags &&& 0x080#16 ≠ 0#16 ∧ flags &&& forbidden = forbidden)
    (.decoder (if modC0 then .evexIllegalEvexBSaeNotAllowed
      else .evexIllegalEvexBBroadcastNotAllowed))

/-- `validate_vex_legacy_form`. -/
def validateVexLegacyForm (vexL : BitVec 8) (modC0 : Bool) : Except DecodeError Unit :=
  failIf (T.noVexForm opcode ∨ (vexL ≠ 0#8 ∧ T.vl128Only opcode) ∨
    (!modC0 ∧ T.registerOnly opcode) ∨ (modC0 ∧ T.memoryOnly opcode)) (.decoder .illegalOpcode)

/-- `validate_reserved_vex_vvvv`. -/
def validateReservedVexVvvv (vexVvv : BitVec 8) : Except DecodeError Unit :=
  failIf (vexVvv ≠ 0#8 ∧ T.reservesVvvv opcode) (.decoder .illegalVexXopVvv)

end OpcodeTables

end RustyBox
