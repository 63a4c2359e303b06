-- SUMMARY: The 64-bit and the 32/16-bit instruction decoders.
import RustyBox.Decoder.Instruction

/-!
# The decoders

`fetch_decode64` and `fetch_decode32`, phase by phase: legacy prefixes, opcode (with VEX,
EVEX, XOP and the 0F escapes), ModRM with SIB and displacement, the suffix byte of 3DNow!
and the immediate; then the opcode is looked up and the encoding checked. The phases after
ModRM are the same code in both files up to the differences that `is64` makes here.

The window is what `max_len` leaves of the bytes, the first fifteen. A multi-byte field that
does not fit fails with the error of its first missing byte, so the length checks of the
source are the errors of `next`.
-/

namespace RustyBox

open InstructionFlags

open Lib WindowReader

/-- `lo ..= hi`. -/
def within (lo hi b : BitVec 8) : Bool := lo ≤ b && b ≤ hi

/-- `read_u16_le`. -/
def readU16Le (e : DecodeError) : DecodeM (BitVec 16) := do
  let b0 ← next e
  let b1 ← next e
  return b1 ++ b0

/-- `read_u32_le`. -/
def readU32Le (e : DecodeError) : DecodeM (BitVec 32) := do
  let b0 ← next e
  let b1 ← next e
  let b2 ← next e
  let b3 ← next e
  return b3 ++ b2 ++ b1 ++ b0

/-! ## Legacy prefixes -/

/-- `segOverride` is 7 without an override. `rex` is the REX byte of 64-bit mode. -/
structure Prefixes where
  metainfo1 : BitVec 8
  rex : BitVec 8
  ssePrefix : BitVec 8
  segOverride : BitVec 8

variable (p : Prefixes) (T : OpcodeTables) (is64 : Bool) (b1 : BitVec 32)
  (opcodeMap opcode modField : BitVec 8) (rm : BitVec 32) (sse mask : BitVec 8)

/-- `os_32`, which the 32-bit decoder keeps beside the flag. -/
def Prefixes.os32 : Bool := hasFlag p.metainfo1 InstructionFlags.os32

/-- `as_32`. -/
def Prefixes.as32 : Bool := hasFlag p.metainfo1 InstructionFlags.as32

/-- `SsePrefix`: 1 for 66, 2 for F3, 3 for F2. The operand-size byte does not replace F2 or F3. -/
def ssePrefix66 : BitVec 8 := if sse = 0#8 then 1#8 else sse

/-- One byte of the loop of `fetch_decode64`; `none` ends it. Only a REX byte right before the
opcode counts. -/
def prefixStep64 (b : BitVec 8) : Option Prefixes :=
  let q := { p with rex := 0 }
  if b = 0x26 ∨ b = 0x2E ∨ b = 0x36 ∨ b = 0x3E then some q
  else if b = 0x64 then some { q with segOverride := 4 }
  else if b = 0x65 then some { q with segOverride := 5 }
  else if b = 0x66 then
    some { q with
      metainfo1 := q.metainfo1 &&& ~~~os32
      ssePrefix := ssePrefix66 q.ssePrefix }
  else if b = 0x67 then some { q with metainfo1 := q.metainfo1 &&& ~~~as64 }
  else if b = 0xF0 then some { q with metainfo1 := setLockRepValue q.metainfo1 1 }
  else if b = 0xF2 then
    some { q with metainfo1 := setLockRepValue q.metainfo1 2, ssePrefix := 3 }
  else if b = 0xF3 then
    some { q with metainfo1 := setLockRepValue q.metainfo1 3, ssePrefix := 2 }
  else if within 0x40 0x4F b then some { p with rex := b }
  else none

/-- One byte of the loop of `fetch_decode32_inplace`. -/
def prefixStep32 (is32 : Bool) (p : Prefixes) (b : BitVec 8) : Option Prefixes :=
  let toggled (flag : BitVec 8) := if is32 then p.metainfo1 &&& ~~~flag else p.metainfo1 ||| flag
  if b = 0x26 then some { p with segOverride := 0 }
  else if b = 0x2E then some { p with segOverride := 1 }
  else if b = 0x36 then some { p with segOverride := 2 }
  else if b = 0x3E then some { p with segOverride := 3 }
  else if b = 0x64 then some { p with segOverride := 4 }
  else if b = 0x65 then some { p with segOverride := 5 }
  else if b = 0x66 then
    some { p with
      metainfo1 := toggled os32
      ssePrefix := ssePrefix66 p.ssePrefix }
  else if b = 0x67 then some { p with metainfo1 := toggled as32 }
  else if b = 0xF0 then some { p with metainfo1 := setLockRepValue p.metainfo1 1 }
  else if b = 0xF2 then
    some { p with metainfo1 := setLockRepValue p.metainfo1 2, ssePrefix := 3 }
  else if b = 0xF3 then
    some { p with metainfo1 := setLockRepValue p.metainfo1 3, ssePrefix := 2 }
  else none

/-- The loop, and the first byte of the opcode. A window of fifteen prefixes ends like a
shorter one. -/
def prefixLoop (step : Prefixes → BitVec 8 → Option Prefixes) :
    Nat → Prefixes → DecodeM (Prefixes × BitVec 8)
  | 0, _ => fail .prefixBufferUnderflow
  | n + 1, p => do
    let b ← next .prefixBufferUnderflow
    match step p b with
    | some q => prefixLoop step n q
    | none => return (p, b)

/-- The REX byte enables the extended byte registers, and REX.W the 64-bit operand size. -/
def applyRex : Prefixes :=
  if p.rex = 0#8 then p
  else
    let bits := p.metainfo1 ||| extend8bit
    { p with
      metainfo1 :=
        if hasFlag p.rex 0x08 then bits ||| os64 ||| os32
        else bits }

/-! ## Opcodes -/

/-- What the opcode bytes say. `opcodeMap` is 0 for one-byte opcodes, 1 for 0F, 2 for 0F38 and
3 for 0F3A; 4 is 3DNow!, or with EVEX its map 5. -/
structure Encoding where
  b1 : BitVec 32
  opcodeMap : BitVec 8 := 0
  isVex : Bool := false
  isEvex : Bool := false
  vexVvv : BitVec 8 := 0
  vexL : BitVec 8 := 0
  vexW : BitVec 8 := 0
  evexZ : BitVec 8 := 0
  evexB : BitVec 8 := 0
  evexAaa : BitVec 8 := 0
  evexRPrime : BitVec 8 := 0
  evexVPrime : BitVec 8 := 0
  metainfo1 : BitVec 8
  ssePrefix : BitVec 8
  rex : BitVec 8

/-- A one-byte opcode. -/
def Encoding.legacy (b : BitVec 8) : Encoding where
  b1 := b.setWidth 32
  metainfo1 := p.metainfo1
  ssePrefix := p.ssePrefix
  rex := p.rex

/-- An opcode byte of the map whose opcodes start at `base`. -/
def inMap (base : BitVec 32) (b : BitVec 8) : BitVec 32 := base ||| b.setWidth 32

variable (enc : Encoding) (ahead : Option (BitVec 8))

/-- The VEX opcode maps; map 7 only in 64-bit mode. -/
def vexMap (map opcode : BitVec 8) : Except DecodeError Encoding :=
  if map = 1 then .ok { enc with b1 := inMap 0x100 opcode, opcodeMap := 1 }
  else if map = 2 then .ok { enc with b1 := inMap 0x200 opcode, opcodeMap := 2 }
  else if map = 3 then .ok { enc with b1 := inMap 0x300 opcode, opcodeMap := 3 }
  else if is64 ∧ map = 7 then .ok { enc with b1 := inMap 0x700 opcode, opcodeMap := 7 }
  else .error (.decoder .illegalVexXopOpcodeMap)

/-- The EVEX opcode maps; maps 5 and 6 take the slots after map 3. -/
def evexMap (map opcode : BitVec 8) : Except DecodeError Encoding :=
  if map = 1 then .ok { enc with b1 := inMap 0x100 opcode, opcodeMap := 1 }
  else if map = 2 then .ok { enc with b1 := inMap 0x200 opcode, opcodeMap := 2 }
  else if map = 3 then .ok { enc with b1 := inMap 0x300 opcode, opcodeMap := 3 }
  else if map = 5 then .ok { enc with b1 := inMap 0x400 opcode, opcodeMap := 4 }
  else if map = 6 then .ok { enc with b1 := inMap 0x500 opcode, opcodeMap := 5 }
  else .error (.decoder .evexReservedBitsSet)

/-- The fields of the last VEX byte. -/
def vexFields (b : BitVec 8) : Encoding :=
  { enc with
    isVex := true
    vexVvv := 15#8 - ((b >>> 3) &&& 0xF#8)
    vexL := (b >>> 2) &&& 1#8
    ssePrefix := b &&& 3#8 }

/-- An inverted prefix bit, as a bit of REX. -/
def inverted (b mask bit : BitVec 8) : BitVec 8 := if b &&& mask = 0#8 then bit else 0#8

/-- VEX in 64-bit mode; `b` is C4 or C5. -/
def vex64 (b : BitVec 8) : DecodeM Encoding := do
  let enc := Encoding.legacy p b
  if p.ssePrefix ≠ 0#8 ∨ p.rex ≠ 0#8 then fail (.decoder .illegalVexXopWithRexPrefix)
  else
    let v1 ← next .opcodeBufferUnderflow
    let rexR := inverted v1 0x80 0x04
    if b = 0xC4 then
      let v2 ← next .opcodeBufferUnderflow
      let w := v2 >>> 7
      let metainfo1 :=
        if w = 1#8 then enc.metainfo1 ||| os64 ||| os32
        else enc.metainfo1
      let enc := { vexFields enc v2 with
        vexW := w
        metainfo1 := metainfo1
        rex := rexR ||| inverted v1 0x40 0x02 ||| inverted v1 0x20 0x01 }
      let opcode ← next .opcodeBufferUnderflow
      ofExcept (vexMap true enc (v1 &&& 0x1F#8) opcode)
    else
      let enc := { vexFields enc v1 with rex := rexR }
      let opcode ← next .opcodeBufferUnderflow
      ofExcept (vexMap true enc 1 opcode)

/-- VEX outside 64-bit mode, where its R, X and B bits extend nothing. -/
def vex32 (b : BitVec 8) : DecodeM Encoding := do
  let enc := Encoding.legacy p b
  if p.ssePrefix ≠ 0#8 then fail (.decoder .illegalVexXopWithSsePrefix)
  else
    let v1 ← next .opcodeBufferUnderflow
    if b = 0xC4 then
      let v2 ← next .opcodeBufferUnderflow
      let enc := { vexFields enc v2 with vexW := v2 >>> 7 }
      let opcode ← next .opcodeBufferUnderflow
      ofExcept (vexMap false enc (v1 &&& 0x1F#8) opcode)
    else
      let opcode ← next .opcodeBufferUnderflow
      ofExcept (vexMap false (vexFields enc v1) 1 opcode)

/-- The fields of P1 and P2. -/
def evexFields (p1 p2 : BitVec 8) : Encoding :=
  { enc with
    isVex := true
    isEvex := true
    vexW := p1 >>> 7
    vexVvv := 15#8 - ((p1 >>> 3) &&& 0xF#8)
    ssePrefix := p1 &&& 3#8
    vexL := (p2 >>> 5) &&& 3#8
    evexZ := p2 >>> 7
    evexB := (p2 >>> 4) &&& 1#8
    evexAaa := p2 &&& 7#8 }

/-- Zeroing-masking against k0. -/
def zeroMaskingK0 : Bool := enc.evexZ ≠ 0#8 && enc.evexAaa = 0#8

/-- EVEX in 64-bit mode, after its four bytes. -/
def evexEncoding64 (p0 p1 p2 opcode : BitVec 8) : Except DecodeError Encoding := do
  if p0 &&& 0x08#8 ≠ 0#8 ∨ p1 &&& 0x04#8 = 0#8 then throw (.decoder .evexReservedBitsSet)
  let enc := evexFields (.legacy p 0x62) p1 p2
  let enc ← evexMap { enc with
    evexRPrime := inverted p0 0x10 0x01
    evexVPrime := inverted p2 0x08 0x01
    rex := inverted p0 0x80 0x04 ||| inverted p0 0x40 0x02 ||| inverted p0 0x20 0x01
    metainfo1 :=
      if enc.vexW ≠ 0#8 then enc.metainfo1 ||| os64 ||| os32
      else enc.metainfo1 } (p0 &&& 0x07#8) opcode
  if zeroMaskingK0 enc then throw (.decoder .evexReservedBitsSet)
  return enc

/-- EVEX outside 64-bit mode: `vvvv` names one of eight registers. -/
def evexEncoding32 (p0 p1 p2 opcode : BitVec 8) : Except DecodeError Encoding := do
  if p0 &&& 0x08#8 ≠ 0#8 ∨ p1 &&& 0x04#8 = 0#8 then throw (.decoder .evexReservedBitsSet)
  let enc := evexFields (.legacy p 0x62) p1 p2
  if 8#8 ≤ enc.vexVvv ∨ p2 &&& 0x08#8 = 0#8 then throw (.decoder .illegalVexXopVvv)
  let enc ← evexMap enc (p0 &&& 0x07#8) opcode
  if zeroMaskingK0 enc then throw (.decoder .evexReservedBitsSet)
  return enc

/-- The four bytes of EVEX, which are there or not. -/
def evexBytes (encoding : BitVec 8 → BitVec 8 → BitVec 8 → BitVec 8 → Except DecodeError Encoding) :
    DecodeM Encoding := do
  let p0 ← next .opcodeBufferUnderflow
  let p1 ← next .opcodeBufferUnderflow
  let p2 ← next .opcodeBufferUnderflow
  let opcode ← next .opcodeBufferUnderflow
  ofExcept (encoding p0 p1 p2 opcode)

def evex64 : DecodeM Encoding :=
  if p.ssePrefix ≠ 0#8 ∨ p.rex ≠ 0#8 then fail (.decoder .evexReservedBitsSet)
  else evexBytes (evexEncoding64 p)

def evex32 : DecodeM Encoding :=
  if p.ssePrefix ≠ 0#8 then fail (.decoder .illegalVexXopWithSsePrefix)
  else evexBytes (evexEncoding32 p)

/-- The two- and three-byte escapes. -/
def escape0F : DecodeM Encoding := do
  let enc := Encoding.legacy p 0x0F
  let b2 ← next .opcodeBufferUnderflow
  if b2 = 0x38 then
    let b3 ← next .opcodeBufferUnderflow
    return { enc with b1 := inMap 0x200 b3, opcodeMap := 2 }
  else if b2 = 0x3A then
    let b3 ← next .opcodeBufferUnderflow
    return { enc with b1 := inMap 0x300 b3, opcodeMap := 3 }
  else if b2 = 0x0F then return { enc with b1 := 0x10F, opcodeMap := 4 }
  else return { enc with b1 := inMap 0x100 b2, opcodeMap := 1 }

/-- The next byte is there and has the bits `bits` of `mask` set. -/
def followedBy : Bool :=
  ahead.any fun b => b &&& mask = mask

/-- POP, unless the next byte makes it XOP. -/
def popOrXop : DecodeM Encoding :=
  if followedBy mask ahead then fail (.decoder .illegalVexXopOpcodeMap)
  else return .legacy p 0x8F

/-- The opcode phase of `fetch_decode64`. An encoding that VEX or EVEX leaves is none of the
later ones. -/
def opcode64 (b : BitVec 8) : DecodeM Encoding :=
  if b = 0xC4 ∨ b = 0xC5 then vex64 p b
  else if b = 0x62 then evex64 p
  else if b = 0x8F then peek >>= popOrXop p 0x08
  else if b = 0x0F then escape0F p
  else return .legacy p b

/-- VEX, or LES and LDS, which have a memory operand. -/
def lesOrVex (b : BitVec 8) (ahead : Option (BitVec 8)) : DecodeM Encoding :=
  if followedBy 0xC0 ahead then vex32 p b else return .legacy p b

/-- EVEX, or BOUND. -/
def boundOrEvex : DecodeM Encoding :=
  if followedBy 0xC0 ahead then evex32 p else return .legacy p 0x62

/-- The opcode phase of `fetch_decode32_inplace`. -/
def opcode32 (b : BitVec 8) : DecodeM Encoding :=
  if b = 0xC4 ∨ b = 0xC5 then peek >>= lesOrVex p b
  else if b = 0x62 then peek >>= boundOrEvex p
  else if b = 0x8F then peek >>= popOrXop p 0xC8
  else if b = 0x0F then escape0F p
  else return .legacy p b

/-- The legacy opcodes that 64-bit mode does not have. -/
def isUd64 : Bool :=
  let opcode := enc.b1.setWidth 8
  !enc.isVex &&
    ((enc.opcodeMap = 0#8 &&
        opcode ∈ [0x06#8, 0x07#8, 0x0E#8, 0x16#8, 0x17#8, 0x1E#8, 0x1F#8, 0x27#8, 0x2F#8, 0x37#8,
          0x3F#8, 0x60#8, 0x61#8, 0x82#8, 0x9A#8, 0xCE#8, 0xD4#8, 0xD5#8, 0xD6#8, 0xEA#8]) ||
      (enc.opcodeMap = 1#8 &&
        opcode ∈ [0x04#8, 0x0A#8, 0x0C#8, 0x24#8, 0x25#8, 0x26#8, 0x27#8, 0x36#8, 0x39#8, 0x3B#8,
          0x3C#8, 0x3D#8, 0x3E#8, 0x3F#8, 0x7A#8, 0x7B#8, 0xA6#8, 0xA7#8]))

/-! ## ModRM -/

/-- `opcode_needs_modrm_64` and `opcode_needs_modrm_32`, which differ at BOUND. -/
def opcodeNeedsModrm : Bool :=
  let opcode := b1.setWidth 8
  if opcodeMap = 0#8 then
    !(opcode ∈ [0x04#8, 0x05#8, 0x0C#8, 0x0D#8, 0x14#8, 0x15#8, 0x1C#8, 0x1D#8,
        0x24#8, 0x25#8, 0x2C#8, 0x2D#8, 0x34#8, 0x35#8, 0x3C#8, 0x3D#8,
        0x06#8, 0x07#8, 0x0E#8, 0x16#8, 0x17#8, 0x1E#8, 0x1F#8,
        0x27#8, 0x2F#8, 0x37#8, 0x3F#8] ||
      within 0x40 0x5F opcode || within 0x60 (if is64 then 0x62 else 0x61) opcode ||
      opcode = 0x68 || opcode = 0x6A || within 0x6C 0x6F opcode || within 0x70 0x7F opcode ||
      within 0x90 0x9F opcode || within 0xA0 0xAF opcode || within 0xB0 0xBF opcode ||
      opcode ∈ [0xC2#8, 0xC3#8, 0xC8#8, 0xC9#8, 0xCA#8, 0xCB#8] || within 0xCC 0xCF opcode ||
      within 0xD4 0xD7 opcode || within 0xE0 0xEF opcode ||
      opcode ∈ [0xF1#8, 0xF4#8, 0xF5#8] || within 0xF8 0xFD opcode)
  else if opcodeMap = 1#8 then
    !(within 0x05 0x09 opcode || opcode = 0x0B || opcode = 0x0E || within 0x30 0x37 opcode ||
      opcode = 0x77 || within 0x80 0x8F opcode || within 0xA0 0xA2 opcode ||
      within 0xA8 0xAA opcode || within 0xC8 0xCF opcode || opcode = 0xFF)
  else true

/-- The memory operand. -/
structure Address where
  base : BitVec 8
  index : BitVec 8
  scale : BitVec 8
  displacement : BitVec 32

/-- What the ModRM phase leaves. -/
structure ModRm where
  needed : Bool
  nnn : BitVec 32
  rm : BitVec 32
  byte : BitVec 8
  metainfo1 : BitVec 8
  segment : BitVec 8
  address : Address

variable (mr : ModRm) (i : Instruction)

def ModRm.modC0 : Bool := hasFlag mr.metainfo1 InstructionFlags.modC0

/-- The displacement that the mod field asks for. -/
def modDisplacement (wide : DecodeM (BitVec 32)) (a : Address) : DecodeM Address := do
  if modField = 1 then
    let disp ← next .displacementBufferUnderflow
    return { a with displacement := disp.signExtend 32 }
  else if modField = 2 then
    let disp ← wide
    return { a with displacement := disp }
  else return a

def disp32 : DecodeM (BitVec 32) := readU32Le .displacementBufferUnderflow

def disp16 : DecodeM (BitVec 32) := do
  let disp ← readU16Le .displacementBufferUnderflow
  return disp.signExtend 32

/-- Memory operands with a 32- or 64-bit address. `rex` is 0 outside 64-bit mode, and
`absolute` the base register of a bare displacement: RIP, or none. -/
def address32 (rex modField : BitVec 8) (rm : BitVec 32) (absolute : BitVec 8) :
    DecodeM Address := do
  let rmLow := rm &&& 7#32
  if rmLow = 4 then
    let sib ← next .sibBufferUnderflow
    let index := ((sib >>> 3) &&& 7#8) ||| (if hasFlag rex 0x02 then 8#8 else 0#8)
    let base := (sib &&& 7#8) ||| (if hasFlag rex 0x01 then 8#8 else 0#8)
    let scale := sib >>> 6
    if modField = 0 ∧ base &&& 7#8 = 5 then
      let disp ← disp32
      return ⟨19, index, scale, disp⟩
    else modDisplacement modField disp32 ⟨base, index, scale, 0⟩
  else if modField = 0 ∧ rmLow = 5 then
    let disp ← disp32
    return ⟨absolute, 4, 0, disp⟩
  else modDisplacement modField disp32 ⟨(rm &&& 0xF#32).setWidth 8, 4, 0, 0⟩

/-- `RESOLVE16_BASE_REG`. -/
def resolve16BaseReg : BitVec 8 := [3, 3, 5, 5, 6, 7, 5, 3].getD rm.toNat 0

/-- `RESOLVE16_INDEX_REG`. -/
def resolve16IndexReg : BitVec 8 := [6, 7, 6, 7, 4, 4, 4, 4].getD rm.toNat 0

/-- Memory operands with a 16-bit address. -/
def address16 : DecodeM Address := do
  if modField = 0 ∧ rm = 6 then
    let disp ← disp16
    return ⟨19, resolve16IndexReg rm, 0, disp⟩
  else modDisplacement modField disp16 ⟨resolve16BaseReg rm, resolve16IndexReg rm, 0, 0⟩

/-- Memory operands outside 64-bit mode. -/
def addressLegacy (as32 : Bool) (modField : BitVec 8) (rm : BitVec 32) : DecodeM Address :=
  if as32 then address32 0 modField rm 19 else address16 modField rm

/-- A register form reads no address. -/
def addressUnless (registerForm : Prop) [Decidable registerForm] (address : DecodeM Address) :
    DecodeM Address :=
  if registerForm then return ⟨0, 0, 0, 0⟩ else address

/-- The default segment of a base register: SS (2) for the stack pointer, and for the frame
pointer unless mod is 0; otherwise DS (3). -/
def sregBase32 (base : BitVec 8) : BitVec 8 :=
  if base = 4 then 2 else if base = 5 ∧ modField ≠ 0 then 2 else 3

/-- `SREG_MOD00_RM16` and `SREG_MOD01OR10_RM16`. -/
def sregRm16 : BitVec 8 :=
  if rm = 2 ∨ rm = 3 then 2 else if rm = 6 ∧ modField ≠ 0 then 2 else 3

/-- The segment before ModRM. -/
def initialSegment : BitVec 8 := if p.segOverride.toNat < 7 then p.segOverride else 3

/-- The opcode without ModRM carries the register in its low bits. -/
def noModRm : ModRm where
  needed := false
  nnn := (enc.b1 >>> 3) &&& 7#32
  rm := (enc.b1 &&& 7#32) ||| (if hasFlag enc.rex 0x01 then 8#32 else 0#32)
  byte := 0
  metainfo1 := enc.metainfo1 ||| modC0
  segment := initialSegment p
  address := ⟨0, 0, 0, 0⟩

/-- The ModRM phase of `fetch_decode64`. MOV to and from control and debug registers is a
register form whatever mod says. -/
def modRm64 : DecodeM ModRm := do
  if opcodeNeedsModrm true enc.b1 enc.opcodeMap then
    let byte ← next .modRmBufferUnderflow
    let modField := byte >>> 6
    let nnn := ((byte >>> 3) &&& 7#8).setWidth 32 ||| (if hasFlag enc.rex 0x04 then 8#32 else 0#32) |||
      (enc.evexRPrime.setWidth 32 <<< 4)
    let rm := (byte &&& 7#8).setWidth 32 ||| (if hasFlag enc.rex 0x01 then 8#32 else 0#32)
    let forceModC0 := enc.opcodeMap = 1 ∧ within 0x20 0x23 (enc.b1.setWidth 8)
    if modField = 3 ∨ forceModC0 then
      return {
        needed := true, nnn := nnn, byte := byte
        rm := if enc.isEvex ∧ hasFlag enc.rex 0x02 then rm ||| 16#32 else rm
        metainfo1 := enc.metainfo1 ||| modC0
        segment := initialSegment p
        address := ⟨0, 0, 0, 0⟩ }
    else
      let address ← address32 enc.rex modField rm 16
      return {
        needed := true, nnn := nnn, rm := rm, byte := byte
        metainfo1 := enc.metainfo1
        segment :=
          if 7 ≤ p.segOverride.toNat ∧ address.base.toNat < 16 then sregBase32 modField address.base
          else initialSegment p
        address := address }
  else return noModRm p enc

/-- The ModRM phase of `fetch_decode32_inplace`. The default segment is also taken for a
register form that mod does not say. -/
def modRm32 : DecodeM ModRm := do
  if opcodeNeedsModrm false enc.b1 enc.opcodeMap then
    let byte ← next .modRmBufferUnderflow
    let modField := byte >>> 6
    let nnn := ((byte >>> 3) &&& 7#8).setWidth 32
    let rm := (byte &&& 7#8).setWidth 32
    let forceModC0 := !enc.isVex ∧ enc.opcodeMap = 1 ∧ within 0x20 0x26 (enc.b1.setWidth 8)
    let address ← addressUnless (modField = 3 ∨ forceModC0) (addressLegacy p.as32 modField rm)
    let defaultSegment :=
      if p.as32 then
        sregBase32 modField ((if rm = 4 then address.base else rm.setWidth 8) &&& 7#8)
      else sregRm16 modField rm
    return {
      needed := true, nnn := nnn, rm := rm, byte := byte
      metainfo1 :=
        if modField = 3 ∨ forceModC0 then enc.metainfo1 ||| modC0
        else enc.metainfo1
      segment :=
        if 7 ≤ p.segOverride.toNat ∧ modField ≠ 3 then defaultSegment else initialSegment p
      address := address }
  else return noModRm p enc

/-! ## Operands -/

/-- `matches!(b1, ..)` over the group opcodes, whose operand is `rm`. -/
def isGroupOpcode : Bool :=
  b1 ∈ [0x80#32, 0x81#32, 0x83#32, 0xC0#32, 0xC1#32, 0xC6#32, 0xC7#32, 0xD0#32, 0xD1#32, 0xD2#32,
    0xD3#32, 0xF6#32, 0xF7#32, 0xFE#32, 0xFF#32, 0x100#32, 0x1AE#32, 0x1C7#32] ||
  (!is64 && b1 = 0x82)

/-- The opcodes whose destination is `rm`. -/
def dstIsRm : Bool :=
  (b1.toNat < 0x100 && (b1 &&& 0xF#32 = 1 || b1 &&& 0xF#32 = 9) && b1 ≠ 0x69) || b1 = 0x89 ||
  b1 ∈ [0x101#32, 0x111#32, 0x121#32, 0x129#32, 0x171#32, 0x172#32, 0x173#32,
    0x113#32, 0x117#32, 0x12B#32, 0x17F#32, 0x1E7#32] ||
  (b1 = 0x17E && sse ≠ 2) || (b1 = 0x1D6 && sse = 1) ||
  b1 ∈ [0x1A3#32, 0x1AB#32, 0x1B3#32, 0x1BB#32, 0x1B0#32, 0x1B1#32, 0x1C0#32, 0x1C1#32, 0x1C3#32,
    0x1BA#32, 0x1A4#32, 0x1A5#32, 0x1AC#32, 0x1AD#32] ||
  (0x190 ≤ b1.toNat && b1.toNat ≤ 0x19F) || b1 ∈ [0x314#32, 0x315#32, 0x316#32, 0x317#32]

/-- Destination and first source. -/
def placeOperands : Except DecodeError (BitVec 8 × BitVec 8) :=
  let nnn := mr.nnn.setWidth 8
  let rm := mr.rm.setWidth 8
  let opcode := enc.b1.setWidth 8
  if mr.needed then
    if (enc.b1 = 0x8C ∨ enc.b1 = 0x8E) ∧ mr.nnn.toNat > 5 then
      .error (.invalidSegmentRegister nnn opcode)
    else if isGroupOpcode is64 enc.b1 ∨ enc.b1 = 0x8C then .ok (rm, nnn)
    else if enc.b1 = 0x8E then .ok (nnn, rm)
    -- `vex_modrm_dst`
    else if enc.isVex ∧ enc.b1 ∈ [0x171#32, 0x172#32, 0x173#32] then .ok (enc.vexVvv, rm)
    else if enc.isVex ∧ enc.b1 ∈ [0x190#32, 0x192#32, 0x193#32, 0x198#32, 0x199#32] then
      .ok (nnn, rm)
    else if dstIsRm enc.b1 enc.ssePrefix then .ok (rm, nnn)
    else .ok (nnn, rm)
  else
    let segmentPush := enc.b1 ∈ [0x06#32, 0x0E#32, 0x16#32, 0x1E#32] ∨
      (enc.opcodeMap = 1 ∧ opcode ∈ [0xA0#8, 0xA8#8])
    let segmentPop := enc.b1 ∈ [0x07#32, 0x17#32, 0x1F#32] ∨
      (enc.opcodeMap = 1 ∧ opcode ∈ [0xA1#8, 0xA9#8])
    if segmentPush then .ok (rm, nnn)
    else if segmentPop then .ok (nnn, rm)
    else .ok (rm, nnn)

/-- `evex_effective_vl`: EVEX.b turns the length of a register form into a rounding mode. -/
def effectiveVl : BitVec 8 :=
  if enc.isEvex ∧ enc.evexB ≠ 0 ∧ mr.modC0 then 2 else enc.vexL

/-- The VEX and EVEX attributes in the immediate, before the immediate itself. -/
def vexAttributes : Except DecodeError (BitVec 32) :=
  let vl := effectiveVl enc mr
  let imm := if enc.isVex then setVl (setVex (setVexW 0 enc.vexW)) vl else 0
  if enc.isEvex then
    let imm := setZeroMasking (setEvexVPrime (setEvexB (setOpmask imm enc.evexAaa) enc.evexB)
      enc.evexVPrime) enc.evexZ
    -- `evex_vector_length_ok`
    if 2 < vl.toNat then .error (.decoder .vexXopBadVectorLength) else .ok (setRc imm enc.vexL)
  else .ok imm

/-! ## Immediates -/

/-- `vex_immediate_size`. -/
def vexImmediateSize : Nat :=
  if opcodeMap = 1 then if within 0x70 0x73 opcode || within 0xC2 0xC6 opcode then 1 else 0
  else if opcodeMap = 3 then 1
  else if opcodeMap = 7 then 4
  else 0

/-- `has_ib_ib2`. -/
def hasIbIb2 (modC0 : Bool) (nnn : BitVec 32) : Bool :=
  opcodeMap = 1 && opcode = 0x78 && modC0 && ((sse = 1 && nnn &&& 7#32 = 0) || sse = 3)

/-- The one-byte opcodes with a byte immediate. -/
def immediateIsByte : Bool :=
  opcode ∈ [0x04#8, 0x0C#8, 0x14#8, 0x1C#8, 0x24#8, 0x2C#8, 0x34#8, 0x3C#8, 0x6A#8, 0x6B#8, 0xA8#8,
    0xCD#8, 0xD4#8, 0xD5#8, 0xEB#8, 0x80#8, 0x82#8, 0x83#8, 0xC0#8, 0xC1#8, 0xC6#8] ||
  within 0xB0 0xB7 opcode || within 0xE0 0xE7 opcode || within 0x70 0x7F opcode

/-- The one-byte opcodes with an immediate of the operand size, in both decoders. -/
def immediateIsOperand : Bool :=
  opcode ∈ [0x05#8, 0x0D#8, 0x15#8, 0x1D#8, 0x25#8, 0x2D#8, 0x35#8, 0x3D#8, 0x68#8, 0x69#8, 0xA9#8,
    0x81#8, 0xC7#8]

/-- The opcodes of map 0F with a byte immediate. -/
def immediateIsByte0F : Bool :=
  within 0x70 0x73 opcode || opcode ∈ [0xA4#8, 0xAC#8, 0xBA#8, 0xC2#8] || within 0xC4 0xC6 opcode

/-- `get_immediate_size_64`. -/
def immediateSize64 (metainfo1 : BitVec 8) (nnn : BitVec 32) : Nat :=
  let opcode := b1.setWidth 8
  let os32 := hasFlag metainfo1 InstructionFlags.os32
  let os64 := hasFlag metainfo1 InstructionFlags.os64
  let isTest := nnn &&& 7#32 = 0 ∨ nnn &&& 7#32 = 1
  if opcodeMap = 0 then
    if within 0xA0 0xA3 opcode then if hasFlag metainfo1 as64 then 8 else 4
    else if immediateIsByte opcode then 1
    else if opcode = 0xF6 ∧ isTest then 1
    else if opcode = 0xF7 ∧ isTest then if os64 || os32 then 4 else 2
    else if opcode = 0xC2 ∨ opcode = 0xCA then 2
    else if opcode = 0xE8 ∨ opcode = 0xE9 then 4
    else if immediateIsOperand opcode then if os32 then 4 else 2
    else if within 0xB8 0xBF opcode then if os64 then 8 else if os32 then 4 else 2
    else if opcode = 0xC8 then 3
    else 0
  else if opcodeMap = 1 then
    if within 0x80 0x8F opcode then 4 else if immediateIsByte0F opcode then 1 else 0
  else if opcodeMap = 3 then 1
  else 0

/-- `get_immediate_size_32`. -/
def immediateSize32 (os32 as32 : Bool) (nnn : BitVec 32) : Nat :=
  let opcode := b1.setWidth 8
  let isTest := nnn = 0 ∨ nnn = 1
  if opcodeMap = 0 then
    if within 0xA0 0xA3 opcode then if as32 then 4 else 2
    else if immediateIsByte opcode then 1
    else if opcode = 0xF6 ∧ isTest then 1
    else if opcode = 0xF7 ∧ isTest then if os32 then 4 else 2
    else if opcode = 0xC2 ∨ opcode = 0xCA then 2
    else if opcode = 0xC8 then 3
    else if immediateIsOperand opcode ∨ opcode = 0xE8 ∨ opcode = 0xE9 ∨ within 0xB8 0xBF opcode then
      if os32 then 4 else 2
    else if opcode = 0x9A ∨ opcode = 0xEA then if os32 then 6 else 4
    else 0
  else if opcodeMap = 1 then
    if within 0x80 0x8F opcode then if os32 then 4 else 2
    else if immediateIsByte0F opcode then 1
    else 0
  else if opcodeMap = 3 then 1
  else 0

/-- The byte immediates that are sign-extended where they are read. -/
def signExtends : Bool :=
  let opcode := enc.b1.setWidth 8
  enc.opcodeMap = 0 && (within 0x70 0x7F opcode || within 0xE0 0xE3 opcode ||
    opcode ∈ [0xEB#8, 0x83#8, 0x6A#8, 0x6B#8])

def immByteNext : DecodeM (BitVec 8) := next .immediateBufferUnderflow
def immU16 : DecodeM (BitVec 32) := do return (← readU16Le .immediateBufferUnderflow).setWidth 32
def immU32 : DecodeM (BitVec 32) := readU32Le .immediateBufferUnderflow

/-- The immediate and the displacement after it: a second immediate goes into the
displacement. The six-byte far pointer is of the 32-bit decoder and the eight-byte immediate
of the 64-bit one. -/
def readImmediate (size : Nat) (ibIb2 : Bool)
    (imm disp : BitVec 32) : DecodeM (BitVec 32 × BitVec 32) := do
  if ibIb2 then
    let ib ← immByteNext
    let ib2 ← immByteNext
    return (ib.setWidth 32, ib2.setWidth 32)
  else if size = 1 then
    let ib ← immByteNext
    return (if signExtends enc then ib.signExtend 32 else setImmByte imm 0 ib, disp)
  else if size = 2 then
    let iw ← immU16
    return (iw, disp)
  else if size = 3 then
    let iw ← immU16
    let ib ← immByteNext
    return (iw, ib.setWidth 32)
  else if size = 4 then
    if !is64 ∧ (enc.b1 = 0x9A ∨ enc.b1 = 0xEA) then
      let iw ← immU16
      let selector ← immU16
      return (iw, selector)
    else
      let id ← immU32
      return (id, disp)
  else if size = 6 ∧ !is64 then
    let id ← immU32
    let selector ← immU16
    return (id, selector)
  else if size = 8 ∧ is64 then
    let low ← immU32
    let high ← immU32
    return (low, high)
  else return (imm, disp)

/-! ## Lookup and checks -/

/-- `vl_thermometer`. -/
def vlThermometer (vl : BitVec 8) : BitVec 32 := if vl = 0 then 0 else if vl = 1 then 1 else 3

def bitAt (b : Bool) (offset : Nat) : BitVec 32 := if b then 1#32 <<< offset else 0#32

/-- The mask that table entries are matched against. Outside 64-bit mode the register fields
are in it only with ModRM. -/
def decmask : BitVec 32 :=
  (((mr.metainfo1 >>> 2) &&& 3#8).setWidth 32 <<< 22) |||
  ((mr.metainfo1 &&& 3#8).setWidth 32 <<< 20) |||
  (enc.ssePrefix.setWidth 32 <<< 18) |||
  bitAt (lockRepValue mr.metainfo1 = 1) 17 |||
  bitAt mr.modC0 16 |||
  bitAt is64 15 |||
  bitAt (enc.isVex && !enc.isEvex) 14 |||
  (vlThermometer (effectiveVl enc mr) <<< 10) |||
  (enc.vexW.setWidth 32 <<< 9) |||
  bitAt (enc.isEvex && enc.evexAaa = 0) 8 |||
  bitAt (mr.modC0 && mr.nnn = mr.rm) 7 |||
  (if is64 || mr.needed then ((mr.rm &&& 7#32) <<< 4) ||| (mr.nnn &&& 7#32) else 0#32)

/-- `VEX_POPULATED_SLOTS`. -/
def vexPopulatedSlots : List (List (BitVec 64)) :=
  [[0x0000FF0000FF0000#64, 0xF0FFFFFFFFFF0CF6#64, 0x00004000030F0000#64, 0x7FFFFFFFFFFF0074#64],
   [0xFFFFFF3F77C8FFFF#64, 0x03040000070F00E3#64, 0xFFF3FFC0FFCF5000#64, 0x00ECFFFFFC0CB800#64],
   [0x030F000723F0FF77#64, 0xFF00FF0FF0001F57#64, 0x0000000000000000#64, 0x00010000C000C000#64]]

/-- `vex_slot_populated`. -/
def vexSlotPopulated : Bool :=
  if opcodeMap = 7 then opcode = 0xF6 || opcode = 0xF8
  else if opcodeMap = 0 ∨ opcodeMap.toNat > 3 then false
  else
    let words := vexPopulatedSlots.getD (opcodeMap.toNat - 1) []
    (words.getD (opcode >>> 6).toNat 0).getLsbD (opcode &&& 0x3F#8).toNat

/-- The first lookup, and the immediate it leaves: the x87 escapes keep their opcode there. -/
def lookup (suffix : BitVec 8) (imm : BitVec 32) : Opcode × BitVec 32 :=
  let mask := decmask is64 enc mr
  if enc.opcodeMap = 0 ∧ 0xD8 ≤ enc.b1.toNat ∧ enc.b1.toNat ≤ 0xDF then
    let index := if mr.modC0 then (mr.byte &&& 0x3F#8).toNat + 8 else (mr.nnn &&& 7#32).toNat
    (T.floatingPoint enc.b1 index,
      (mr.byte.setWidth 32 ||| (enc.b1 <<< 8)) &&& 0x7FF#32)
  else if enc.opcodeMap = 4 ∧ !enc.isEvex then (T.dnow suffix, imm)
  else if enc.opcodeMap = 0 ∧ enc.b1 = 0x90 ∧ !(is64 ∧ hasFlag enc.rex 0x01) then
    (if enc.ssePrefix = 2 then .pause else .nop, imm)
  else (T.lookupOpcode is64 enc.b1 enc.opcodeMap mask, imm)

/-- The opcodes that name `rm` first where the byte rules do not. -/
def namesRmFirst (opcode : Opcode) : Bool :=
  opcode = .extrqUdqIbIb ||
  (is64 && (opcode = .rdmsrEqId || opcode = .urdmsrEqId || opcode = .urdmsrEqGq))

/-- Operands of an EVEX opcode. -/
def evexOperands (opcode : Opcode) (enc : Encoding) (mr : ModRm) : BitVec 8 × BitVec 8 :=
  let nnn := mr.nnn.setWidth 8
  let rm := mr.rm.setWidth 8
  match T.evexDst opcode with
  | .nnn => (nnn, rm)
  | .rm => (rm, nnn)
  | .rmSourceRm => (rm, rm)
  | .vvvv => (enc.vexVvv, rm)

/-- The checks and changes of an EVEX instruction after its lookup. -/
def finishEvex : Except DecodeError Instruction :=
  if enc.isEvex then do
    let opcode := T.lookupEvexOpcode enc.opcodeMap (enc.b1.setWidth 8) (decmask is64 enc mr)
    let operands := evexOperands T opcode enc mr
    let displacement :=
      if mr.needed ∧ mr.byte >>> 6 = 1 then
        T.evexScaleDispl8 opcode i.displacement enc.vexL (enc.evexB ≠ 0) (enc.vexW ≠ 0)
      else i.displacement
    failIf (T.evexVsibFormIllegal opcode mr.modC0 enc.evexAaa) (.decoder .illegalOpcode)
    T.validateEvexB opcode (enc.evexB ≠ 0) mr.modC0
    return { i with
      opcode := opcode
      operands := { i.operands with dst := operands.1, src1 := operands.2 }
      displacement := displacement }
  else .ok i

/-- The checks of a VEX instruction after its lookup in the shared tables. -/
def finishVex : Except DecodeError Instruction :=
  if enc.isVex ∧ !enc.isEvex then do
    let opcode := T.remapSseToVex i.opcode enc.vexL
    failIf (!vexSlotPopulated enc.opcodeMap (enc.b1.setWidth 8)) (.decoder .illegalOpcode)
    T.validateVexLegacyForm opcode enc.vexL mr.modC0
    return { i with opcode := opcode }
  else .ok i

/-- The two MOV CR0 of each decoder. -/
def isMovCr0 (opcode : Opcode) : Bool :=
  if is64 then opcode = .movCr0rq || opcode = .movRqCr0
  else opcode = .movCr0rd || opcode = .movRdCr0

/-- LOCK on a register form is illegal but for MOV CR0, which it makes CR8. -/
def checkLock : Except DecodeError Instruction :=
  if lockRepValue mr.metainfo1 = 1 ∧ mr.modC0 then
    if isMovCr0 is64 i.opcode then
      .ok { i with operands := { i.operands with dst := 8 } }
    else .error (.decoder .illegalOpcode)
  else .ok i

/-- Everything after the last byte. -/
def resolve (dst src1 suffix : BitVec 8) (imm disp : BitVec 32) (length : Nat) :
    Except DecodeError Instruction := do
  let found := lookup T is64 enc mr suffix imm
  let swap := namesRmFirst is64 found.1
  let i : Instruction := {
    opcode := found.1
    length := BitVec.ofNat 8 length
    flags := mr.metainfo1
    operands := {
      dst := if swap then mr.rm.setWidth 8 else dst
      src1 := if swap then mr.nnn.setWidth 8 else src1
      src2 := if enc.isVex then enc.vexVvv ||| (enc.evexVPrime <<< 4) else 0
      src3 := 0
      segment := mr.segment
      base := mr.address.base, index := mr.address.index, scale := mr.address.scale }
    immediate := found.2
    displacement := disp }
  let i ← finishEvex T is64 enc mr i
  let i ← finishVex T enc mr i
  let src3 := (T.vexIs4Src3 i.opcode i.immediate is64).getD i.operands.src3
  let i := { i with operands := { i.operands with src3 := src3 } }
  T.validateReservedVexVvvv i.opcode enc.vexVvv
  failIf (i.opcode = .iaError) (.decoder .illegalOpcode)
  checkLock is64 mr i

/-- The suffix byte of 3DNow!, its opcode. -/
def readSuffix : DecodeM (BitVec 8) :=
  if enc.opcodeMap = 4 ∧ !enc.isEvex then next .immediateBufferUnderflow else return 0

/-- The phases after ModRM. -/
def afterModRm (immediateSize : Nat) : DecodeM Instruction := do
  let (dst, src1) ← ofExcept (placeOperands is64 enc mr)
  let attributes ← ofExcept (vexAttributes enc mr)
  let suffix ← readSuffix enc
  let opcode := enc.b1.setWidth 8
  let ibIb2 := !enc.isVex && hasIbIb2 enc.opcodeMap opcode enc.ssePrefix mr.modC0 mr.nnn
  let size := if enc.isVex then vexImmediateSize enc.opcodeMap opcode else immediateSize
  let (imm, disp) ← readImmediate is64 enc size ibIb2 attributes mr.address.displacement
  let length ← position
  ofExcept (resolve T is64 enc mr dst src1 suffix imm disp length)

/-! ## The decoders -/

/-- `fetch_decode64` after its opcode phase. -/
def afterOpcode64 (p : Prefixes) (enc : Encoding) : DecodeM Instruction := do
  if isUd64 enc then fail (.decoder .illegalOpcode)
  else
    let mr ← modRm64 p enc
    afterModRm T true enc mr (immediateSize64 enc.b1 enc.opcodeMap mr.metainfo1 mr.nnn)

def decode64 : DecodeM Instruction := do
  let (p, b) ← prefixLoop prefixStep64 15
    ⟨os32 ||| as32 ||| as64, 0, 0, 7⟩
  opcode64 (applyRex p) b >>= afterOpcode64 T (applyRex p)

/-- `fetch_decode32_inplace` after its opcode phase. -/
def afterOpcode32 (p : Prefixes) (enc : Encoding) : DecodeM Instruction := do
  let mr ← modRm32 p enc
  afterModRm T false enc mr (immediateSize32 enc.b1 enc.opcodeMap p.os32 p.as32 mr.nnn)

def decode32 (is32 : Bool) : DecodeM Instruction := do
  let (p, b) ← prefixLoop (prefixStep32 is32) 15
    ⟨if is32 then os32 ||| as32 else 0, 0, 0, 7⟩
  opcode32 p b >>= afterOpcode32 T p

/-- The modes of the processor's fetch. -/
inductive DecodeMode
  | long64
  | legacy (is32 : Bool)
  deriving DecidableEq

def decoder : DecodeMode → DecodeM Instruction
  | .long64 => decode64 T
  | .legacy is32 => decode32 T is32

/-- `fetch_decode64` and `fetch_decode32`. -/
def fetchDecode (mode : DecodeMode) (bytes : List (BitVec 8)) : Except DecodeError Instruction :=
  if bytes = [] then .error .bufferUnderflow
  else (decoder T mode (bytes.take 15) 0).map Prod.fst

end RustyBox
