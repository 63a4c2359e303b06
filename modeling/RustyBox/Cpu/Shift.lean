-- SUMMARY: The 8-, 16- and 64-bit shift and rotate handlers.
import RustyBox.Cpu.EagerFlags
import RustyBox.Lib.SingleBit

/-!
# Shifts and rotates

The handlers of `cpu/shift8.rs`, `cpu/shift16.rs` and `cpu/shift64.rs`. A handler reads
its operand from a register or from memory, writes the result back to the same place and
updates the lazy flags, so its state is the operand and the flags. Rust panics on a shift
by the operand width or more and on a subtraction below zero: the handlers by a count
return `none` there.
-/

namespace RustyBox

/-- The operand and the flags of a shift instruction. -/
structure ShiftState (size : Width) where
  operand : BitVec size.bits
  flags : LazyFlags
  deriving DecidableEq

/-! ## Checked arithmetic -/

/-- `<<`. -/
def checkedShl {w : Nat} (x : BitVec w) (n : Nat) : Option (BitVec w) :=
  if n < w then some (x <<< n) else none

/-- `>>` on an unsigned integer. -/
def checkedShr {w : Nat} (x : BitVec w) (n : Nat) : Option (BitVec w) :=
  if n < w then some (x >>> n) else none

/-- `>>` on a signed integer. -/
def checkedSar {w : Nat} (x : BitVec w) (n : Nat) : Option (BitVec w) :=
  if n < w then some (x.sshiftRight n) else none

/-- `-` on an unsigned integer. -/
def checkedSub (a b : Nat) : Option Nat := if b ≤ a then some (a - b) else none

namespace ShiftState

variable {size : Width}

/-! ## Flag updates -/

/-- `get_cf`. -/
def getCf (s : ShiftState size) : Bool := s.flags.getbCf != 0#32

/-- `set_cf_of`. -/
def setCfOf (s : ShiftState size) (cf of : Bool) : ShiftState size :=
  { s with flags := s.flags.setFlagsOxxxxC (LazyFlags.boolU32 of) (LazyFlags.boolU32 cf) }

/-- The write of the result, `shift_write8` and its siblings. -/
def write (s : ShiftState size) (result : BitVec size.bits) : ShiftState size :=
  { s with operand := result }

/-- `update_flags_shl8`, `update_flags_shr8`, `update_flags_sar8` and their siblings: the
flags of a logical operation, then carry and overflow. -/
def updateFlags (s : ShiftState size) (result : BitVec size.bits) (cf of : Bool) :
    ShiftState size :=
  { s with flags := s.flags.setOszapcLogic size result }.setCfOf cf of

/-! ## 8- and 16-bit forms -/

section Narrow

variable (s : ShiftState size) (count : Nat)

def shl1 : ShiftState size :=
  let op1 := s.operand
  let result := op1 <<< 1
  let cf := op1.msb
  let of := (result ^^^ op1).msb
  (s.write result).updateFlags result cf of

/-- A left shift by a masked count. -/
def shlBy : Option (ShiftState size) := do
  if count = 0 then return s
  let op1 := s.operand
  let result ← if count ≥ size.bits then pure 0 else checkedShl op1 count
  let cf ←
    if count > size.bits then pure false
    else do pure (← checkedShl op1 (← checkedSub count 1)).msb
  let of := cf != result.msb
  return (s.write result).updateFlags result cf of

def shr1 : ShiftState size :=
  let op1 := s.operand
  let result := op1 >>> 1
  let cf := op1.getLsbD 0
  let of := op1.msb
  (s.write result).updateFlags result cf of

/-- A logical right shift by a masked count; carry and overflow are computed in 32 bits. -/
def shrBy : Option (ShiftState size) := do
  if count = 0 then return s
  let op1 := s.operand
  let result ← if count ≥ size.bits then pure 0 else checkedShr op1 count
  let cf := (← checkedShr (op1.setWidth 32) (← checkedSub count 1)).getLsbD 0
  let wide := result.setWidth 32
  let of := ((wide <<< 1) ^^^ wide) >>> (size.bits - 1) != 0#32
  return (s.write result).updateFlags result cf of

def sar1 : ShiftState size :=
  let op1 := s.operand
  let result := op1.sshiftRight 1
  let cf := op1.getLsbD 0
  (s.write result).updateFlags result cf false

/-- An arithmetic right shift by a masked count, with the counts past the width split off. -/
def sarBy : Option (ShiftState size) := do
  if count = 0 then return s
  let op1 := s.operand
  let result ←
    if count ≥ size.bits then pure (if op1.slt 0 then BitVec.allOnes _ else 0)
    else checkedSar op1 count
  let cf ←
    if count ≥ size.bits then pure (op1.slt 0)
    else do pure ((← checkedSar op1 (← checkedSub count 1)).getLsbD 0)
  return (s.write result).updateFlags result cf false

/-- The body of `sar_eb_ib`: every count goes to the shift itself. -/
def sarUnguarded : Option (ShiftState size) := do
  if count = 0 then return s
  let op1 := s.operand
  let result ← checkedSar op1 count
  let cf := (← checkedSar op1 (← checkedSub count 1)).getLsbD 0
  return (s.write result).updateFlags result cf false

def rol1 : ShiftState size :=
  let op1 := s.operand
  let result := op1.rotateLeft 1
  let cf := result.getLsbD 0
  let of := (result ^^^ op1).msb
  (s.write result).setCfOf cf of

/-- A left rotate. `turns` are the count bits above `low`: whole turns, which only set
carry and overflow. -/
def rolBy (cl low turns : BitVec 8) : ShiftState size :=
  let op1 := s.operand
  let count := (cl &&& low).toNat
  if count = 0 then
    if cl &&& turns ≠ 0 then s.setCfOf (op1.getLsbD 0) (op1.getLsbD 0 != op1.msb) else s
  else
    let result := op1.rotateLeft count
    let cf := result.getLsbD 0
    let of := (result ^^^ op1).msb
    (s.write result).setCfOf cf of

def ror1 : ShiftState size :=
  let op1 := s.operand
  let result := op1.rotateRight 1
  let cf := result.msb
  let of := (result ^^^ (result <<< 1)).msb
  (s.write result).setCfOf cf of

/-- A right rotate, with `low` and `turns` as in `rolBy`. -/
def rorBy (cl low turns : BitVec 8) : ShiftState size :=
  let op1 := s.operand
  let count := (cl &&& low).toNat
  if count = 0 then
    if cl &&& turns ≠ 0 then s.setCfOf op1.msb (op1.getLsbD (size.bits - 2) != op1.msb) else s
  else
    let result := op1.rotateRight count
    let cf := result.msb
    let of := (result ^^^ (result <<< 1)).msb
    (s.write result).setCfOf cf of

def rcl1 : ShiftState size :=
  let op1 := s.operand
  let tempCf := Lib.carryIn size.bits s.getCf
  let result := (op1 <<< 1) ||| tempCf
  let cf := op1.msb
  let of := cf ^^ result.msb
  (s.write result).setCfOf cf of

/-- A left rotate through the carry, by a count already reduced by whole turns; computed
in 32 bits. -/
def rclBy : Option (ShiftState size) := do
  if count = 0 then return s
  let op1 := s.operand.setWidth 32
  let tempCf := Lib.carryIn 32 s.getCf
  let wide ←
    if count = 1 then pure ((op1 <<< 1) ||| tempCf)
    else do
      pure ((← checkedShl op1 count) ||| (← checkedShl tempCf (← checkedSub count 1)) |||
        (← checkedShr op1 (← checkedSub (size.bits + 1) count)))
  let result := wide.setWidth size.bits
  let cf := (← checkedShr op1 (← checkedSub size.bits count)).getLsbD 0
  let of := cf ^^ result.msb
  return (s.write result).setCfOf cf of

def rcr1 : ShiftState size :=
  let op1 := s.operand
  let tempCf := Lib.carryIn size.bits s.getCf
  let result := (op1 >>> 1) ||| (tempCf <<< (size.bits - 1))
  let cf := op1.getLsbD 0
  let of := ((result <<< 1) ^^^ result).msb
  (s.write result).setCfOf cf of

/-- A right rotate through the carry, computed in 32 bits. -/
def rcrBy : Option (ShiftState size) := do
  if count = 0 then return s
  let op1 := s.operand.setWidth 32
  let tempCf := Lib.carryIn 32 s.getCf
  let wide := (← checkedShr op1 count) ||| (← checkedShl tempCf (← checkedSub size.bits count)) |||
    (← checkedShl op1 (← checkedSub (size.bits + 1) count))
  let result := wide.setWidth size.bits
  let cf := (← checkedShr op1 (← checkedSub count 1)).getLsbD 0
  let r := result.setWidth 32
  let of := (((r <<< 1) ^^^ r) >>> (size.bits - 1)).getLsbD 0
  return (s.write result).setCfOf cf of

end Narrow

/-! ## 64-bit forms

The bodies of `cpu/shift64.rs`, which mask the count below the width and need no guard,
with the width as a parameter like the ones above. `shl_eq_1`, `sar_eq_1`, `rcl_eq_1` and
`rcr_eq_1` are `shl1`, `sar1`, `rcl1` and `rcr1`. -/

section Wide

variable (s : ShiftState size) (count : Nat)

def shlEqBy : Option (ShiftState size) := do
  if count = 0 then return s
  let op1 := s.operand
  let result ← checkedShl op1 count
  let cf := (← checkedShr op1 (← checkedSub size.bits count)).getLsbD 0
  let of := cf ^^ result.msb
  return (s.write result).updateFlags result cf of

def shrEq1 : ShiftState size :=
  let op1 := s.operand
  let result := op1 >>> 1
  let cf := op1.getLsbD 0
  let of := ((result <<< 1) ^^^ result).msb
  (s.write result).updateFlags result cf of

def shrEqBy : Option (ShiftState size) := do
  if count = 0 then return s
  let op1 := s.operand
  let result ← checkedShr op1 count
  let cf := (← checkedShr op1 (← checkedSub count 1)).getLsbD 0
  let of := ((result <<< 1) ^^^ result).msb
  return (s.write result).updateFlags result cf of

def sarEqBy : Option (ShiftState size) := do
  if count = 0 then return s
  let op1 := s.operand
  let result ← checkedSar op1 count
  let cf := (← checkedShr op1 (← checkedSub count 1)).getLsbD 0
  return (s.write result).updateFlags result cf false

/-- `rol_eq_1`, and `rol_eq_cl` and `rol_eq_ib` once their count is not zero. -/
def rolEq : ShiftState size :=
  let result := s.operand.rotateLeft count
  let bit0 := result.getLsbD 0
  let bit63 := result.msb
  (s.write result).setCfOf bit0 (bit0 ^^ bit63)

def rolEqBy : ShiftState size := if count = 0 then s else s.rolEq count

/-- `ror_eq_1`, and `ror_eq_cl` and `ror_eq_ib` once their count is not zero. -/
def rorEq : ShiftState size :=
  let result := s.operand.rotateRight count
  let bit63 := result.msb
  let bit62 := result.getLsbD (size.bits - 2)
  (s.write result).setCfOf bit63 (bit62 ^^ bit63)

def rorEqBy : ShiftState size := if count = 0 then s else s.rorEq count

def rclEqBy : Option (ShiftState size) := do
  if count = 0 then return s
  let op1 := s.operand
  let tempCf := Lib.carryIn size.bits s.getCf
  let result ←
    if count = 1 then pure ((op1 <<< 1) ||| tempCf)
    else do
      pure ((← checkedShl op1 count) ||| (← checkedShl tempCf (← checkedSub count 1)) |||
        (← checkedShr op1 (← checkedSub (size.bits + 1) count)))
  let cf := (← checkedShr op1 (← checkedSub size.bits count)).getLsbD 0
  let of := cf ^^ result.msb
  return (s.write result).setCfOf cf of

def rcrEqBy : Option (ShiftState size) := do
  if count = 0 then return s
  let op1 := s.operand
  let tempCf := Lib.carryIn size.bits s.getCf
  let result ←
    if count = 1 then pure ((op1 >>> 1) ||| (tempCf <<< (size.bits - 1)))
    else do
      pure ((← checkedShr op1 count) ||| (← checkedShl tempCf (← checkedSub size.bits count)) |||
        (← checkedShl op1 (← checkedSub (size.bits + 1) count)))
  let cf := (← checkedShr op1 (← checkedSub count 1)).getLsbD 0
  let of := ((result <<< 1) ^^^ result).msb
  return (s.write result).setCfOf cf of

end Wide

end ShiftState

/-! ## The handlers

`cl` is the CL register and `ib` the immediate byte. -/

section Byte

variable (s : ShiftState .w8) (cl ib : BitVec 8)

def shlEb1 := s.shl1
def shlEbCl := s.shlBy (cl &&& 0x1F#8).toNat
def shlEbIb := s.shlBy (ib &&& 0x1F#8).toNat

def shrEb1 := s.shr1
def shrEbCl := s.shrBy (cl &&& 0x1F#8).toNat
def shrEbIb := s.shrBy (ib &&& 0x1F#8).toNat

def sarEb1 := s.sar1
def sarEbCl := s.sarBy (cl &&& 0x1F#8).toNat
def sarEbIb := s.sarUnguarded (ib &&& 0x1F#8).toNat

def rolEb1 := s.rol1
def rolEbCl := some (s.rolBy cl 0x07#8 0x18#8)
def rolEbIb := some (s.rolBy ib 0x07#8 0x18#8)

def rorEb1 := s.ror1
def rorEbCl := some (s.rorBy cl 0x07#8 0x18#8)
def rorEbIb := some (s.rorBy ib 0x07#8 0x18#8)

def rclEb1 := s.rcl1
def rclEbCl := s.rclBy ((cl &&& 0x1F#8).toNat % 9)
def rclEbIb := s.rclBy ((ib &&& 0x1F#8).toNat % 9)

def rcrEb1 := s.rcr1
def rcrEbCl := s.rcrBy ((cl &&& 0x1F#8).toNat % 9)
def rcrEbIb := s.rcrBy ((ib &&& 0x1F#8).toNat % 9)

end Byte

section Word

variable (s : ShiftState .w16) (cl ib : BitVec 8)

def shlEw1 := s.shl1
def shlEwCl := s.shlBy (cl &&& 0x1F#8).toNat
def shlEwIb := s.shlBy (ib &&& 0x1F#8).toNat

def shrEw1 := s.shr1
def shrEwCl := s.shrBy (cl &&& 0x1F#8).toNat
def shrEwIb := s.shrBy (ib &&& 0x1F#8).toNat

def sarEw1 := s.sar1
def sarEwCl := s.sarBy (cl &&& 0x1F#8).toNat
def sarEwIb := s.sarBy (ib &&& 0x1F#8).toNat

def rolEw1 := s.rol1
def rolEwCl := some (s.rolBy (cl &&& 0x1F#8) 0x0F#8 0x10#8)
def rolEwIb := some (s.rolBy (ib &&& 0x1F#8) 0x0F#8 0x10#8)

def rorEw1 := s.ror1
def rorEwCl := some (s.rorBy (cl &&& 0x1F#8) 0x0F#8 0x10#8)
def rorEwIb := some (s.rorBy (ib &&& 0x1F#8) 0x0F#8 0x10#8)

def rclEw1 := s.rcl1
def rclEwCl := s.rclBy ((cl &&& 0x1F#8).toNat % 17)
def rclEwIb := s.rclBy ((ib &&& 0x1F#8).toNat % 17)

def rcrEw1 := s.rcr1
def rcrEwCl := s.rcrBy ((cl &&& 0x1F#8).toNat % 17)
def rcrEwIb := s.rcrBy ((ib &&& 0x1F#8).toNat % 17)

end Word

section Quadword

variable (s : ShiftState .w64) (cl ib : BitVec 8)

def shlEq1 := s.shl1
def shlEqCl := s.shlEqBy (cl &&& 0x3F#8).toNat
def shlEqIb := s.shlEqBy (ib &&& 0x3F#8).toNat

def shrEq1 := s.shrEq1
def shrEqCl := s.shrEqBy (cl &&& 0x3F#8).toNat
def shrEqIb := s.shrEqBy (ib &&& 0x3F#8).toNat

def sarEq1 := s.sar1
def sarEqCl := s.sarEqBy (cl &&& 0x3F#8).toNat
def sarEqIb := s.sarEqBy (ib &&& 0x3F#8).toNat

def rolEq1 := s.rolEq 1
def rolEqCl := some (s.rolEqBy (cl &&& 0x3F#8).toNat)
def rolEqIb := some (s.rolEqBy (ib &&& 0x3F#8).toNat)

def rorEq1 := s.rorEq 1
def rorEqCl := some (s.rorEqBy (cl &&& 0x3F#8).toNat)
def rorEqIb := some (s.rorEqBy (ib &&& 0x3F#8).toNat)

def rclEq1 := s.rcl1
def rclEqCl := s.rclEqBy (cl &&& 0x3F#8).toNat
def rclEqIb := s.rclEqBy (ib &&& 0x3F#8).toNat

def rcrEq1 := s.rcr1
def rcrEqCl := s.rcrEqBy (cl &&& 0x3F#8).toNat
def rcrEqIb := s.rcrEqBy (ib &&& 0x3F#8).toNat

end Quadword

/-- The operand widths of the handlers here. -/
inductive ShiftWidth
  | eb
  | ew
  | eq
  deriving DecidableEq, Repr

def ShiftWidth.size : ShiftWidth → Width
  | .eb => .w8
  | .ew => .w16
  | .eq => .w64

inductive ShiftOp
  | shl
  | shr
  | sar
  | rol
  | ror
  | rcl
  | rcr
  deriving DecidableEq, Repr

/-- Where the count of a multi-bit form comes from. -/
inductive CountForm
  | cl
  | ib
  deriving DecidableEq, Repr

/-- The by-1 handler of an operation. -/
def by1 : (width : ShiftWidth) → ShiftOp → ShiftState width.size → ShiftState width.size
  | .eb, .shl => shlEb1
  | .eb, .shr => shrEb1
  | .eb, .sar => sarEb1
  | .eb, .rol => rolEb1
  | .eb, .ror => rorEb1
  | .eb, .rcl => rclEb1
  | .eb, .rcr => rcrEb1
  | .ew, .shl => shlEw1
  | .ew, .shr => shrEw1
  | .ew, .sar => sarEw1
  | .ew, .rol => rolEw1
  | .ew, .ror => rorEw1
  | .ew, .rcl => rclEw1
  | .ew, .rcr => rcrEw1
  | .eq, .shl => shlEq1
  | .eq, .shr => shrEq1
  | .eq, .sar => sarEq1
  | .eq, .rol => rolEq1
  | .eq, .ror => rorEq1
  | .eq, .rcl => rclEq1
  | .eq, .rcr => rcrEq1

/-- The handler of an operation by CL or by an immediate. -/
def byCount : (width : ShiftWidth) → ShiftOp → CountForm → ShiftState width.size → BitVec 8 →
    Option (ShiftState width.size)
  | .eb, .shl, .cl => shlEbCl
  | .eb, .shl, .ib => shlEbIb
  | .eb, .shr, .cl => shrEbCl
  | .eb, .shr, .ib => shrEbIb
  | .eb, .sar, .cl => sarEbCl
  | .eb, .sar, .ib => sarEbIb
  | .eb, .rol, .cl => rolEbCl
  | .eb, .rol, .ib => rolEbIb
  | .eb, .ror, .cl => rorEbCl
  | .eb, .ror, .ib => rorEbIb
  | .eb, .rcl, .cl => rclEbCl
  | .eb, .rcl, .ib => rclEbIb
  | .eb, .rcr, .cl => rcrEbCl
  | .eb, .rcr, .ib => rcrEbIb
  | .ew, .shl, .cl => shlEwCl
  | .ew, .shl, .ib => shlEwIb
  | .ew, .shr, .cl => shrEwCl
  | .ew, .shr, .ib => shrEwIb
  | .ew, .sar, .cl => sarEwCl
  | .ew, .sar, .ib => sarEwIb
  | .ew, .rol, .cl => rolEwCl
  | .ew, .rol, .ib => rolEwIb
  | .ew, .ror, .cl => rorEwCl
  | .ew, .ror, .ib => rorEwIb
  | .ew, .rcl, .cl => rclEwCl
  | .ew, .rcl, .ib => rclEwIb
  | .ew, .rcr, .cl => rcrEwCl
  | .ew, .rcr, .ib => rcrEwIb
  | .eq, .shl, .cl => shlEqCl
  | .eq, .shl, .ib => shlEqIb
  | .eq, .shr, .cl => shrEqCl
  | .eq, .shr, .ib => shrEqIb
  | .eq, .sar, .cl => sarEqCl
  | .eq, .sar, .ib => sarEqIb
  | .eq, .rol, .cl => rolEqCl
  | .eq, .rol, .ib => rolEqIb
  | .eq, .ror, .cl => rorEqCl
  | .eq, .ror, .ib => rorEqIb
  | .eq, .rcl, .cl => rclEqCl
  | .eq, .rcl, .ib => rclEqIb
  | .eq, .rcr, .cl => rcrEqCl
  | .eq, .rcr, .ib => rcrEqIb

/-- The bits of the count that an instruction of this width uses. -/
def ShiftWidth.countMask : ShiftWidth → BitVec 8
  | .eb => 0x1F#8
  | .ew => 0x1F#8
  | .eq => 0x3F#8

def maskedCount (width : ShiftWidth) (count : BitVec 8) : Nat := (count &&& width.countMask).toNat

end RustyBox
