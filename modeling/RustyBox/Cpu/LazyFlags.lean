-- SUMMARY: The lazy flags entry of the CPU: its setters, its getters and what an encoding decodes to.
import RustyBox.Lib.Carry

/-!
# Lazy flags

Shallow embedding of `cpu/lazy_flags.rs`. The six arithmetic flags are not stored:
an entry keeps a sign-extended result and a word of auxiliary bits (sign delta,
adjust flag, parity delta byte, partial overflow, carry), and each getter decodes one
flag from the pair. `LazyFlags.decode` is the decoding with Boolean values; the
getters return it as a `u32`.
-/

namespace RustyBox

open BitVec

/-- Operand width. -/
inductive Width
  | w8
  | w16
  | w32
  | w64
  deriving DecidableEq, Repr

def Width.bits : Width → Nat
  | .w8 => 8
  | .w16 => 16
  | .w32 => 32
  | .w64 => 64

def lfMaskSd : BitVec 32 := 1#32 <<< 0
def lfMaskAf : BitVec 32 := 1#32 <<< 3
def lfMaskPdb : BitVec 32 := 0xFF#32 <<< 8
def lfMaskPo : BitVec 32 := 1#32 <<< 30
def lfMaskCf : BitVec 32 := 1#32 <<< 31

/-- `add_cout_vec`. -/
def addCoutVec (op1 op2 result : BitVec 64) : BitVec 64 :=
  (op1 &&& op2) ||| ((op1 ||| op2) &&& ~~~result)

/-- `sub_cout_vec`. -/
def subCoutVec (op1 op2 result : BitVec 64) : BitVec 64 :=
  (~~~op1 &&& op2) ||| ((~~~op1 ^^^ op2) &&& result)

/-- `BxLazyflagsEntry`. -/
structure LazyFlags where
  result : BitVec 64
  auxbits : BitVec 64
  deriving DecidableEq, Repr

namespace LazyFlags

variable (size : Width) (e : LazyFlags) (val : Bool)

/-- The result, sign-extended from the operand width. -/
def extendResult (lfResult : BitVec 64) : BitVec 64 :=
  match size with
  | .w8 => (lfResult.setWidth 8).signExtend 64
  | .w16 => (lfResult.setWidth 16).signExtend 64
  | .w32 => (lfResult.setWidth 32).signExtend 64
  | .w64 => lfResult

/-- The auxiliary bits of a carry vector, with no sign or parity delta. -/
def packCarries (carries : BitVec 64) : BitVec 32 :=
  match size with
  | .w32 => carries.setWidth 32 &&& ~~~(lfMaskPdb ||| lfMaskSd)
  | .w16 => (carries.setWidth 32 &&& lfMaskAf) ||| (carries.setWidth 32 <<< 16)
  | .w8 => (carries.setWidth 32 &&& lfMaskAf) ||| (carries.setWidth 32 <<< 24)
  | .w64 => (carries.setWidth 32 &&& lfMaskAf) ||| ((carries >>> 62).setWidth 32 <<< 30)

/-- `set_oszapc`. -/
def setOszapc (carries lfResult : BitVec 64) (_e : LazyFlags) : LazyFlags where
  result := extendResult size lfResult
  auxbits := (packCarries size carries).setWidth 64

/-- `set_oszap`: the old carry is xored back in, in both bits that encode it. -/
def setOszap (carries lfResult : BitVec 64) (e : LazyFlags) : LazyFlags :=
  let temp := packCarries size carries
  let deltaC := (e.auxbits.setWidth 32 ^^^ temp) &&& lfMaskCf
  let deltaC := deltaC ^^^ (deltaC >>> 1)
  { result := extendResult size lfResult
    auxbits := (temp ^^^ deltaC).setWidth 64 }

/-! ## The setters per operation

One definition for each family; the members at the widths of the source follow. -/

def setOszapcLogic (result : BitVec size.bits) : LazyFlags → LazyFlags :=
  setOszapc size 0 (result.setWidth 64)

def setOszapcAdd (op1 op2 sum : BitVec size.bits) : LazyFlags → LazyFlags :=
  setOszapc size (addCoutVec (op1.setWidth 64) (op2.setWidth 64) (sum.setWidth 64))
    (sum.setWidth 64)

def setOszapcSub (op1 op2 diff : BitVec size.bits) : LazyFlags → LazyFlags :=
  setOszapc size (subCoutVec (op1.setWidth 64) (op2.setWidth 64) (diff.setWidth 64))
    (diff.setWidth 64)

def setOszapAdd (op1 op2 sum : BitVec size.bits) : LazyFlags → LazyFlags :=
  setOszap size (addCoutVec (op1.setWidth 64) (op2.setWidth 64) (sum.setWidth 64))
    (sum.setWidth 64)

def setOszapSub (op1 op2 diff : BitVec size.bits) : LazyFlags → LazyFlags :=
  setOszap size (subCoutVec (op1.setWidth 64) (op2.setWidth 64) (diff.setWidth 64))
    (diff.setWidth 64)

def setOszapcLogic8 (result : BitVec 8) := setOszapcLogic .w8 result
def setOszapcLogic16 (result : BitVec 16) := setOszapcLogic .w16 result
def setOszapcLogic32 (result : BitVec 32) := setOszapcLogic .w32 result
def setOszapcLogic64 (result : BitVec 64) := setOszapcLogic .w64 result
def setOszapcAdd8 (op1 op2 sum : BitVec 8) := setOszapcAdd .w8 op1 op2 sum
def setOszapcAdd16 (op1 op2 sum : BitVec 16) := setOszapcAdd .w16 op1 op2 sum
def setOszapcAdd32 (op1 op2 sum : BitVec 32) := setOszapcAdd .w32 op1 op2 sum
def setOszapcAdd64 (op1 op2 sum : BitVec 64) := setOszapcAdd .w64 op1 op2 sum
def setOszapcSub8 (op1 op2 diff : BitVec 8) := setOszapcSub .w8 op1 op2 diff
def setOszapcSub16 (op1 op2 diff : BitVec 16) := setOszapcSub .w16 op1 op2 diff
def setOszapcSub32 (op1 op2 diff : BitVec 32) := setOszapcSub .w32 op1 op2 diff
def setOszapcSub64 (op1 op2 diff : BitVec 64) := setOszapcSub .w64 op1 op2 diff
def setOszapAdd8 (op1 op2 sum : BitVec 8) := setOszapAdd .w8 op1 op2 sum
def setOszapAdd16 (op1 op2 sum : BitVec 16) := setOszapAdd .w16 op1 op2 sum
def setOszapAdd32 (op1 op2 sum : BitVec 32) := setOszapAdd .w32 op1 op2 sum
def setOszapAdd64 (op1 op2 sum : BitVec 64) := setOszapAdd .w64 op1 op2 sum
def setOszapSub8 (op1 op2 diff : BitVec 8) := setOszapSub .w8 op1 op2 diff
def setOszapSub16 (op1 op2 diff : BitVec 16) := setOszapSub .w16 op1 op2 diff
def setOszapSub32 (op1 op2 diff : BitVec 32) := setOszapSub .w32 op1 op2 diff
def setOszapSub64 (op1 op2 diff : BitVec 64) := setOszapSub .w64 op1 op2 diff

/-! ## Getters -/

/-- `as u32`. -/
def aux32 : BitVec 32 := e.auxbits.setWidth 32

def getbOf : BitVec 32 := ((e.aux32 + (1#32 <<< 30)) >>> 31) &&& 1#32

def getbSf : BitVec 32 :=
  ((e.result >>> 63).setWidth 32 ^^^ (e.aux32 >>> 0)) &&& 1#32

def getbZf : BitVec 32 := if e.result = 0 then 1#32 else 0#32

def getbAf : BitVec 32 := (e.aux32 >>> 3) &&& 1#32

def getbPf : BitVec 32 :=
  let temp := (e.result.setWidth 32 &&& 0xFF#32) ^^^ ((e.aux32 >>> 8) &&& 0xFF#32)
  let temp := (temp ^^^ (temp >>> 4)) &&& 0x0F#32
  (0x9669#32 >>> temp) &&& 1#32

def getbCf : BitVec 32 := (e.aux32 >>> 31) &&& 1#32

/-! ## Single-flag setters -/

/-- `as u32` on a `bool`. -/
def boolU32 (b : Bool) : BitVec 32 := if b then 1#32 else 0#32

def setFlagsOxxxxC (newOf newCf : BitVec 32) (e : LazyFlags) : LazyFlags :=
  let tempPo := newOf ^^^ newCf
  { e with
    auxbits := ((e.aux32 &&& ~~~(lfMaskPo ||| lfMaskCf)) ||| (tempPo <<< 30) |||
      (newCf <<< 31)).setWidth 64 }

def assertFlagsOxxxxC : LazyFlags := e.setFlagsOxxxxC 1#32 1#32

def setCf (e : LazyFlags) : LazyFlags := e.setFlagsOxxxxC e.getbOf (boolU32 val)

def setOf (e : LazyFlags) : LazyFlags := e.setFlagsOxxxxC (boolU32 val) e.getbCf

def setSf (e : LazyFlags) : LazyFlags :=
  { e with auxbits := e.auxbits ^^^ ((e.getbSf ^^^ boolU32 val) <<< 0).setWidth 64 }

/-- `set_zf`: asserting moves sign and parity into their deltas before the result is
zeroed; clearing sets a bit that neither sign nor parity reads. -/
def setZf (e : LazyFlags) : LazyFlags :=
  if val then
    let aux := e.auxbits ^^^ ((((e.result >>> 63).setWidth 32 &&& 1#32) <<< 0).setWidth 64)
    let tempPdb := e.result.setWidth 32 &&& 0xFF#32
    { result := 0, auxbits := aux ^^^ ((tempPdb <<< 8).setWidth 64) }
  else { e with result := e.result ||| (1#64 <<< 8) }

def setAf (e : LazyFlags) : LazyFlags :=
  { e with auxbits := ((e.aux32 &&& ~~~lfMaskAf) ||| (boolU32 val <<< 3)).setWidth 64 }

def setPf (e : LazyFlags) : LazyFlags :=
  let tempPdb := (e.result.setWidth 32 &&& 0xFF#32) ^^^ boolU32 (!val)
  { e with auxbits := ((e.aux32 &&& ~~~lfMaskPdb) ||| (tempPdb <<< 8)).setWidth 64 }

end LazyFlags

/-! ## Decoding -/

/-- The six flags, stored eagerly. -/
@[ext] structure Flags where
  of : Bool
  sf : Bool
  zf : Bool
  af : Bool
  pf : Bool
  cf : Bool
  deriving DecidableEq, Repr

/-- An even number of bits is set. -/
def evenParity (b : BitVec 8) : Bool := (List.range 8).countP b.getLsbD % 2 == 0

namespace LazyFlags

/-- The parity byte: the low byte of the result, corrected by the delta. -/
def parityByte (e : LazyFlags) : BitVec 8 :=
  e.result.setWidth 8 ^^^ (e.auxbits >>> 8).setWidth 8

/-- What the entry encodes. -/
def decode (e : LazyFlags) : Flags where
  of := e.auxbits.getLsbD 31 ^^ e.auxbits.getLsbD 30
  sf := e.result.getLsbD 63 ^^ e.auxbits.getLsbD 0
  zf := e.result = 0
  af := e.auxbits.getLsbD 3
  pf := evenParity e.parityByte
  cf := e.auxbits.getLsbD 31

/-- The last bit of a shifted word. -/
theorem shiftRight_and_one (x : BitVec 32) (k : Nat) :
    (x >>> k) &&& 1#32 = boolU32 (x.getLsbD k) := by
  apply eq_of_getLsbD_eq
  intro i hi
  cases i with
  | zero => cases h : x.getLsbD k <;> simp [boolU32, h]
  | succ i => cases h : x.getLsbD k <;> simp [boolU32]

variable (e : LazyFlags)

theorem aux32_getLsbD {i : Nat} (hi : i < 32) : e.aux32.getLsbD i = e.auxbits.getLsbD i := by
  simp [aux32, hi]

theorem getbCf_eq : e.getbCf = boolU32 e.decode.cf := by
  rw [getbCf, shiftRight_and_one, aux32_getLsbD e (by decide)]
  rfl

theorem getbAf_eq : e.getbAf = boolU32 e.decode.af := by
  rw [getbAf, shiftRight_and_one, aux32_getLsbD e (by decide)]
  rfl

theorem getbZf_eq : e.getbZf = boolU32 e.decode.zf := by
  simp [getbZf, boolU32, decode]

/-- Adding at the partial-overflow bit carries it into the carry bit. -/
theorem getbOf_eq : e.getbOf = boolU32 e.decode.of := by
  rw [getbOf, shiftRight_and_one, getLsbD_add (by decide), carry_succ,
    aux32_getLsbD e (by decide), aux32_getLsbD e (by decide)]
  have hno : carry 30 e.aux32 (1#32 <<< 30) false = false := by
    have h : (1#32 <<< 30).toNat % 2 ^ 30 = 0 := by decide
    simp only [carry, Bool.toNat_false, decide_eq_false_iff_not]
    omega
  rw [hno]
  simp [decode]

theorem getbSf_eq : e.getbSf = boolU32 e.decode.sf := by
  have h := shiftRight_and_one ((e.result >>> 63).setWidth 32 ^^^ e.aux32) 0
  simp only [ushiftRight_zero] at h
  rw [getbSf, ushiftRight_zero, h, getLsbD_xor, aux32_getLsbD e (by decide)]
  simp [decode]

/-- The parity table of the source, on every byte. -/
theorem parity_table : ∀ b : Fin 256,
    (0x9669#32 >>> (((ofFin (w := 8) b).setWidth 32 ^^^
      ((ofFin (w := 8) b).setWidth 32 >>> 4)) &&& 0x0F#32)) &&& 1#32 =
      boolU32 (evenParity (ofFin b)) := by
  decide +kernel

/-- The byte the parity getter indexes its table with. -/
theorem parityByte_setWidth :
    (e.result.setWidth 32 &&& 0xFF#32) ^^^ ((e.aux32 >>> 8) &&& 0xFF#32) =
      e.parityByte.setWidth 32 := by
  apply eq_of_getLsbD_eq
  intro i hi
  interval_cases i <;> simp [parityByte, aux32]

theorem getbPf_eq : e.getbPf = boolU32 e.decode.pf := by
  rw [getbPf, parityByte_setWidth]
  exact parity_table e.parityByte.toFin

end LazyFlags

end RustyBox
