-- SUMMARY: Lazy flags refine six stored Booleans, along any sequence of updates.
import RustyBox.Cpu.LazyFlags

/-!
# Lazy flags refine eager flags

`Flags` is the eager implementation: six Booleans, updated by the arithmetic meaning of
each operation. `FlagUpdate` is what an instruction does to the flags, on both levels.
Each setter commutes with `LazyFlags.decode` (one lemma per setter), so a whole
sequence of updates does, and the getters return the eager flags.
-/

namespace RustyBox

open Lib BitVec LazyFlags Flags

/-! ## The eager level -/

namespace Flags

/-- The flags of a result and the carries out of each bit of the operation. -/
def ofCarries (size : Width) (carries result : BitVec 64) : Flags where
  of := carries.getLsbD (size.bits - 1) ^^ carries.getLsbD (size.bits - 2)
  sf := (result.setWidth size.bits).msb
  zf := result.setWidth size.bits = 0
  af := carries.getLsbD 3
  pf := evenParity (result.setWidth 8)
  cf := carries.getLsbD (size.bits - 1)

/-- The flags of `op1 + op2 + c`. -/
def ofAdd (size : Width) (op1 op2 : BitVec size.bits) (c : Bool) : Flags where
  of := OutOfSigned size.bits (op1.toInt + op2.toInt + c.toNat)
  sf := (op1 + op2 + carryIn _ c).msb
  zf := op1 + op2 + carryIn _ c = 0
  af := 16 ≤ op1.toNat % 16 + op2.toNat % 16 + c.toNat
  pf := evenParity ((op1 + op2 + carryIn _ c).setWidth 8)
  cf := 2 ^ size.bits ≤ op1.toNat + op2.toNat + c.toNat

/-- The flags of `op1 - op2 - c`. -/
def ofSub (size : Width) (op1 op2 : BitVec size.bits) (c : Bool) : Flags where
  of := OutOfSigned size.bits (op1.toInt - op2.toInt - c.toNat)
  sf := (op1 - op2 - carryIn _ c).msb
  zf := op1 - op2 - carryIn _ c = 0
  af := op1.toNat % 16 < op2.toNat % 16 + c.toNat
  pf := evenParity ((op1 - op2 - carryIn _ c).setWidth 8)
  cf := op1.toNat < op2.toNat + c.toNat

/-- The flags of a bitwise operation. -/
def ofLogic (size : Width) (result : BitVec size.bits) : Flags where
  of := false
  sf := result.msb
  zf := result = 0
  af := false
  pf := evenParity (result.setWidth 8)
  cf := false

/-- All flags but the carry are replaced. -/
def keepCf (new old : Flags) : Flags := { new with cf := old.cf }

end Flags

/-! ## Decoding the packed carries and the result -/

namespace LazyFlags

variable (size : Width) (c r : BitVec 64)

theorem packCarries_bits :
    (packCarries size c).getLsbD 0 = false ∧ (packCarries size c).getLsbD 3 = c.getLsbD 3 ∧
      (packCarries size c).getLsbD 30 = c.getLsbD (size.bits - 2) ∧
      (packCarries size c).getLsbD 31 = c.getLsbD (size.bits - 1) := by
  cases size <;> simp [packCarries, lfMaskPdb, lfMaskSd, lfMaskAf, Width.bits]

theorem packCarries_pdb {i : Nat} (hi : i < 8) : (packCarries size c).getLsbD (8 + i) = false := by
  interval_cases i <;> cases size <;> simp [packCarries, lfMaskPdb, lfMaskAf]

theorem le_bits : 8 ≤ size.bits := by cases size <;> decide

theorem bits_le : size.bits ≤ 64 := by cases size <;> decide

theorem extendResult_eq_signExtend :
    extendResult size r = (r.setWidth size.bits).signExtend 64 := by
  cases size with
  | w64 => simp [extendResult, Width.bits]
  | _ => rfl

theorem extendResult_sign : (extendResult size r).getLsbD 63 = (r.setWidth size.bits).msb := by
  rw [extendResult_eq_signExtend, getLsbD_signExtend]
  cases size <;> simp [Width.bits, msb_eq_getLsbD_last]

theorem extendResult_eq_zero : extendResult size r = 0 ↔ r.setWidth size.bits = 0 := by
  have hle := bits_le size
  rw [extendResult_eq_signExtend, ← toInt_inj, toInt_signExtend_of_le hle, ← toInt_inj]
  simp

theorem extendResult_byte : (extendResult size r).setWidth 8 = r.setWidth 8 := by
  apply eq_of_getLsbD_eq
  intro i hi
  interval_cases i <;> cases size <;> simp [extendResult, getElem_signExtend]

/-- A zero byte of deltas leaves the low byte of the result. -/
theorem parityByte_of_no_delta {e : LazyFlags}
    (h : ∀ i, i < 8 → e.auxbits.getLsbD (8 + i) = false) : e.parityByte = e.result.setWidth 8 := by
  apply eq_of_getLsbD_eq
  intro i hi
  simp [parityByte, h i hi]

variable (e : LazyFlags)

theorem decode_setOszapc : (e.setOszapc size c r).decode = ofCarries size c r := by
  have hpf : (e.setOszapc size c r).parityByte = r.setWidth 8 := by
    rw [parityByte_of_no_delta]
    · exact extendResult_byte size r
    · intro i hi
      simp only [setOszapc, getLsbD_setWidth, packCarries_pdb size c hi, Bool.and_false]
  ext1
  case pf => simp only [decode, hpf, ofCarries]
  case zf => simp only [decode, setOszapc, extendResult_eq_zero, ofCarries]
  all_goals
    simp only [decode, setOszapc, ofCarries, getLsbD_setWidth, Nat.reduceLT,
      decide_true, Bool.true_and, extendResult_sign, packCarries_bits size c,
      Bool.xor_false]

/-- The correction of `set_oszap` touches only the two bits that encode the carry. -/
theorem setOszap_getLsbD {i : Nat} (hi : i < 30) :
    (e.setOszap size c r).auxbits.getLsbD i = (packCarries size c).getLsbD i := by
  interval_cases i <;> simp [setOszap, lfMaskCf]

theorem decode_setOszap :
    (e.setOszap size c r).decode = (ofCarries size c r).keepCf e.decode := by
  have hpf : (e.setOszap size c r).parityByte = r.setWidth 8 := by
    rw [parityByte_of_no_delta]
    · exact extendResult_byte size r
    · intro i hi
      rw [setOszap_getLsbD size c r e (by omega), packCarries_pdb size c hi]
  obtain ⟨h0, h3, h30, h31⟩ := packCarries_bits size c
  ext1
  case pf => simp only [decode, hpf, ofCarries, keepCf]
  case zf => simp only [decode, setOszap, extendResult_eq_zero, ofCarries, keepCf]
  case af => exact (setOszap_getLsbD size c r e (by decide)).trans h3
  case sf =>
    simp only [decode, setOszap_getLsbD size c r e (show 0 < 30 by decide), h0, Bool.xor_false]
    exact extendResult_sign size r
  case of =>
    simp [decode, setOszap, lfMaskCf, ofCarries] at h31 h30 ⊢
    rw [h31, h30]
    cases c.getLsbD (size.bits - 1) <;> cases c.getLsbD (size.bits - 2) <;>
      cases e.auxbits[31] <;> rfl
  case cf =>
    simp [decode, setOszap]
    cases (packCarries size c)[31] <;> cases e.auxbits[31] <;> rfl

/-! ## The single-flag setters -/

theorem boolU32_getElem (b : Bool) {i : Nat} (hi : i < 32) :
    (boolU32 b)[i] = (decide (i = 0) && b) := by
  cases b with
  | false => simp [boolU32]
  | true => cases i <;> simp [boolU32]

theorem parityByte_congr {e e' : LazyFlags} (hr : e'.result.setWidth 8 = e.result.setWidth 8)
    (ha : ∀ i, i < 8 → e'.auxbits.getLsbD (8 + i) = e.auxbits.getLsbD (8 + i)) :
    e'.parityByte = e.parityByte := by
  have hpdb : (e'.auxbits >>> 8).setWidth 8 = (e.auxbits >>> 8).setWidth 8 := by
    apply eq_of_getLsbD_eq
    intro i hi
    simp only [getLsbD_setWidth, getLsbD_ushiftRight, ha i hi]
  rw [parityByte, parityByte, hr, hpdb]

/-- Where the parity is kept, the other flags are read off the result and four bits. -/
theorem decode_of_byte {e e' : LazyFlags} (h : e'.parityByte = e.parityByte) :
    e'.decode = ⟨e'.auxbits.getLsbD 31 ^^ e'.auxbits.getLsbD 30,
      e'.result.getLsbD 63 ^^ e'.auxbits.getLsbD 0, e'.result = 0, e'.auxbits.getLsbD 3,
      e.decode.pf, e'.auxbits.getLsbD 31⟩ := by
  simp only [decode, h]

theorem decode_setFlagsOxxxxC (a b : Bool) :
    (e.setFlagsOxxxxC (boolU32 a) (boolU32 b)).decode = { e.decode with of := a, cf := b } := by
  have hpf : (e.setFlagsOxxxxC (boolU32 a) (boolU32 b)).parityByte = e.parityByte := by
    refine parityByte_congr rfl fun i hi => ?_
    interval_cases i <;>
      simp [setFlagsOxxxxC, lfMaskPo, lfMaskCf, aux32]
  rw [decode_of_byte hpf]
  cases a <;> cases b <;> simp [setFlagsOxxxxC, boolU32, lfMaskPo, lfMaskCf, aux32, decode]

theorem decode_setCf (v : Bool) : (e.setCf v).decode = { e.decode with cf := v } := by
  rw [setCf, getbOf_eq, decode_setFlagsOxxxxC]

theorem decode_setOf (v : Bool) : (e.setOf v).decode = { e.decode with of := v } := by
  rw [setOf, getbCf_eq, decode_setFlagsOxxxxC]

theorem decode_setSf (v : Bool) : (e.setSf v).decode = { e.decode with sf := v } := by
  have hpf : (e.setSf v).parityByte = e.parityByte := by
    refine parityByte_congr rfl fun i hi => ?_
    interval_cases i <;> simp [setSf, getbSf_eq, boolU32_getElem]
  rw [decode_of_byte hpf]
  simp [setSf, getbSf_eq, boolU32_getElem, decode]
  cases e.result[63] <;> cases e.auxbits[0] <;> cases v <;> rfl

theorem decode_setAf (v : Bool) : (e.setAf v).decode = { e.decode with af := v } := by
  have hpf : (e.setAf v).parityByte = e.parityByte := by
    refine parityByte_congr rfl fun i hi => ?_
    interval_cases i <;> simp [setAf, boolU32_getElem, lfMaskAf, aux32]
  rw [decode_of_byte hpf]
  simp [setAf, boolU32_getElem, lfMaskAf, aux32, decode]

theorem decode_setPf (v : Bool) : (e.setPf v).decode = { e.decode with pf := v } := by
  have hbyte : (e.setPf v).parityByte = (boolU32 (!v)).setWidth 8 := by
    apply eq_of_getLsbD_eq
    intro i hi
    interval_cases i <;> simp [parityByte, setPf, lfMaskPdb]
  have hpf : evenParity ((boolU32 (!v)).setWidth 8) = v := by cases v <;> decide
  rw [decode, hbyte, hpf]
  simp [setPf, boolU32_getElem, lfMaskPdb, aux32, decode]

/-- Asserting ZF keeps the other flags: sign and parity move into their deltas. -/
theorem decode_setZf_true : (e.setZf true).decode = { e.decode with zf := true } := by
  have hbyte : (e.setZf true).parityByte = e.parityByte := by
    apply eq_of_getLsbD_eq
    intro i hi
    interval_cases i <;> simp [parityByte, setZf, Bool.xor_comm]
  rw [decode_of_byte hbyte]
  simp [setZf, decode, Bool.xor_comm]

/-- Clearing ZF sets a bit of the result that no other flag reads. -/
theorem decode_setZf_false : (e.setZf false).decode = { e.decode with zf := false } := by
  have hbyte : (e.setZf false).parityByte = e.parityByte := by
    refine parityByte_congr ?_ fun i _ => rfl
    apply eq_of_getLsbD_eq
    intro i hi
    interval_cases i <;> simp [setZf]
  rw [decode_of_byte hbyte]
  simp [decode, setZf]

theorem decode_setZf (v : Bool) : (e.setZf v).decode = { e.decode with zf := v } := by
  cases v with
  | true => exact decode_setZf_true e
  | false => exact decode_setZf_false e

end LazyFlags

/-! ## Sums, differences and bitwise results -/

namespace Flags

variable {size : Width}

theorem addCoutVec_getLsbD {i : Nat} (hi : i < size.bits) (op1 op2 : BitVec size.bits) (c : Bool) :
    (addCoutVec (op1.setWidth 64) (op2.setWidth 64) ((op1 + op2 + carryIn _ c).setWidth 64)).getLsbD i
      = carry (i + 1) op1 op2 c := by
  have hle := bits_le size
  rw [← addCarries_getLsbD hi]
  simp only [addCoutVec, addCarries, getLsbD_or, getLsbD_and, getLsbD_not,
    getLsbD_setWidth, hi, show i < 64 by omega, decide_true, Bool.true_and]

theorem subCoutVec_getLsbD {i : Nat} (hi : i < size.bits) (op1 op2 : BitVec size.bits) (c : Bool) :
    (subCoutVec (op1.setWidth 64) (op2.setWidth 64) ((op1 - op2 - carryIn _ c).setWidth 64)).getLsbD i
      = borrow (i + 1) op1 op2 c := by
  have hle := bits_le size
  rw [← subBorrows_getLsbD hi]
  simp only [subCoutVec, subBorrows, getLsbD_or, getLsbD_and, getLsbD_xor,
    getLsbD_not, getLsbD_setWidth, hi, show i < 64 by omega, decide_true,
    Bool.true_and]

/-- The flags in terms of the carry out of each bit. -/
theorem ofCarries_eq {carries : BitVec 64} (carry : Nat → Bool)
    (h : ∀ i < size.bits, carries.getLsbD i = carry (i + 1)) (result : BitVec size.bits) :
    ofCarries size carries (result.setWidth 64) =
      ⟨carry size.bits ^^ carry (size.bits - 1), result.msb, result = 0, carry 4,
        evenParity (result.setWidth 8), carry size.bits⟩ := by
  have h8 := le_bits size
  have htop := h (size.bits - 1) (by omega)
  have hnext := h (size.bits - 2) (by omega)
  rw [show size.bits - 1 + 1 = size.bits by omega] at htop
  rw [show size.bits - 2 + 1 = size.bits - 1 by omega] at hnext
  rw [ofCarries, htop, hnext, h 3 (by omega)]
  simp only [setWidth_setWidth_of_le result (bits_le size), setWidth_eq,
    setWidth_setWidth_of_le result (show 8 ≤ 64 by decide)]

theorem ofCarries_add (op1 op2 : BitVec size.bits) (c : Bool) :
    ofCarries size
      (addCoutVec (op1.setWidth 64) (op2.setWidth 64) ((op1 + op2 + carryIn _ c).setWidth 64))
      ((op1 + op2 + carryIn _ c).setWidth 64) = ofAdd size op1 op2 c := by
  have h8 := le_bits size
  rw [ofCarries_eq (carry · op1 op2 c) fun i hi => addCoutVec_getLsbD hi op1 op2 c,
    (top_xor_top (by omega) op1 op2 c).1]
  simp only [carry, Nat.mod_eq_of_lt op1.isLt, Nat.mod_eq_of_lt op2.isLt]
  rfl

theorem ofCarries_sub (op1 op2 : BitVec size.bits) (c : Bool) :
    ofCarries size
      (subCoutVec (op1.setWidth 64) (op2.setWidth 64) ((op1 - op2 - carryIn _ c).setWidth 64))
      ((op1 - op2 - carryIn _ c).setWidth 64) = ofSub size op1 op2 c := by
  have h8 := le_bits size
  rw [ofCarries_eq (borrow · op1 op2 c) fun i hi => subCoutVec_getLsbD hi op1 op2 c,
    (top_xor_top (by omega) op1 op2 c).2]
  simp only [borrow, Nat.mod_eq_of_lt op1.isLt, Nat.mod_eq_of_lt op2.isLt]
  rfl

end Flags

/-! ## Sequences of updates -/

/-- What an instruction does to the flags. `c` is the carry or borrow that went into
the sum or difference. -/
inductive FlagUpdate
  | oszapc (size : Width) (carries result : BitVec 64)
  | oszap (size : Width) (carries result : BitVec 64)
  | logic (size : Width) (result : BitVec size.bits)
  | add (size : Width) (op1 op2 : BitVec size.bits) (c : Bool)
  | sub (size : Width) (op1 op2 : BitVec size.bits) (c : Bool)
  | addKeepCf (size : Width) (op1 op2 : BitVec size.bits) (c : Bool)
  | subKeepCf (size : Width) (op1 op2 : BitVec size.bits) (c : Bool)
  | setCf (v : Bool)
  | setPf (v : Bool)
  | setAf (v : Bool)
  | setZf (v : Bool)
  | setSf (v : Bool)
  | setOf (v : Bool)
  | setOfCf (of cf : Bool)

/-- The update as the source performs it. -/
def FlagUpdate.lazy (e : LazyFlags) : FlagUpdate → LazyFlags
  | .oszapc size carries result => e.setOszapc size carries result
  | .oszap size carries result => e.setOszap size carries result
  | .logic size result => e.setOszapcLogic size result
  | .add size op1 op2 c => e.setOszapcAdd size op1 op2 (op1 + op2 + carryIn _ c)
  | .sub size op1 op2 c => e.setOszapcSub size op1 op2 (op1 - op2 - carryIn _ c)
  | .addKeepCf size op1 op2 c => e.setOszapAdd size op1 op2 (op1 + op2 + carryIn _ c)
  | .subKeepCf size op1 op2 c => e.setOszapSub size op1 op2 (op1 - op2 - carryIn _ c)
  | .setCf v => e.setCf v
  | .setPf v => e.setPf v
  | .setAf v => e.setAf v
  | .setZf v => e.setZf v
  | .setSf v => e.setSf v
  | .setOf v => e.setOf v
  | .setOfCf of cf => e.setFlagsOxxxxC (boolU32 of) (boolU32 cf)

/-- The update on six stored Booleans. -/
def FlagUpdate.eager (f : Flags) : FlagUpdate → Flags
  | .oszapc size carries result => ofCarries size carries result
  | .oszap size carries result => (ofCarries size carries result).keepCf f
  | .logic size result => ofLogic size result
  | .add size op1 op2 c => ofAdd size op1 op2 c
  | .sub size op1 op2 c => ofSub size op1 op2 c
  | .addKeepCf size op1 op2 c => (ofAdd size op1 op2 c).keepCf f
  | .subKeepCf size op1 op2 c => (ofSub size op1 op2 c).keepCf f
  | .setCf v => { f with cf := v }
  | .setPf v => { f with pf := v }
  | .setAf v => { f with af := v }
  | .setZf v => { f with zf := v }
  | .setSf v => { f with sf := v }
  | .setOf v => { f with of := v }
  | .setOfCf of cf => { f with of := of, cf := cf }

/-- One update commutes with decoding. -/
theorem FlagUpdate.decode_lazy (u : FlagUpdate) (e : LazyFlags) :
    (u.lazy e).decode = u.eager e.decode := by
  cases u with
  | oszapc size carries result => exact decode_setOszapc size carries result e
  | oszap size carries result => exact decode_setOszap size carries result e
  | logic size result =>
    exact (decode_setOszapc size _ _ e).trans
      (ofCarries_eq (fun _ => false) (fun i _ => by simp) result)
  | add size op1 op2 c =>
    exact (decode_setOszapc size _ _ e).trans (ofCarries_add op1 op2 c)
  | sub size op1 op2 c =>
    exact (decode_setOszapc size _ _ e).trans (ofCarries_sub op1 op2 c)
  | addKeepCf size op1 op2 c =>
    exact (decode_setOszap size _ _ e).trans
      (congrArg (keepCf · e.decode) (ofCarries_add op1 op2 c))
  | subKeepCf size op1 op2 c =>
    exact (decode_setOszap size _ _ e).trans
      (congrArg (keepCf · e.decode) (ofCarries_sub op1 op2 c))
  | setCf v => exact decode_setCf e v
  | setPf v => exact decode_setPf e v
  | setAf v => exact decode_setAf e v
  | setZf v => exact decode_setZf e v
  | setSf v => exact decode_setSf e v
  | setOf v => exact decode_setOf e v
  | setOfCf of cf => exact decode_setFlagsOxxxxC e of cf

theorem decode_foldl_lazy (us : List FlagUpdate) (e : LazyFlags) :
    (us.foldl FlagUpdate.lazy e).decode = us.foldl FlagUpdate.eager e.decode := by
  induction us generalizing e with
  | nil => rfl
  | cons u us ih => rw [List.foldl_cons, List.foldl_cons, ih, u.decode_lazy]

/-- An entry that encodes the given flags: the zero entry with each flag set. -/
def LazyFlags.encode (f : Flags) : LazyFlags :=
  (((((⟨0, 0⟩ : LazyFlags).setZf f.zf).setPf f.pf).setAf f.af).setSf f.sf).setFlagsOxxxxC
    (boolU32 f.of) (boolU32 f.cf)

theorem LazyFlags.decode_encode (f : Flags) : (encode f).decode = f := by
  rw [encode, decode_setFlagsOxxxxC, decode_setSf, decode_setAf, decode_setPf, decode_setZf]

/-- Lazy flags refine eager flags: every six flags have an encoding, and after any
sequence of updates from any encoding the getters return, as 0 or 1, exactly the flags
an eager implementation holds. -/
theorem lazyFlags_refine_eager :
    (∀ f : Flags, ∃ e : LazyFlags, e.decode = f) ∧
    ∀ (e : LazyFlags) (us : List FlagUpdate),
      let e' := us.foldl FlagUpdate.lazy e
      let f' := us.foldl FlagUpdate.eager e.decode
      e'.getbOf = boolU32 f'.of ∧ e'.getbSf = boolU32 f'.sf ∧
      e'.getbZf = boolU32 f'.zf ∧ e'.getbAf = boolU32 f'.af ∧
      e'.getbPf = boolU32 f'.pf ∧ e'.getbCf = boolU32 f'.cf := by
  refine ⟨fun f => ⟨encode f, decode_encode f⟩, ?_⟩
  intro e us
  simp only [← decode_foldl_lazy us e]
  exact ⟨getbOf_eq _, getbSf_eq _, getbZf_eq _,
    getbAf_eq _, getbPf_eq _, getbCf_eq _⟩

end RustyBox
