-- SUMMARY: The AES rounds, and that decryption gives back what was encrypted.
import Mathlib.Data.BitVec

/-!
# AES

The AES instructions (`aes.rs`) on the bytes of their operands. A decryption round undoes a round of
encryption between the substitution of one round and of the next, with the key mixed as well.
-/

namespace RustyBox.Aes

open BitVec List

/-- Sixteen bytes of an XMM register; `AES_STATE(s, a, b)`, byte `4 * b + a`, is `s b a`. -/
abbrev Block := Fin 4 → Fin 4 → BitVec 8

/-- `SBOX_TRANSFORMATION`, sixteen entries a row. -/
def sboxTransformation : List (BitVec 128) :=
  [0x637c777bf26b6fc53001672bfed7ab76, 0xca82c97dfa5947f0add4a2af9ca472c0,
   0xb7fd9326363ff7cc34a5e5f171d83115, 0x04c723c31896059a071280e2eb27b275,
   0x09832c1a1b6e5aa0523bd6b329e32f84, 0x53d100ed20fcb15b6acbbe394a4c58cf,
   0xd0efaafb434d338545f9027f503c9fa8, 0x51a3408f929d38f5bcb6da2110fff3d2,
   0xcd0c13ec5f974417c4a77e3d645d1973, 0x60814fdc222a908846eeb814de5e0bdb,
   0xe0323a0a4906245cc2d3ac629195e479, 0xe7c8376d8dd54ea96c56f4ea657aae08,
   0xba78252e1ca6b4c6e8dd741f4bbd8b8a, 0x703eb5664803f60e613557b986c11d9e,
   0xe1f8981169d98e949b1e87e9ce5528df, 0x8ca1890dbfe6426841992d0fb054bb16]

/-- `INVERSE_SBOX_TRANSFORMATION`. -/
def inverseSboxTransformation : List (BitVec 128) :=
  [0x52096ad53036a538bf40a39e81f3d7fb, 0x7ce339829b2fff87348e4344c4dee9cb,
   0x547b9432a6c2233dee4c950b42fac34e, 0x082ea16628d924b2765ba2496d8bd125,
   0x72f8f66486689816d4a45ccc5d65b692, 0x6c704850fdedb9da5e154657a78d9d84,
   0x90d8ab008cbcd30af7e45805b8b34506, 0xd02c1e8fca3f0f02c1afbd0301138a6b,
   0x3a9111414f67dcea97f2cfcef0b4e673, 0x96ac7422e7ad3585e2f937e81c75df6e,
   0x47f11a711d29c5896fb7620eaa18be1b, 0xfc563e4bc6d279209adbc0fe78cd5af4,
   0x1fdda8338807c731b11210592780ec5f, 0x60517fa919b54a0d2de57a9f93c99cef,
   0xa0e03b4dae2af5b0c8ebbb3c83539961, 0x172b047eba77d626e169146355210c7d]

def entry (table : List (BitVec 128)) (b : BitVec 8) : BitVec 8 :=
  (table.getD (b.toNat / 16) 0).extractLsb' (8 * (15 - b.toNat % 16)) 8

/-- Row `a` rotated left by `a`: byte 1 is taken from byte 5, byte 2 from 10, byte 3 from 15. -/
def aesShiftRows (s : Block) : Block := fun b a => s (b + a) a

def aesInverseShiftRows (s : Block) : Block := fun b a => s (b - a) a

def aesSubstituteBytes (s : Block) : Block := fun b a => entry sboxTransformation (s b a)

def aesInverseSubstituteBytes (s : Block) : Block :=
  fun b a => entry inverseSboxTransformation (s b a)

/-- `a <<= 1; if a >= 256 { a ^= m }`. -/
def gfDouble (a : BitVec 32) : BitVec 32 :=
  if 256#32 ≤ a <<< 1 then a <<< 1 ^^^ 0x11b#32 else a <<< 1

/-- `while b != 0`; after 32 turns no bit of `b` is left. -/
def gfMulLoop : Nat → BitVec 32 → BitVec 32 → BitVec 32 → BitVec 32
  | 0, _, _, res => res
  | n + 1, a, b, res =>
    if b = 0#32 then res
    else gfMulLoop n (gfDouble a) (b >>> 1) (if b &&& 1#32 ≠ 0#32 then res ^^^ a else res)

def gfMul (a b : BitVec 32) : BitVec 32 := gfMulLoop 32 a b 0#32

/-- The byte `k` rows below, as `u32`. -/
def Block.below (s : Block) (b a k : Fin 4) : BitVec 32 := (s b (a + k)).setWidth 32

def aesMixColumns (s : Block) : Block := fun b a =>
  (gfMul 2 (s.below b a 0) ^^^ gfMul 3 (s.below b a 1) ^^^ s.below b a 2 ^^^
    s.below b a 3).setWidth 8

def aesInverseMixColumns (s : Block) : Block := fun b a =>
  (gfMul 0xE (s.below b a 0) ^^^ gfMul 0xB (s.below b a 1) ^^^ gfMul 0xD (s.below b a 2) ^^^
    gfMul 0x9 (s.below b a 3)).setWidth 8

def xmmXorps (s key : Block) : Block := fun b a => s b a ^^^ key b a

def aesimcVdqWdq (op : Block) : Block := aesInverseMixColumns op

def aesencVdqWdq (state key : Block) : Block :=
  xmmXorps (aesMixColumns (aesSubstituteBytes (aesShiftRows state))) key

def aesenclastVdqWdq (state key : Block) : Block :=
  xmmXorps (aesSubstituteBytes (aesShiftRows state)) key

def aesdecVdqWdq (state key : Block) : Block :=
  xmmXorps (aesInverseMixColumns (aesInverseSubstituteBytes (aesInverseShiftRows state))) key

def aesdeclastVdqWdq (state key : Block) : Block :=
  xmmXorps (aesInverseSubstituteBytes (aesInverseShiftRows state)) key

/-- A turn with no bit left changes nothing, so the test for it can be dropped. -/
theorem gfMulLoop_succ (n : Nat) (a b res : BitVec 32) : gfMulLoop (n + 1) a b res =
    gfMulLoop n (gfDouble a) (b >>> 1) (if b &&& 1#32 ≠ 0#32 then res ^^^ a else res) := by
  rw [gfMulLoop]
  split
  case isTrue h =>
    subst h
    cases n <;> simp [gfMulLoop]
  case isFalse => rfl

theorem gfMulLoop_xor (n : Nat) (a x y r s : BitVec 32) :
    gfMulLoop n a (x ^^^ y) (r ^^^ s) = gfMulLoop n a x r ^^^ gfMulLoop n a y s := by
  induction n generalizing a x y r s with
  | zero => rfl
  | succ n ih =>
    have hcancel : r ^^^ a ^^^ (s ^^^ a) = r ^^^ s ^^^ (a ^^^ a) := by ac_rfl
    simp only [gfMulLoop_succ, ushiftRight_xor_distrib, ← ih, and_one_eq_setWidth_ofBool_getLsbD,
      getLsbD_xor]
    congr 1
    cases x.getLsbD 0 <;> cases y.getLsbD 0 <;> simp [hcancel] <;> ac_rfl

/-- `gf_mul` of a byte, cut to a byte. -/
def byteMul (c : BitVec 32) (x : BitVec 8) : BitVec 8 := (gfMul c (x.setWidth 32)).setWidth 8

theorem byteMul_xor (c : BitVec 32) (x y : BitVec 8) :
    byteMul c (x ^^^ y) = byteMul c x ^^^ byteMul c y := by
  have h := gfMulLoop_xor 32 c (x.setWidth 32) (y.setWidth 32) 0#32 0#32
  rw [BitVec.xor_self] at h
  rw [byteMul, setWidth_xor, gfMul, h, setWidth_xor]
  rfl

theorem mixColumns_apply (s : Block) (b a : Fin 4) :
    aesMixColumns s b a =
      byteMul 2 (s b a) ^^^ byteMul 3 (s b (a + 1)) ^^^ s b (a + 2) ^^^ s b (a + 3) := by
  simp [aesMixColumns, Block.below, byteMul]

theorem inverseMixColumns_apply (s : Block) (b a : Fin 4) :
    aesInverseMixColumns s b a = byteMul 0xE (s b a) ^^^ byteMul 0xB (s b (a + 1)) ^^^
      byteMul 0xD (s b (a + 2)) ^^^ byteMul 0x9 (s b (a + 3)) := by
  simp [aesInverseMixColumns, Block.below, byteMul]

theorem inverseMixColumns_xor (s t : Block) :
    aesInverseMixColumns (xmmXorps s t) =
      xmmXorps (aesInverseMixColumns s) (aesInverseMixColumns t) := by
  funext b a
  simp only [xmmXorps, inverseMixColumns_apply, byteMul_xor]
  ac_rfl

/-- What the byte itself and each of the three below it contribute to a byte mixed and mixed
back. -/
theorem byteMul_mixed : ∀ x : BitVec 8,
    byteMul 0xE (byteMul 2 x) ^^^ byteMul 0xB x ^^^ byteMul 0xD x ^^^ byteMul 9 (byteMul 3 x) = x ∧
    byteMul 0xE (byteMul 3 x) ^^^ byteMul 0xB (byteMul 2 x) ^^^ byteMul 0xD x ^^^ byteMul 9 x = 0 ∧
    byteMul 0xE x ^^^ byteMul 0xB (byteMul 3 x) ^^^ byteMul 0xD (byteMul 2 x) ^^^ byteMul 9 x = 0 ∧
    byteMul 0xE x ^^^ byteMul 0xB x ^^^ byteMul 0xD (byteMul 3 x) ^^^ byteMul 9 (byteMul 2 x) =
      0 := by
  decide +kernel

theorem inverseMixColumns_mixColumns (s : Block) :
    aesInverseMixColumns (aesMixColumns s) = s := by
  funext b a
  simp only [inverseMixColumns_apply, mixColumns_apply, byteMul_xor, add_assoc,
    Fin.reduceAdd, add_zero]
  obtain ⟨h0, -⟩ := byteMul_mixed (s b a)
  obtain ⟨-, h1, -⟩ := byteMul_mixed (s b (a + 1))
  obtain ⟨-, -, h2, -⟩ := byteMul_mixed (s b (a + 2))
  obtain ⟨-, -, -, h3⟩ := byteMul_mixed (s b (a + 3))
  have hsum := congrArg₂ (· ^^^ ·) (congrArg₂ (· ^^^ ·) h0 h1) (congrArg₂ (· ^^^ ·) h2 h3)
  refine .trans ?_ (hsum.trans (by simp))
  ac_rfl

theorem inverseRound_round (s : Block) : aesInverseSubstituteBytes (aesInverseShiftRows
    (aesSubstituteBytes (aesShiftRows s))) = s := by
  have hentry : ∀ x, entry inverseSboxTransformation (entry sboxTransformation x) = x := by
    decide +kernel
  have hcolumn : ∀ b a : Fin 4, b - a + a = b := by decide
  funext b a
  simp only [aesInverseSubstituteBytes, aesInverseShiftRows, aesSubstituteBytes, aesShiftRows,
    hentry, hcolumn]

theorem xmmXorps_xmmXorps (s key : Block) : xmmXorps (xmmXorps s key) key = s := by
  funext b a
  rw [xmmXorps, xmmXorps, BitVec.xor_assoc, BitVec.xor_self, BitVec.xor_zero]

/-- The decryption of one round, from the substitution after it to the one before it. -/
theorem aesdec_aesenc (s key : Block) :
    aesdecVdqWdq (aesSubstituteBytes (aesShiftRows (aesencVdqWdq s key))) (aesimcVdqWdq key) =
      aesSubstituteBytes (aesShiftRows s) := by
  rw [aesdecVdqWdq, inverseRound_round, aesimcVdqWdq, ← inverseMixColumns_xor, aesencVdqWdq,
    xmmXorps_xmmXorps, inverseMixColumns_mixColumns]

theorem aesdec_rounds (s : Block) (keys : List Block) :
    (keys.reverse.map aesimcVdqWdq).foldl aesdecVdqWdq
        (aesSubstituteBytes (aesShiftRows (keys.foldl aesencVdqWdq s))) =
      aesSubstituteBytes (aesShiftRows s) := by
  induction keys using reverseRecOn with
  | nil => rfl
  | append_singleton keys key ih =>
    rw [List.reverse_append, foldl_append]
    simp only [reverse_singleton, singleton_append, map_cons, foldl_cons, foldl_nil, aesdec_aesenc,
      ih]

/-- Decryption with the round keys of the encryption, those of the middle rounds mixed, gives
back the block. -/
theorem aes_decrypts (block k₀ kₙ : Block) (keys : List Block) :
    let cipher := aesenclastVdqWdq (keys.foldl aesencVdqWdq (xmmXorps block k₀)) kₙ
    aesdeclastVdqWdq ((keys.reverse.map aesimcVdqWdq).foldl aesdecVdqWdq (xmmXorps cipher kₙ)) k₀ =
      block := by
  simp only [aesenclastVdqWdq, aesdeclastVdqWdq, xmmXorps_xmmXorps, aesdec_rounds,
    inverseRound_round]

end RustyBox.Aes
