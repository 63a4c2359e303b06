-- SUMMARY: Which register the destination of an EVEX instruction names when it is `vvvv`.
import RustyBox.Decoder.Locality

/-!
# EVEX destinations in `vvvv`

EVEX splits the number of the `vvvv` register over two bytes. As a source, in `src2`, it gets both
parts. As a destination it gets the low part only, so that the upper sixteen registers are never
named.
-/

namespace RustyBox

open Lib WindowReader

/-- The bytes that the loop of `fetch_decode64` takes for prefixes. -/
def isPrefix64 (b : BitVec 8) : Bool := (prefixStep64 ⟨0, 0, 0, 0⟩ b).isSome

theorem isSome_prefixStep64 (p : Prefixes) (b : BitVec 8) :
    (prefixStep64 p b).isSome = isPrefix64 b := by
  unfold isPrefix64 prefixStep64
  split_ifs <;> rfl

variable {T : OpcodeTables} {p q : Prefixes} {w : List (BitVec 8)} {b : BitVec 8} {pos pos' : Nat}
  {i i' : Instruction} {enc : Encoding} {mr : ModRm}

theorem next_eq_ok {e : DecodeError} (h : next e w pos = .ok (b, pos')) :
    w.drop pos = b :: w.drop pos' := by
  unfold next at h
  split at h
  next hb =>
    cases h
    exact List.drop_eq_getElem?_toList_append.trans (by rw [hb]; rfl)
  next => cases h

theorem prefixLoop_eq_ok {n : Nat}
    (h : prefixLoop prefixStep64 n p w pos = .ok ((q, b), pos')) :
    (w.drop pos).dropWhile isPrefix64 = b :: w.drop pos' := by
  induction n generalizing p pos with
  | zero => cases h
  | succ n ih =>
    obtain ⟨c, mid, hnext, h⟩ := bind_eq_ok.mp h
    have hc := isSome_prefixStep64 p c
    rw [next_eq_ok hnext, List.dropWhile_cons, ← hc]
    cases hstep : prefixStep64 p c with
    | some p' =>
      rw [hstep] at h
      exact ih h
    | none =>
      rw [hstep] at h
      cases h
      rfl

theorem ofExcept_eq_ok {ε β α : Type} {r : Except ε α} {w : List β} {pos pos' : Nat} {a : α}
    (h : ofExcept r w pos = .ok (a, pos')) : r = .ok a := by
  cases r with
  | ok a => cases h; rfl
  | error e => cases h

theorem evexMap_eq_ok {enc' : Encoding} {map opcode : BitVec 8}
    (h : evexMap enc map opcode = .ok enc') : ∃ b1 opcodeMap, enc' = { enc with b1, opcodeMap } := by
  unfold evexMap at h
  split_ifs at h <;> cases h <;> exact ⟨_, _, rfl⟩

theorem evex64_eq_ok {p0 p1 p2 : BitVec 8} {rest : List (BitVec 8)}
    (h : evex64 p w pos = .ok (enc, pos')) (hw : w.drop pos = p0 :: p1 :: p2 :: rest) :
    enc.isVex ∧ enc.isEvex ∧ enc.vexVvv = 15#8 - (p1 >>> 3 &&& 0xF#8) ∧
      enc.evexVPrime = inverted p2 0x08 0x01 := by
  unfold evex64 at h
  split at h
  · cases h
  · obtain ⟨b0, _, h0, h⟩ := bind_eq_ok.mp h
    obtain ⟨b1, _, h1, h⟩ := bind_eq_ok.mp h
    obtain ⟨b2, _, h2, h⟩ := bind_eq_ok.mp h
    obtain ⟨opcode, _, _, h⟩ := bind_eq_ok.mp h
    rw [next_eq_ok h0, next_eq_ok h1, next_eq_ok h2] at hw
    obtain ⟨rfl, rfl, rfl, -⟩ : b0 = p0 ∧ b1 = p1 ∧ b2 = p2 ∧ _ := by simpa using hw
    have h := ofExcept_eq_ok h
    unfold evexEncoding64 at h
    split at h
    · cases h
    · obtain ⟨enc', hmap, h⟩ := Lib.bind_eq_ok.mp h
      split at h <;> cases h
      obtain ⟨_, _, rfl⟩ := evexMap_eq_ok hmap
      exact ⟨rfl, rfl, rfl, rfl⟩

theorem operands_finishEvex (hevex : enc.isEvex) (h : finishEvex T true enc mr i = .ok i') :
    i'.operands.src2 = i.operands.src2 ∧
      (T.evexDst i'.opcode = .vvvv → i'.operands.dst = enc.vexVvv) := by
  rw [finishEvex, if_pos hevex] at h
  obtain ⟨_, _, h⟩ := Lib.bind_eq_ok.mp h
  obtain ⟨_, _, h⟩ := Lib.bind_eq_ok.mp h
  cases h
  refine ⟨rfl, fun hdst => ?_⟩
  dsimp only [evexOperands] at hdst ⊢
  rw [hdst]

theorem operands_checkLock (h : checkLock true mr i = .ok i') :
    i'.opcode = i.opcode ∧ i'.operands.src2 = i.operands.src2 ∧
      (¬ isMovCr0 true i.opcode → i'.operands.dst = i.operands.dst) := by
  unfold checkLock at h
  split_ifs at h with hlock hmov <;> cases h
  · exact ⟨rfl, rfl, fun h => absurd hmov h⟩
  · exact ⟨rfl, rfl, fun _ => rfl⟩

theorem operands_resolve {dst src1 suffix : BitVec 8} {imm disp : BitVec 32} {length : Nat}
    (h : resolve T true enc mr dst src1 suffix imm disp length = .ok i) (hvex : enc.isVex)
    (hevex : enc.isEvex) :
    i.operands.src2 = enc.vexVvv ||| (enc.evexVPrime <<< 4) ∧
      (T.evexDst i.opcode = .vvvv → ¬ isMovCr0 true i.opcode → i.operands.dst = enc.vexVvv) := by
  obtain ⟨i₁, h₁, h⟩ := Lib.bind_eq_ok.mp h
  obtain ⟨i₂, h₂, h⟩ := Lib.bind_eq_ok.mp h
  obtain ⟨_, _, h⟩ := Lib.bind_eq_ok.mp h
  obtain ⟨_, _, h⟩ := Lib.bind_eq_ok.mp h
  obtain ⟨hsrc2, hdst⟩ := operands_finishEvex hevex h₁
  rw [finishVex, if_neg (by simp [hevex])] at h₂
  cases h₂
  obtain ⟨hopcode, hlock2, hlock⟩ := operands_checkLock h
  rw [hopcode, hlock2]
  exact ⟨hsrc2.trans (if_pos hvex), fun hvvvv hmov => (hlock hmov).trans (hdst hvvvv)⟩

theorem operands_afterOpcode64 (h : afterOpcode64 T p enc w pos = .ok (i, pos'))
    (hvex : enc.isVex) (hevex : enc.isEvex) :
    i.operands.src2 = enc.vexVvv ||| (enc.evexVPrime <<< 4) ∧
      (T.evexDst i.opcode = .vvvv → ¬ isMovCr0 true i.opcode → i.operands.dst = enc.vexVvv) := by
  by_cases hud : isUd64 enc
  · rw [afterOpcode64, if_pos hud] at h
    cases h
  · rw [afterOpcode64, if_neg hud] at h
    iterate 6 obtain ⟨_, _, _, h⟩ := bind_eq_ok.mp h
    exact operands_resolve (ofExcept_eq_ok h) hvex hevex

/-- The two parts of the number of the `vvvv` register, put together. -/
theorem vvvv_register (p1 p2 : BitVec 8) :
    (15#8 - (p1 >>> 3 &&& 0xF#8) ||| inverted p2 0x08 0x01 <<< 4).toNat =
        15 - (p1 >>> 3 &&& 0xF#8).toNat + 16 * (1 - (p2 >>> 3 &&& 1#8).toNat) ∧
      (15#8 - (p1 >>> 3 &&& 0xF#8) = 15#8 - (p1 >>> 3 &&& 0xF#8) ||| inverted p2 0x08 0x01 <<< 4 ↔
        p2 >>> 3 &&& 1#8 = 1#8) := by
  have hlow : ∀ p1 : BitVec 8, ∃ low : BitVec 4, 15#8 - (p1 >>> 3 &&& 0xF#8) = low.setWidth 8 ∧
      15 - (p1 >>> 3 &&& 0xF#8).toNat = low.toNat := by decide
  have hbit : ∀ p2 : BitVec 8, inverted p2 0x08 0x01 = 1#8 ∧ p2 >>> 3 &&& 1#8 = 0#8 ∨
      inverted p2 0x08 0x01 = 0#8 ∧ p2 >>> 3 &&& 1#8 = 1#8 := by decide
  obtain ⟨low, hregister, hnumber⟩ := hlow p1
  rw [hregister, hnumber]
  clear hregister hnumber
  rcases hbit p2 with ⟨hv, hp2⟩ | ⟨hv, hp2⟩ <;> rw [hv, hp2] <;> revert low <;> decide

theorem evex_vvvv_dst_iff (T : OpcodeTables) {bytes rest : List (BitVec 8)} {p0 p1 p2 : BitVec 8}
    (hbytes : (bytes.take 15).dropWhile isPrefix64 = 0x62#8 :: p0 :: p1 :: p2 :: rest)
    (h : fetchDecode T .long64 bytes = .ok i) (hvvvv : T.evexDst i.opcode = .vvvv)
    (hmov : ¬ isMovCr0 true i.opcode) :
    i.operands.src2.toNat = 15 - (p1 >>> 3 &&& 0xF#8).toNat + 16 * (1 - (p2 >>> 3 &&& 1#8).toNat) ∧
      (i.operands.dst = i.operands.src2 ↔ p2 >>> 3 &&& 1#8 = 1#8) := by
  obtain ⟨⟨p, b⟩, pos, hloop, hafter⟩ := bind_eq_ok.mp (fetchDecode_eq_ok.mp h)
  obtain ⟨enc, mid, hopcode, hafter'⟩ := bind_eq_ok.mp hafter
  have hstop := prefixLoop_eq_ok hloop
  rw [List.drop_zero, hbytes] at hstop
  obtain ⟨rfl, hrest⟩ := List.cons.inj hstop
  obtain ⟨hvex, hevex, hvvv, hprime⟩ := evex64_eq_ok (p := applyRex p) hopcode hrest.symm
  obtain ⟨hsrc2, hdst⟩ := operands_afterOpcode64 hafter' hvex hevex
  rw [hdst hvvvv hmov, hsrc2, hvvv, hprime]
  exact vvvv_register p1 p2

/-- The entry of EVEX 0F 72 /2, VPSRLD by an immediate without a mask, and no other opcode. -/
def vpsrldTables : OpcodeTables :=
  { popTables with
    evexTable := List.replicate 0x72 [] ++
      [[formOpcode (attr 1 3 18 ||| attr 0 1 9 ||| attr 2 7 0 ||| attr 1 1 8) 2539]]
    evexDst := fun opcode => if opcode = 2539 then .vvvv else .nnn }

/-- VPSRLD zmm16, zmm0, 1 is decoded with zmm0 as its destination. -/
theorem vpsrld_zmm16_writes_zmm0 :
    fetchDecode vpsrldTables .long64 [0x62#8, 0xF1#8, 0x7D#8, 0x40#8, 0x72#8, 0xD0#8, 0x01#8] =
        .ok ⟨2539, 7, 0x17, ⟨0, 0, 16, 0, 3, 0, 0, 0⟩, 0x00620201, 0⟩ ∧
      vpsrldTables.evexDst 2539 = .vvvv := by
  decide +kernel

-- VPSRLD zmm0, zmm0, 1.
theorem vpsrld_zmm0_decodes :
    ∃ i, fetchDecode vpsrldTables .long64
        [0x62#8, 0xF1#8, 0x7D#8, 0x48#8, 0x72#8, 0xD0#8, 0x01#8] = .ok i ∧
      vpsrldTables.evexDst i.opcode = .vvvv ∧ i.operands.dst = i.operands.src2 := by
  have hi : fetchDecode vpsrldTables .long64
      [0x62#8, 0xF1#8, 0x7D#8, 0x48#8, 0x72#8, 0xD0#8, 0x01#8] =
        .ok ⟨2539, 7, 0x17, ⟨0, 0, 0, 0, 3, 0, 0, 0⟩, 0x00220201, 0⟩ := by decide +kernel
  have hdst := evex_vvvv_dst_iff vpsrldTables rfl hi rfl (by decide)
  exact ⟨_, hi, rfl, hdst.2.mpr rfl⟩

end RustyBox
