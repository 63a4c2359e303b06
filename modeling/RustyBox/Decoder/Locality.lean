-- SUMMARY: A decoded instruction depends on its own bytes only.
import RustyBox.Decoder.FetchDecode

/-!
# Decoding is local

Every phase of the decoders is a stable reader of the fifteen-byte window, so what they
return depends on the bytes they consumed and on nothing behind them. Three opcodes look one
byte ahead to tell encodings apart: C4 and C5 (LES, LDS or VEX), 62 (BOUND or EVEX) and 8F
(POP or XOP). That byte is the ModRM byte or the first byte of the prefix, so the decoder
goes on to consume it, and without it the decoder stops for lack of a ModRM byte.
-/

namespace RustyBox

open Lib WindowReader List

variable {T : OpcodeTables} {p : Prefixes}

abbrev Local {α : Type} (x : DecodeM α) : Prop := Stable DecodeError.IsUnderflow x

/-! ## Fields -/

variable {e : DecodeError} (enc : Encoding) (is64 : Bool) (modField : BitVec 8)

theorem local_readU16Le (he : e.IsUnderflow) : Local (readU16Le e) :=
  .bind (.next he) fun _ => .bind (.next he) fun _ => .pure _

theorem local_readU32Le (he : e.IsUnderflow) : Local (readU32Le e) :=
  .bind (.next he) fun _ => .bind (.next he) fun _ => .bind (.next he) fun _ =>
    .bind (.next he) fun _ => .pure _

theorem local_prefixLoop (step : Prefixes → BitVec 8 → Option Prefixes) (n : Nat) (p : Prefixes) :
    Local (prefixLoop step n p) := by
  induction n generalizing p with
  | zero => exact .fail _
  | succ n ih =>
    refine .bind (.next trivial) fun b => ?_
    cases step p b with
    | some q => exact ih q
    | none => exact .pure _

/-! ## Opcodes -/

theorem local_vex64 (b : BitVec 8) : Local (vex64 p b) := by
  refine .ite (fun _ => .fail _) fun _ => .bind (.next trivial) fun v1 => .ite (fun _ => ?_) fun _ => ?_
  · exact .bind (.next trivial) fun _ => .bind (.next trivial) fun _ => .ofExcept _
  · exact .bind (.next trivial) fun _ => .ofExcept _

theorem local_vex32 (b : BitVec 8) : Local (vex32 p b) := by
  refine .ite (fun _ => .fail _) fun _ => .bind (.next trivial) fun v1 => .ite (fun _ => ?_) fun _ => ?_
  · exact .bind (.next trivial) fun _ => .bind (.next trivial) fun _ => .ofExcept _
  · exact .bind (.next trivial) fun _ => .ofExcept _

theorem local_evexBytes
    (encoding : BitVec 8 → BitVec 8 → BitVec 8 → BitVec 8 → Except DecodeError Encoding) :
    Local (evexBytes encoding) :=
  .bind (.next trivial) fun _ => .bind (.next trivial) fun _ => .bind (.next trivial) fun _ =>
    .bind (.next trivial) fun _ => .ofExcept _

theorem local_evex64 : Local (evex64 p) := .ite (fun _ => .fail _) fun _ => local_evexBytes _

theorem local_evex32 : Local (evex32 p) := .ite (fun _ => .fail _) fun _ => local_evexBytes _

theorem local_escape0F : Local (escape0F p) := by
  refine .bind (.next trivial) fun b2 => ?_
  iterate 2 refine .ite (fun _ => .bind (.next trivial) fun _ => .pure _) fun _ => ?_
  exact .ite (fun _ => .pure _) fun _ => .pure _

/-! ## ModRM, suffix and immediate -/

theorem local_disp16 : Local disp16 := .bind (local_readU16Le trivial) fun _ => .pure _

theorem local_modDisplacement {wide : DecodeM (BitVec 32)} (hw : Local wide)
    (a : Address) : Local (modDisplacement modField wide a) :=
  .ite (fun _ => .bind (.next trivial) fun _ => .pure _) fun _ =>
    .ite (fun _ => .bind hw fun _ => .pure _) fun _ => .pure _

theorem local_address32 (rex modField : BitVec 8) (rm : BitVec 32) (absolute : BitVec 8) :
    Local (address32 rex modField rm absolute) := by
  have h32 : Local disp32 := local_readU32Le trivial
  refine .ite (fun _ => .bind (.next trivial) fun sib => ?_) fun _ => ?_
  iterate 2 exact .ite (fun _ => .bind h32 fun _ => .pure _) fun _ => local_modDisplacement _ h32 _

theorem local_address16 (rm : BitVec 32) : Local (address16 modField rm) :=
  .ite (fun _ => .bind local_disp16 fun _ => .pure _) fun _ =>
    local_modDisplacement _ local_disp16 _

theorem local_readImmediate (enc : Encoding) (size : Nat) (ibIb2 : Bool)
    (imm disp : BitVec 32) : Local (readImmediate is64 enc size ibIb2 imm disp) := by
  have h8 : Local immByteNext := .next trivial
  have h16 : Local immU16 := .bind (local_readU16Le trivial) fun _ => .pure _
  have h32 : Local immU32 := local_readU32Le trivial
  refine .ite (fun _ => .bind h8 fun _ => .bind h8 fun _ => .pure _) fun _ => ?_
  refine .ite (fun _ => .bind h8 fun _ => .pure _) fun _ => ?_
  refine .ite (fun _ => .bind h16 fun _ => .pure _) fun _ => ?_
  refine .ite (fun _ => .bind h16 fun _ => .bind h8 fun _ => .pure _) fun _ => ?_
  refine .ite (fun _ => .ite (fun _ => .bind h16 fun _ => .bind h16 fun _ => .pure _) fun _ =>
    .bind h32 fun _ => .pure _) fun _ => ?_
  refine .ite (fun _ => .bind h32 fun _ => .bind h16 fun _ => .pure _) fun _ => ?_
  exact .ite (fun _ => .bind h32 fun _ => .bind h32 fun _ => .pure _) fun _ => .pure _

theorem local_afterModRm (enc : Encoding) (mr : ModRm) (size : Nat) :
    Local (afterModRm T is64 enc mr size) := by
  refine .bind (.ofExcept _) fun _ => .bind (.ofExcept _) fun _ => ?_
  have hsuffix : Local (readSuffix enc) := .ite (fun _ => .next trivial) fun _ => .pure _
  refine .bind hsuffix fun _ => .bind (local_readImmediate _ _ _ _ _ _) fun _ => ?_
  exact .bind .position fun _ => .ofExcept _

/-- What follows the ModRM byte in `fetch_decode64`. -/
theorem local_modRm64 : Local (modRm64 p enc) := by
  refine .ite (fun _ => .bind (.next trivial) fun byte => .ite (fun _ => .pure _) fun _ => ?_)
    fun _ => .pure _
  exact .bind (local_address32 _ _ _ _) fun _ => .pure _

theorem local_addressUnless (registerForm : Prop) [Decidable registerForm] (as32 : Bool)
    (modField : BitVec 8) (rm : BitVec 32) :
    Local (addressUnless registerForm (addressLegacy as32 modField rm)) :=
  .ite (fun _ => .pure _) fun _ =>
    .ite (fun _ => local_address32 _ _ _ _) fun _ => local_address16 _ _

theorem local_modRm32 : Local (modRm32 p enc) := by
  refine .ite (fun _ => .bind (.next trivial) fun byte => ?_) fun _ => .pure _
  exact .bind (local_addressUnless _ _ _ _) fun _ => .pure _

theorem local_afterOpcode64 : Local (afterOpcode64 T p enc) :=
  .ite (fun _ => .fail _) fun _ => .bind (local_modRm64 enc) fun _ => local_afterModRm _ _ _ _

theorem local_afterOpcode32 : Local (afterOpcode32 T p enc) :=
  .bind (local_modRm32 enc) fun _ => local_afterModRm _ _ _ _

/-! ## Looking ahead -/

/-- What follows an opcode with ModRM begins with the ModRM byte. -/
def StartsWithModRm (x : DecodeM Instruction) : Prop :=
  ∃ f : BitVec 8 → DecodeM Instruction, x = next .modRmBufferUnderflow >>= f ∧ ∀ b, Local (f b)

theorem startsWithModRm_afterOpcode64 {enc : Encoding} (hud : isUd64 enc = false)
    (hmodrm : opcodeNeedsModrm true enc.b1 enc.opcodeMap = true) :
    StartsWithModRm (afterOpcode64 T p enc) := by
  unfold afterOpcode64 modRm64
  rw [hud, hmodrm]
  refine ⟨_, bind_assoc _ _ _, fun b => .bind ?_ fun _ => local_afterModRm _ _ _ _⟩
  exact .ite (fun _ => .pure _) fun _ => .bind (local_address32 _ _ _ _) fun _ => .pure _

theorem startsWithModRm_afterOpcode32 {enc : Encoding}
    (hmodrm : opcodeNeedsModrm false enc.b1 enc.opcodeMap = true) :
    StartsWithModRm (afterOpcode32 T p enc) := by
  unfold afterOpcode32 modRm32
  rw [hmodrm]
  refine ⟨_, bind_assoc _ _ _, fun b => .bind ?_ fun _ => local_afterModRm _ _ _ _⟩
  exact .bind (local_addressUnless _ _ _ _) fun _ => .pure _

/-- The look ahead chooses between an encoding that consumes the byte, or refuses it, and an
opcode with ModRM. -/
theorem local_lookAhead {mask : BitVec 8} {taken : DecodeM Encoding} {enc : Encoding}
    {after : Encoding → DecodeM Instruction} (htaken : Local taken)
    (hconsumes : Consumes taken) (hafter : ∀ enc, Local (after enc))
    (hmodrm : StartsWithModRm (after enc)) :
    Local ((peek >>= fun ahead => if followedBy mask ahead then taken else pure enc) >>= after) := by
  rw [bind_assoc]
  refine .peek_bind (fun b => .bind (.ite (fun _ => htaken) fun _ => .pure enc) hafter) ?_ ?_
  · intro b
    split
    · exact hconsumes.bind htaken hafter
    · obtain ⟨f, hf, hlocal⟩ := hmodrm
      have hshort : DecodeError.modRmBufferUnderflow.IsUnderflow := trivial
      rw [pure_bind, hf]
      exact .next_bind hshort hlocal
  · intro w pos hend
    obtain ⟨f, hf, _⟩ := hmodrm
    refine ⟨.modRmBufferUnderflow, trivial, ?_⟩
    show after enc w pos = _
    rw [hf]
    exact next_bind_at_end hend

theorem consumes_vex32 (b : BitVec 8) : Consumes (vex32 p b) := by
  have hshort : DecodeError.opcodeBufferUnderflow.IsUnderflow := trivial
  refine .ite (.fail _) (.next_bind hshort fun v1 => .ite (fun _ => ?_) fun _ => ?_)
  · exact .bind (.next hshort) fun _ => .bind (.next hshort) fun _ => .ofExcept _
  · exact .bind (.next hshort) fun _ => .ofExcept _

theorem consumes_evex32 : Consumes (evex32 p) := by
  have hshort : DecodeError.opcodeBufferUnderflow.IsUnderflow := trivial
  refine .ite (.fail _) (.next_bind hshort fun p0 => .bind (.next hshort) fun p1 => ?_)
  exact .bind (.next hshort) fun _ => .bind (.next hshort) fun _ => .ofExcept _

theorem local_opcode64 (b : BitVec 8) : Local (opcode64 p b >>= afterOpcode64 T p) := by
  unfold opcode64
  split
  · exact .bind (local_vex64 b) local_afterOpcode64
  split
  · exact .bind local_evex64 local_afterOpcode64
  split
  · exact local_lookAhead (.fail _) (.fail _) local_afterOpcode64
      (startsWithModRm_afterOpcode64 rfl rfl)
  split
  · exact .bind local_escape0F local_afterOpcode64
  · exact local_afterOpcode64 _

theorem local_opcode32 (b : BitVec 8) : Local (opcode32 p b >>= afterOpcode32 T p) := by
  unfold opcode32
  split
  next hb =>
    have hmodrm : opcodeNeedsModrm false (Encoding.legacy p b).b1 0 = true := by
      rcases hb with rfl | rfl <;> rfl
    exact local_lookAhead (local_vex32 b) (consumes_vex32 b) local_afterOpcode32
      (startsWithModRm_afterOpcode32 hmodrm)
  split
  · exact local_lookAhead local_evex32 consumes_evex32 local_afterOpcode32
      (startsWithModRm_afterOpcode32 rfl)
  split
  · exact local_lookAhead (.fail _) (.fail _) local_afterOpcode32
      (startsWithModRm_afterOpcode32 rfl)
  split
  · exact .bind local_escape0F local_afterOpcode32
  · exact local_afterOpcode32 _

/-! ## Lengths -/

/-- The instruction's length is the position where the reader stopped. -/
def MeasuresItself (x : DecodeM Instruction) : Prop :=
  ∀ ⦃w pos i pos'⦄, x w pos = .ok (i, pos') → i.length = BitVec.ofNat 8 pos'

theorem MeasuresItself.bind {α : Type} {x : DecodeM α} {f : α → DecodeM Instruction}
    (hf : ∀ a, MeasuresItself (f a)) : MeasuresItself (x >>= f) := by
  intro w pos i pos' h
  obtain ⟨a, mid, _, hfw⟩ := bind_eq_ok.mp h
  exact hf a hfw

variable {i i' : Instruction} {mr : ModRm}

theorem length_finishEvex {is64 : Bool} {enc : Encoding}
    (h : finishEvex T is64 enc mr i = .ok i') : i'.length = i.length := by
  unfold finishEvex at h
  split at h
  · obtain ⟨_, _, h⟩ := Lib.bind_eq_ok.mp h
    obtain ⟨_, _, h⟩ := Lib.bind_eq_ok.mp h
    cases h
    rfl
  · cases h
    rfl

theorem length_finishVex {enc : Encoding}
    (h : finishVex T enc mr i = .ok i') : i'.length = i.length := by
  unfold finishVex at h
  split at h
  · obtain ⟨_, _, h⟩ := Lib.bind_eq_ok.mp h
    obtain ⟨_, _, h⟩ := Lib.bind_eq_ok.mp h
    cases h
    rfl
  · cases h
    rfl

theorem length_checkLock {is64 : Bool}
    (h : checkLock is64 mr i = .ok i') : i'.length = i.length := by
  unfold checkLock at h
  split at h
  · split at h <;> cases h
    rfl
  · cases h
    rfl

theorem length_resolve {is64 : Bool} {enc : Encoding} {dst src1 suffix : BitVec 8}
    {imm disp : BitVec 32} {length : Nat}
    (h : resolve T is64 enc mr dst src1 suffix imm disp length = .ok i) :
    i.length = BitVec.ofNat 8 length := by
  obtain ⟨i₁, h₁, h⟩ := Lib.bind_eq_ok.mp h
  obtain ⟨i₂, h₂, h⟩ := Lib.bind_eq_ok.mp h
  obtain ⟨_, _, h⟩ := Lib.bind_eq_ok.mp h
  obtain ⟨_, _, h⟩ := Lib.bind_eq_ok.mp h
  have hlock := length_checkLock h
  exact hlock.trans ((length_finishVex h₂).trans (length_finishEvex h₁))

theorem measuresItself_afterModRm (enc : Encoding) (mr : ModRm) (size : Nat) :
    MeasuresItself (afterModRm T is64 enc mr size) := by
  refine .bind fun _ => .bind fun _ => .bind fun _ => .bind fun _ => ?_
  intro w pos i pos' h
  obtain ⟨length, mid, hpos, h⟩ := bind_eq_ok.mp h
  cases hpos
  cases hr : resolve T is64 enc mr _ _ _ _ _ pos with
  | error e =>
    rw [hr] at h
    exact nomatch h
  | ok i' =>
    rw [hr] at h
    cases h
    exact length_resolve hr

theorem measuresItself_decode64 : MeasuresItself (decode64 T) := by
  refine .bind fun _ => .bind fun enc => ?_
  intro w pos i pos' h
  unfold afterOpcode64 at h
  split at h
  · exact nomatch h
  · exact MeasuresItself.bind (fun _ => measuresItself_afterModRm _ _ _ _) h

theorem measuresItself_decode32 (is32 : Bool) : MeasuresItself (decode32 T is32) :=
  .bind fun _ => .bind fun _ => .bind fun _ => measuresItself_afterModRm _ _ _ _

/-! ## Whole instructions -/

theorem consumes_prefixLoop (step : Prefixes → BitVec 8 → Option Prefixes) (n : Nat) (p : Prefixes) :
    Consumes (prefixLoop step n p) := by
  cases n with
  | zero => exact .fail _
  | succ n =>
    have hshort : DecodeError.prefixBufferUnderflow.IsUnderflow := trivial
    refine .next_bind hshort fun b => ?_
    cases step p b with
    | some q => exact local_prefixLoop step n q
    | none => exact .pure _

theorem local_decoder (mode : DecodeMode) : Local (decoder T mode) := by
  cases mode with
  | long64 => exact .bind (local_prefixLoop _ _ _) fun _ => local_opcode64 _
  | legacy is32 => exact .bind (local_prefixLoop _ _ _) fun _ => local_opcode32 _

theorem consumes_decoder (mode : DecodeMode) : Consumes (decoder T mode) := by
  cases mode with
  | long64 =>
    exact (consumes_prefixLoop _ _ _).bind (local_prefixLoop _ _ _) fun _ => local_opcode64 _
  | legacy is32 =>
    exact (consumes_prefixLoop _ _ _).bind (local_prefixLoop _ _ _) fun _ => local_opcode32 _

theorem measuresItself_decoder (mode : DecodeMode) : MeasuresItself (decoder T mode) := by
  cases mode with
  | long64 => exact measuresItself_decode64
  | legacy is32 => exact measuresItself_decode32 is32

variable {mode : DecodeMode} {b : List (BitVec 8)}

/-- An instruction is as long as the bytes the decoder consumed. -/
theorem fetchDecode_eq_ok :
    fetchDecode T mode b = .ok i ↔ decoder T mode (b.take 15) 0 = .ok (i, i.length.toNat) := by
  constructor
  · intro h
    unfold fetchDecode at h
    split at h
    · exact nomatch h
    · cases hd : decoder T mode (b.take 15) 0 with
      | error e =>
        rw [hd] at h
        exact nomatch h
      | ok r =>
        obtain ⟨i', pos⟩ := r
        rw [hd] at h
        cases h
        have hlen := ((local_decoder mode).ok (Nat.zero_le _) hd).2.1
        have hpos : pos < 2 ^ 8 := by
          rw [length_take] at hlen
          omega
        rw [measuresItself_decoder mode hd, BitVec.toNat_ofNat, Nat.mod_eq_of_lt hpos]
  · intro h
    have hne : b ≠ [] := by
      rintro rfl
      have hpos := consumes_decoder mode (Nat.zero_le _) h
      have hlen := ((local_decoder mode).ok (Nat.zero_le _) h).2.1
      simp only [take_nil, length_nil] at hlen
      omega
    unfold fetchDecode
    rw [if_neg hne, h]
    rfl

theorem fetchDecode_eq_error
    (hb : b ≠ []) : fetchDecode T mode b = .error e ↔ decoder T mode (b.take 15) 0 = .error e := by
  unfold fetchDecode
  rw [if_neg hb]
  cases decoder T mode (b.take 15) 0 <;> simp [Except.map]

/-- The bytes of an instruction decide what it is. -/
theorem fetchDecode_of_take {b' : List (BitVec 8)} (h : fetchDecode T mode b = .ok i)
    (htake : b'.take i.length.toNat = b.take i.length.toNat) : fetchDecode T mode b' = .ok i := by
  have hd := fetchDecode_eq_ok.mp h
  obtain ⟨_, hle, hsame⟩ := (local_decoder mode).ok (Nat.zero_le _) hd
  rw [length_take] at hle
  refine fetchDecode_eq_ok.mpr (hsame _ ?_)
  rw [take_take, take_take, Nat.min_eq_left (by omega), htake]

theorem ilen_of_fetchDecode (h : fetchDecode T mode b = .ok i) :
    1 ≤ i.length.toNat ∧ i.length.toNat ≤ 15 ∧ i.length.toNat ≤ b.length := by
  have hd := fetchDecode_eq_ok.mp h
  have hpos := consumes_decoder mode (Nat.zero_le _) hd
  have hle := ((local_decoder mode).ok (Nat.zero_le _) hd).2.1
  rw [length_take] at hle
  omega

theorem fetchDecode_error_append (h : fetchDecode T mode b = .error e) (he : ¬ e.IsUnderflow)
    (more : List (BitVec 8)) : fetchDecode T mode (b ++ more) = .error e := by
  have hb : b ≠ [] := by
    rintro rfl
    cases h
    exact he trivial
  have hd := (local_decoder mode).error (Nat.zero_le _) ((fetchDecode_eq_error hb).mp h) he
  refine (fetchDecode_eq_error (by simp [hb])).mpr ?_
  rw [take_append]
  exact hd _

/-- What is decoded depends on the instruction's own bytes. -/
theorem decoding_is_local (T : OpcodeTables) (mode : DecodeMode) (b x : List (BitVec 8)) :
    (∀ i, fetchDecode T mode b = .ok i →
      (1 ≤ i.length.toNat ∧ i.length.toNat ≤ min 15 b.length) ∧
      fetchDecode T mode (b ++ x) = .ok i ∧
      fetchDecode T mode (b.take i.length.toNat) = .ok i) ∧
    (∀ e, fetchDecode T mode b = .error e → ¬ e.IsUnderflow →
      fetchDecode T mode (b ++ x) = .error e) ∧
    (15 ≤ b.length → fetchDecode T mode (b ++ x) = fetchDecode T mode b) := by
  refine ⟨fun i h => ?_, fun e h he => fetchDecode_error_append h he x, fun hlen => ?_⟩
  · obtain ⟨hpos, hshort, hlen⟩ := ilen_of_fetchDecode h
    refine ⟨⟨hpos, Nat.le_min.mpr ⟨hshort, hlen⟩⟩, fetchDecode_of_take h ?_, fetchDecode_of_take h ?_⟩
    · exact take_append_of_le_length hlen
    · rw [take_take, Nat.min_self]
  · unfold fetchDecode
    rw [take_append_of_le_length hlen]
    have hb : b ≠ [] := by
      rintro rfl
      simp at hlen
    rw [if_neg hb, if_neg (by simp [hb])]

/-- `attr`: an entry's value above its mask. -/
def attr (value mask : BitVec 64) (offset : Nat) : BitVec 64 :=
  ((value <<< offset) <<< 24) ||| (mask <<< offset)

/-- `form_opcode`: an entry that LOCK does not match. -/
def formOpcode (attrs : BitVec 64) (opcode : Opcode) : BitVec 64 :=
  (opcode.setWidth 64 <<< 48) ||| attrs ||| attr 0 1 17

/-- The entries of 8F, POP of a quadword, doubleword or word, and no other opcode. -/
def popTables : OpcodeTables where
  count := 3735
  table := fun _ b =>
    if b = 0x8F then
      [formOpcode (attr 1 1 15 ||| attr 1 1 22 ||| attr 0 7 0) 1368,
        formOpcode (attr 0 1 15 ||| attr 1 3 22 ||| attr 0 7 0) 366,
        formOpcode (attr 0 3 22 ||| attr 0 7 0) 365]
    else []
  table0F := fun _ _ => []
  table0F38 := []
  table0F3A := []
  evexTable := []
  vexMap7F6 := []
  vexMap7F8 := []
  floatingPoint := fun _ _ => .iaError
  dnow := fun _ => .iaError
  remapSseToVex := fun opcode _ => opcode
  evexDst := fun _ => .nnn
  evexTuple := fun _ => .none
  evexFlags := fun _ => 0
  isBlendv := fun _ => false
  isVsib := fun _ => false
  noVexForm := fun _ => false
  vl128Only := fun _ => false
  registerOnly := fun _ => false
  memoryOnly := fun _ => false
  reservesVvvv := fun _ => false

/-- POP of the quadword at RAX, also with bytes behind it. -/
theorem pop_decodes :
    ∃ i : Instruction, i.opcode = 1368 ∧ i.length = 2 ∧
      fetchDecode popTables .long64 [0x8F#8, 0x00#8] = .ok i ∧
      fetchDecode popTables .long64 ([0x8F#8, 0x00#8] ++ [0x08#8, 0xFF#8]) = .ok i := by
  have hi : fetchDecode popTables .long64 [0x8F#8, 0x00#8] =
      .ok ⟨1368, 2, 0x07, ⟨0, 0, 0, 0, 3, 0, 4, 0⟩, 0, 0⟩ := by decide +kernel
  have hlocal := decoding_is_local popTables .long64 [0x8F#8, 0x00#8] [0x08#8, 0xFF#8]
  exact ⟨_, rfl, rfl, hi, (hlocal.1 _ hi).2.1⟩

end RustyBox
