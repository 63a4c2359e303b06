-- SUMMARY: What a trace fill decodes, and the cache lines its instructions depend on.
import RustyBox.Lib.Footprint
import RustyBox.Decoder.Locality
import RustyBox.Cpu.TraceCache

/-!
# What a fill decodes

`TraceAt` says that a list of instructions is what decoding memory from an address on gives.
The loop of a fill makes it true, and the lines in the mask it collects are a footprint of it:
an instruction depends on its own bytes, and those lie in the lines of the first and the last
of them. For an error, which has length one in the trace, that has to be assumed of the one
line that is marked (`ErrorStays`).
-/

namespace RustyBox

open Lib List

section

variable {T : OpcodeTables} {mode : FetchMode}

/-! ## Decoding in place -/

/-- The bytes that are decoded at `a`: those up to the end of the page, or the two parts of an
instruction across a page boundary. -/
def traceBytes (mem : Nat → BitVec 8) (a : Nat) : Option Split → List (BitVec 8)
  | none => bytesAt mem a (4096 - a % 4096)
  | some s => bytesAt mem a s.first ++ bytesAt mem s.addr s.len

variable (T mode) in
/-- Decoding the bytes at `a` gives `item`, whatever follows them. -/
def InstrAt (mem : Nat → BitVec 8) (a : Nat) (split : Option Split) (item : TraceItem) : Prop :=
  ∀ more, normalizeDecodeResult
    (fetchDecode T mode.decodeMode (traceBytes mem a split ++ more)) = .ok item

variable (T mode) in
/-- The instructions are what is decoded from `a` on; only the first may be split. -/
def TraceAt (mem : Nat → BitVec 8) : Nat → Option Split → List TraceItem → Prop
  | _, _, [] => True
  | a, split, item :: rest =>
    InstrAt T mode mem a split item ∧ TraceAt mem (a + item.ilen) none rest

/-- Where the instructions end. -/
def endAddr (a : Nat) (items : List TraceItem) : Nat := a + (items.map TraceItem.ilen).sum

variable {item : TraceItem} (mem : Nat → BitVec 8) (a : Nat)

theorem traceAt_append (xs ys : List TraceItem) :
    TraceAt T mode mem a none (xs ++ ys) ↔
      TraceAt T mode mem a none xs ∧ TraceAt T mode mem (endAddr a xs) none ys := by
  induction xs generalizing a with
  | nil => simp [TraceAt, endAddr]
  | cons item rest ih =>
    simp [TraceAt, ih, endAddr, and_assoc, Nat.add_assoc]

@[simp] theorem length_bytesAt (len : Nat) : (bytesAt mem a len).length = len := by simp [bytesAt]

theorem bytesAt_congr {mem mem' : Nat → BitVec 8} {a len : Nat}
    (h : ∀ k < len, mem' (a + k) = mem (a + k)) : bytesAt mem' a len = bytesAt mem a len :=
  map_congr_left fun k hk => h k (List.mem_range.mp hk)

theorem take_bytesAt (len k : Nat) : (bytesAt mem a len).take k = bytesAt mem a (min k len) := by
  unfold bytesAt
  rw [← map_take, take_range]

theorem normalize_eq_some {r : Except DecodeError Instruction} {i : Instruction} :
    normalizeDecodeResult r = .ok (some i) ↔ r = .ok i := by
  unfold normalizeDecodeResult
  split <;> simp_all

theorem normalize_eq_none {r : Except DecodeError Instruction} :
    normalizeDecodeResult r = .ok none ↔ ∃ e, r = .error e ∧ ¬ e.IsUnderflow := by
  unfold normalizeDecodeResult
  cases r with
  | ok i => simp
  | error e => cases e <;> simp [DecodeError.IsUnderflow]

/-- What was decoded does not change when more bytes follow. -/
theorem normalize_append {mode : DecodeMode} {b : List (BitVec 8)}
    (h : normalizeDecodeResult (fetchDecode T mode b) = .ok item) (more : List (BitVec 8)) :
    normalizeDecodeResult (fetchDecode T mode (b ++ more)) = .ok item := by
  cases item with
  | some i =>
    have hi := normalize_eq_some.mp h
    refine normalize_eq_some.mpr (fetchDecode_of_take hi ?_)
    exact take_append_of_le_length (ilen_of_fetchDecode hi).2.2
  | none =>
    obtain ⟨e, he, hunder⟩ := normalize_eq_none.mp h
    exact normalize_eq_none.mpr ⟨e, fetchDecode_error_append he hunder more, hunder⟩

/-! ## Lines -/

/-- The bytes of the page of `a` in the lines of `mask`. -/
def lineBytes (mask : BitVec 32) : Set Nat :=
  {b | b / 4096 = a / 4096 ∧ mask.getLsbD (b % 4096 / 128)}

theorem lineBytes_mono {a : Nat} {mask mask' : BitVec 32}
    (h : ∀ k, mask.getLsbD k → mask'.getLsbD k) : lineBytes a mask ⊆ lineBytes a mask' :=
  fun _ hb => ⟨hb.1, h _ hb.2⟩

theorem lineBytes_congr {a a' : Nat} (h : a / 4096 = a' / 4096) (mask : BitVec 32) :
    lineBytes a mask = lineBytes a' mask := by
  unfold lineBytes
  rw [h]

theorem lineBytes_left (x y : BitVec 32) : lineBytes a x ⊆ lineBytes a (x ||| y) :=
  lineBytes_mono fun k hk => by simp [hk]

theorem lineBytes_right (x y : BitVec 32) : lineBytes a y ⊆ lineBytes a (x ||| y) :=
  lineBytes_mono fun k hk => by simp [hk]

theorem getLsbD_line (k j : Nat) (hj : j < 32) : (1#32 <<< k).getLsbD j = decide (j = k) := by
  grind

theorem getLsbD_instructionLines {pos len k : Nat} (hfits : pos % 4096 + len ≤ 4096) (hlen : 1 ≤ len) :
    (instructionLines pos len).getLsbD k ↔
      k = pos % 4096 / 128 ∨ k = (pos % 4096 + len - 1) / 128 := by
  have h₁ : min (pos % 4096 / 128) 31 = pos % 4096 / 128 := by omega
  have h₂ : min ((pos % 4096 + len - 1) / 128) 31 = (pos % 4096 + len - 1) / 128 := by omega
  unfold instructionLines
  rw [h₁, h₂]
  by_cases hk : k < 32
  · simp [getLsbD_line _ _ hk]
  · simp
    omega

/-- An instruction of at most fifteen bytes lies in the lines of its first and last byte. -/
theorem mem_lineBytes_instruction {pos len k : Nat} (hfits : pos % 4096 + len ≤ 4096)
    (hshort : len ≤ 15) (hk : k < len) : pos + k ∈ lineBytes pos (instructionLines pos len) := by
  refine ⟨by omega, (getLsbD_instructionLines hfits (by omega)).mpr ?_⟩
  omega

variable (T mode) in
/-- At `pos` decoding gives an error, and goes on giving one whatever is written outside the
line of the first byte. -/
def ErrorStays (pos : Nat) : Prop :=
  HoldsOn {b | b / 128 = pos / 128} (fun mem => InstrAt T mode mem pos none none) mem

theorem traceBytes_eq_append {pos len : Nat} (h : pos % 4096 + len ≤ 4096) :
    ∃ rest, traceBytes mem pos none = bytesAt mem pos len ++ rest := by
  have htake := take_bytesAt mem pos (4096 - pos % 4096) len
  rw [Nat.min_eq_left (by omega)] at htake
  refine ⟨(bytesAt mem pos (4096 - pos % 4096)).drop len, ?_⟩
  rw [← htake, take_append_drop]
  rfl

/-- What was decoded from part of the page is what is decoded there. -/
theorem instrAt_of_decode {mem : Nat → BitVec 8} {pos avail : Nat}
    (hfits : pos % 4096 + avail ≤ 4096)
    (hdecode : normalizeDecodeResult
      (fetchDecode T mode.decodeMode (bytesAt mem pos avail)) = .ok item) :
    InstrAt T mode mem pos none item := by
  intro more
  obtain ⟨rest, hrest⟩ := traceBytes_eq_append mem hfits
  rw [hrest, append_assoc]
  exact normalize_append hdecode _

/-- An error that the bytes of the line alone lead to stays. -/
theorem errorStays_of_line {mem : Nat → BitVec 8} {pos len : Nat} (hline : pos % 128 + len ≤ 128)
    (herror : normalizeDecodeResult
      (fetchDecode T mode.decodeMode (bytesAt mem pos len)) = .ok none) :
    ErrorStays T mode mem pos := by
  intro mem' heq
  have hsame : bytesAt mem' pos len = bytesAt mem pos len := by
    refine bytesAt_congr fun k hk => heq ?_
    show (pos + k) / 128 = pos / 128
    omega
  refine instrAt_of_decode (by omega : pos % 4096 + len ≤ 4096) ?_
  rw [hsame]
  exact herror

/-- The lines marked for an instruction are a footprint of it. -/
theorem instrAt_holdsOn {mem : Nat → BitVec 8} {pos avail : Nat} (hfits : pos % 4096 + avail ≤ 4096)
    (hdecode : normalizeDecodeResult
      (fetchDecode T mode.decodeMode (bytesAt mem pos avail)) = .ok item)
    (herror : item = none → ErrorStays T mode mem pos) :
    HoldsOn (lineBytes pos (instructionLines pos item.ilen))
      (fun mem => InstrAt T mode mem pos none item) mem := by
  cases item with
  | none =>
    refine (herror rfl).mono fun b hb => ?_
    have hb : b / 128 = pos / 128 := hb
    have hin : pos % 4096 + 1 ≤ 4096 := by omega
    exact ⟨by omega, (getLsbD_instructionLines hin (Nat.le_refl 1)).mpr (.inl (by omega))⟩
  | some i =>
    have hi := normalize_eq_some.mp hdecode
    obtain ⟨hpos, hshort, hlen⟩ := ilen_of_fetchDecode hi
    rw [length_bytesAt] at hlen
    have hin : pos % 4096 + i.length.toNat ≤ 4096 := by omega
    intro mem' heq more
    have hsame : bytesAt mem' pos i.length.toNat = bytesAt mem pos i.length.toNat :=
      bytesAt_congr fun k hk => heq (mem_lineBytes_instruction hin hshort hk)
    refine normalize_eq_some.mpr (fetchDecode_of_take hi ?_)
    show (bytesAt mem' pos _ ++ more).take _ = _
    rw [take_append_of_le_length (by rw [length_bytesAt]; omega), take_bytesAt, take_bytesAt,
      Nat.min_eq_left (by omega), Nat.min_eq_left hlen, hsame]

/-! ## The loop -/

variable (f : Filling) (start : Nat)

def Filling.items : List TraceItem :=
  (range f.tlen).map fun k => f.mpool (start + k)

@[simp] theorem items_push (item : TraceItem) :
    (f.push start item).items start = f.items start ++ [item] := by
  show (range (f.tlen + 1)).map _ = _
  rw [range_succ, map_append]
  congr 1
  · refine map_congr_left fun k hk => Function.update_of_ne ?_ _ _
    have := List.mem_range.mp hk
    omega
  · exact congrArg (fun x => [x]) (Function.update_self _ _ _)

@[simp] theorem items_advance (len : Nat) : (f.advance len).items start = f.items start := rfl

variable (T mode) in
/-- What holds of a trace for `a` whenever its instructions are recorded. -/
structure Recorded (mem : Nat → BitVec 8) (c : ICache) (start a : Nat) (f : Filling) : Prop where
  pool : ∀ k < start, f.mpool k = c.mpool k
  page : f.pos / 4096 = a / 4096
  mask_ge : ∀ k, f.mask.getLsbD k → a % 4096 / 128 ≤ k
  trace : HoldsOn (lineBytes a f.mask)
    (fun mem => TraceAt T mode mem a none (f.items start)) mem

variable (T mode) in
/-- What holds in addition where the loop decodes the next instruction. -/
structure InLoop (mem : Nat → BitVec 8) (c : ICache) (start a : Nat) (f : Filling) : Prop
    extends Recorded T mode mem c start a f where
  pos_eq : f.pos = endAddr a (f.items start)
  fits : f.pos % 4096 + f.avail ≤ 4096
  remaining_pos : 0 < f.remaining
  remaining_le : f.remaining ≤ f.avail

section

variable {mem : Nat → BitVec 8} {c : ICache} {start a : Nat} {f : Filling} {item : TraceItem}

theorem InLoop.le_pos (h : InLoop T mode mem c start a f) : a ≤ f.pos := by
  rw [h.pos_eq]
  exact Nat.le_add_right _ _

section

variable (h : InLoop T mode mem c start a f)
  (hdecode : normalizeDecodeResult (fetchDecode T mode.decodeMode (bytesAt mem f.pos f.avail)) = .ok item)
include h hdecode

theorem InLoop.ilen_le : 1 ≤ item.ilen ∧ item.ilen ≤ f.avail := by
  cases item with
  | none => exact ⟨Nat.le_refl 1, Nat.le_trans h.remaining_pos h.remaining_le⟩
  | some i =>
    obtain ⟨hpos, _, hlen⟩ := ilen_of_fetchDecode (normalize_eq_some.mp hdecode)
    rw [length_bytesAt] at hlen
    exact ⟨hpos, hlen⟩

theorem InLoop.push (herror : item = none → ErrorStays T mode mem f.pos) :
    Recorded T mode mem c start a (f.push start item) := by
  obtain ⟨hpos, hlen⟩ := h.ilen_le hdecode
  have hle := h.le_pos
  have hpage := h.page
  have hfits := h.fits
  refine ⟨fun k hk => ?_, h.page, fun k hk => ?_, ?_⟩
  · exact (Function.update_of_ne (by omega) _ _).trans (h.pool k hk)
  · rcases (Bool.or_eq_true _ _).mp ((BitVec.getLsbD_or ..).symm.trans hk) with hold | hnew
    · exact h.mask_ge k hold
    · have := (getLsbD_instructionLines (by omega) hpos).mp hnew
      omega
  · have hitem := instrAt_holdsOn h.fits hdecode herror
    rw [lineBytes_congr h.page] at hitem
    refine ((h.trace.mono (lineBytes_left _ _ _)).and (hitem.mono (lineBytes_right _ _ _))).imp ?_
    rintro mem ⟨htrace, hinstr⟩
    rw [items_push, traceAt_append, ← h.pos_eq]
    exact ⟨htrace, hinstr, trivial⟩

theorem InLoop.advance (herror : item = none → ErrorStays T mode mem f.pos)
    (hmore : (f.push start item).remaining ≠ 0) :
    InLoop T mode mem c start a ((f.push start item).advance item.ilen) := by
  have hpush := h.push hdecode herror
  have hmore : f.remaining - item.ilen ≠ 0 := hmore
  have hfits := h.fits
  have hle := h.remaining_le
  have hpage := h.page
  refine { hpush with page := ?_, trace := hpush.trace, pos_eq := ?_, fits := ?_, remaining_pos := ?_,
                      remaining_le := ?_ }
  · show (f.pos + item.ilen) / 4096 = _
    omega
  · show f.pos + item.ilen = _
    rw [h.pos_eq]
    simp [endAddr, Nat.add_assoc]
  · show (f.pos + item.ilen) % 4096 + (f.avail - item.ilen) ≤ 4096
    omega
  · exact Nat.pos_of_ne_zero hmore
  · show f.remaining - item.ilen ≤ f.avail - item.ilen
    omega

end

theorem inLoop_start (r : FillRequest) (c : ICache) (start : Nat) :
    InLoop T mode mem c start r.pAddr (r.start c) where
  pool _ _ := rfl
  page := rfl
  mask_ge k hk := by simp [FillRequest.start] at hk
  trace _ _ := trivial
  pos_eq := rfl
  fits := r.avail_le
  remaining_pos := r.remaining_pos
  remaining_le := r.remaining_le

variable (T mode) in
/-- What holds where the loop ends. A trace is merged where the loop would go on, at least
fifteen bytes before the end of the window. -/
def LoopEnd (mem : Nat → BitVec 8) (c : ICache) (start a : Nat) : FillEnd → Prop
  | .complete f => Recorded T mode mem c start a f
  | .merged f e =>
    InLoop T mode mem c start a f ∧ c.mergeSource mode f.pos f.tlen = some e ∧ 15 ≤ f.remaining
  | .incomplete => True

/-- The rule of the loop: what holds where it decodes the next instruction, with `n` of the
quantum left, and what follows where it ends. -/
theorem fillLoop_rule {ends : FetchMode → Instruction → Bool} {I : Nat → Filling → Prop}
    {Q : FillEnd → Prop}
    (hstop : ∀ n f, I n f → n = 0 ∨ memPool ≤ start + f.tlen → Q (.complete f))
    (hshort : ∀ n f, I (n + 1) f → Q (if 0 < f.tlen then .complete f else .incomplete))
    (hlast : ∀ n f item, I (n + 1) f →
      normalizeDecodeResult (fetchDecode T mode.decodeMode (bytesAt mem f.pos f.avail)) = .ok item →
      Q (.complete (f.push start item)))
    (hnext : ∀ n f item, I (n + 1) f →
      normalizeDecodeResult (fetchDecode T mode.decodeMode (bytesAt mem f.pos f.avail)) = .ok item →
      item ≠ none → (f.push start item).remaining ≠ 0 →
      I n ((f.push start item).advance item.ilen))
    (hmerge : ∀ n f e, I n f → 0 < f.tlen → c.mergeSource mode f.pos f.tlen = some e →
      15 ≤ f.remaining → Q (.merged f e))
    {n : Nat} (h : I n f) : Q (fillLoop T ends mem c mode start n f) := by
  induction n generalizing f with
  | zero => exact hstop 0 f h (.inl rfl)
  | succ n ih =>
    unfold fillLoop
    by_cases hfull : memPool ≤ start + f.tlen
    · rw [if_pos hfull]
      exact hstop _ f h (.inr hfull)
    rw [if_neg hfull]
    cases hdecode : normalizeDecodeResult
        (fetchDecode T mode.decodeMode (bytesAt mem f.pos f.avail)) with
    | error e => exact hshort n f h
    | ok item =>
      dsimp only
      split
      · exact hlast n f item h hdecode
      by_cases hstop : item.endsTrace ends mode = true ∨ (f.push start item).remaining = 0
      · rw [if_pos hstop]
        exact hlast n f item h hdecode
      rw [if_neg hstop]
      -- An error would have ended the trace.
      have hsome : item ≠ none := fun hnone => hstop (.inl (by rw [hnone]; rfl))
      have hadvance := hnext n f item h hdecode hsome fun hzero => hstop (.inr hzero)
      split
      next hroom =>
        split
        next e he => exact hmerge n _ e hadvance (Nat.succ_pos _) he hroom
        · exact ih hadvance
      · exact ih hadvance

/-- The loop records what it decodes. -/
theorem fillLoop_spec {ends : FetchMode → Instruction → Bool} {n : Nat}
    (h : InLoop T mode mem c start a f)
    (herror : ∀ f', fillLoop T ends mem c mode start n f = .complete f' →
      (f'.items start).getLast? = some none → ErrorStays T mode mem f'.pos) :
    LoopEnd T mode mem c start a (fillLoop T ends mem c mode start n f) := by
  refine fillLoop_rule (I := fun _ f => InLoop T mode mem c start a f)
    (Q := fun r => (∀ f', r = .complete f' → (f'.items start).getLast? = some none →
      ErrorStays T mode mem f'.pos) → LoopEnd T mode mem c start a r)
    ?_ ?_ ?_ ?_ ?_ h herror
  · intro _ f hf _ _
    exact hf.toRecorded
  · intro _ f hf _
    split
    · exact hf.toRecorded
    · trivial
  · intro _ f item hf hdecode hlast
    exact hf.push hdecode fun hnone => hlast (f.push start item) rfl (by simp [hnone])
  · intro _ f item hf hdecode hsome hmore
    exact hf.advance hdecode (fun hnone => absurd hnone hsome) hmore
  · intro _ f e hf _ he hroom _
    exact ⟨hf, he, hroom⟩

end

end

end RustyBox
