-- SUMMARY: Address generation accepts exactly the accesses the segment permits, whatever it has cached.
import RustyBox.Cpu.Segment
import RustyBox.Lib.Reachability

/-!
# Segment limits

`Accepts` is the full check of an access against a descriptor. The bits a passed check
leaves in the cache never let through an access the full check refuses (`BitsJustified`),
over any sequence of calls. Compatibility mode is the exception: there `agen_read32` and
`agen_write32` check nothing.
-/

namespace RustyBox

open Lib BxDescriptor

/-! ## The full check -/

namespace BxDescriptor

variable (d : BxDescriptor)

/-- A populated cache of a present data or readable code segment. -/
def Readable : Prop :=
  d.valid.valid ∧ d.p ∧ d.segment ∧ (d.type.getLsbD 3 → d.type.getLsbD 1)

/-- A populated cache of a present writable data segment. -/
def Writable : Prop :=
  d.valid.valid ∧ d.p ∧ d.segment ∧ ¬ d.type.getLsbD 3 ∧ d.type.getLsbD 1

def ExpandDown : Prop := ¬ d.type.getLsbD 3 ∧ d.type.getLsbD 2

/-- The highest offset of an expand-down segment. -/
def upperLimit : Nat := if d.u.segmentDB then 0xFFFFFFFF else 0xFFFF

instance (d : BxDescriptor) : Decidable d.ExpandDown := inferInstanceAs (Decidable (_ ∧ _))

/-- All bytes are above the limit of an expand-down segment, or inside the limit of an
expand-up one; a base-0 4 GiB segment has every offset. -/
def InLimit (offset : BitVec 32) (width : AccessWidth) : Prop :=
  if d.ExpandDown then
    d.u.segmentLimitScaled.toNat < offset.toNat ∧ offset.toNat + width.bytes ≤ d.upperLimit + 1
  else d.flat ∨ offset.toNat + width.bytes ≤ d.u.segmentLimitScaled.toNat + 1

/-- The full check. -/
def Accepts (write : Bool) (offset : BitVec 32) (width : AccessWidth) : Prop :=
  (if write then d.Writable else d.Readable) ∧ d.InLimit offset width

instance (d : BxDescriptor) : Decidable d.Readable :=
  inferInstanceAs (Decidable (_ ∧ _ ∧ _ ∧ (_ → _)))

instance (d : BxDescriptor) : Decidable d.Writable :=
  inferInstanceAs (Decidable (_ ∧ _ ∧ _ ∧ _ ∧ _))

instance (d : BxDescriptor) (offset : BitVec 32) (width : AccessWidth) :
    Decidable (d.InLimit offset width) := by
  unfold InLimit
  infer_instance

instance (d : BxDescriptor) (write : Bool) (offset : BitVec 32) (width : AccessWidth) :
    Decidable (d.Accepts write offset width) := by
  unfold Accepts
  infer_instance

theorem Writable.readable {d : BxDescriptor} (h : d.Writable) : d.Readable :=
  ⟨h.1, h.2.1, h.2.2.1, fun h3 => absurd h3 h.2.2.2.1⟩

end BxDescriptor

variable (width : AccessWidth)

/-- A width as the `len` argument. -/
def AccessWidth.len : BitVec 32 := BitVec.ofNat 32 width.bytes

theorem AccessWidth.toNat_len_sub_one : (width.len - 1#32).toNat = width.bytes - 1 := by
  cases width <;> rfl

theorem AccessWidth.bytes_bounds : 1 ≤ width.bytes ∧ width.bytes ≤ 8 := by
  cases width <;> decide

variable {mode : CpuMode} (d : BxDescriptor)

theorem expandDownRefuses_eq_false (offset : BitVec 32) (width : AccessWidth) :
    d.expandDownRefuses offset (width.len - 1#32) = false ↔
      d.u.segmentLimitScaled.toNat < offset.toNat ∧
        offset.toNat + width.bytes ≤ d.upperLimit + 1 := by
  have hlen := width.toNat_len_sub_one
  have hbytes := width.bytes_bounds
  have hupper : (if d.u.segmentDB then 0xFFFFFFFF#32 else 0x0000FFFF#32).toNat = d.upperLimit := by
    unfold upperLimit
    split <;> rfl
  unfold expandDownRefuses
  rw [decide_eq_false_iff_not]
  simp only [BitVec.le_def, BitVec.lt_def, BitVec.toNat_sub, hlen]
  omega

theorem expandUpRefuses_eq_false (offset : BitVec 32) (width : AccessWidth) :
    d.expandUpRefuses offset (width.len - 1#32) = false ↔
      offset.toNat + width.bytes ≤ d.u.segmentLimitScaled.toNat + 1 := by
  have hlen := width.toNat_len_sub_one
  have hbytes := width.bytes_bounds
  unfold expandUpRefuses
  rw [decide_eq_false_iff_not]
  simp only [BitVec.lt_def, BitVec.toNat_sub, hlen]
  omega

/-! ## What the cache may skip -/

/-- A bit that skips a check is only set where the check cannot fail. -/
structure BitsJustified (d : BxDescriptor) : Prop where
  rok : d.valid.rok → d.Readable ∧ ¬ d.ExpandDown ∧ 7 ≤ d.u.segmentLimitScaled.toNat
  wok : d.valid.wok → d.Writable ∧ ¬ d.ExpandDown ∧ 7 ≤ d.u.segmentLimitScaled.toNat
  rok4g : d.valid.rok4g → d.Readable ∧ ¬ d.ExpandDown ∧ d.flat
  wok4g : d.valid.wok4g → d.Writable ∧ ¬ d.ExpandDown ∧ d.flat

/-- `d'` is `d` but for the bits that skip checks. -/
def SameSegment (d' : BxDescriptor) : Prop :=
  d' = { d with valid := d'.valid } ∧ d'.valid.valid = d.valid.valid

theorem SameSegment.refl : SameSegment d d := ⟨rfl, rfl⟩

theorem SameSegment.trans {d d' d'' : BxDescriptor} (h : SameSegment d d')
    (h' : SameSegment d' d'') : SameSegment d d'' := by
  refine ⟨?_, h'.2.trans h.2⟩
  rw [h'.1, h.1]

theorem SameSegment.accepts {d d' : BxDescriptor} (h : SameSegment d d') (write : Bool)
    (offset : BitVec 32) (width : AccessWidth) :
    d'.Accepts write offset width ↔ d.Accepts write offset width := by
  obtain ⟨heq, hvalid⟩ := h
  unfold Accepts Readable Writable
  rw [hvalid, heq]
  rfl

theorem flat_limit {d : BxDescriptor} (h : d.flat) : 7 ≤ d.u.segmentLimitScaled.toNat := by
  have hlimit := (of_decide_eq_true h).1
  rw [hlimit]
  decide

/-- What a checking function has to do. -/
structure ChecksSpec (write : Bool)
    (checks : BxDescriptor → BitVec 32 → BitVec 32 → Bool × BxDescriptor) : Prop where
  verdict : ∀ d offset width,
    (checks d offset (AccessWidth.len width)).1 = true ↔ d.Accepts write offset width
  same : ∀ d offset len, SameSegment d (checks d offset len).2
  justified : ∀ d offset len, BitsJustified d → BitsJustified (checks d offset len).2

theorem readVirtualChecks_spec : ChecksSpec false readVirtualChecks where
  verdict d offset width := by
    have hup := expandUpRefuses_eq_false d offset width
    have hdown := expandDownRefuses_eq_false d offset width
    unfold readVirtualChecks Accepts InLimit Readable
    unfold ExpandDown
    grind
  same d offset len := by
    fun_cases readVirtualChecks d offset len <;> exact ⟨rfl, rfl⟩
  justified d offset len h := by
    fun_cases readVirtualChecks d offset len with
    | case5 hvalid hseg hcode hup hflat =>
      have hread : d.Readable := by
        unfold Readable
        grind
      exact ⟨fun _ => ⟨hread, hup, flat_limit hflat⟩, h.wok, fun _ => ⟨hread, hup, hflat⟩, h.wok4g⟩
    | case7 length hvalid hseg hcode hup hflat hrefuses hlimit =>
      have hread : d.Readable := by
        unfold Readable
        grind
      exact ⟨fun _ => ⟨hread, hup, hlimit⟩, h.wok, h.rok4g, h.wok4g⟩
    | _ => exact h

theorem writeVirtualChecks_spec : ChecksSpec true writeVirtualChecks where
  verdict d offset width := by
    have hup := expandUpRefuses_eq_false d offset width
    have hdown := expandDownRefuses_eq_false d offset width
    unfold writeVirtualChecks Accepts InLimit Writable
    unfold ExpandDown
    grind
  same d offset len := by
    fun_cases writeVirtualChecks d offset len <;> exact ⟨rfl, rfl⟩
  justified d offset len h := by
    fun_cases writeVirtualChecks d offset len with
    | case5 hvalid hseg hdata hrw hup hflat =>
      have hwrite : d.Writable := by
        unfold Writable
        grind
      have hdown : ¬ d.ExpandDown := fun h => hup h.2
      exact ⟨fun _ => ⟨hwrite.readable, hdown, flat_limit hflat⟩,
        fun _ => ⟨hwrite, hdown, flat_limit hflat⟩,
        fun _ => ⟨hwrite.readable, hdown, hflat⟩, fun _ => ⟨hwrite, hdown, hflat⟩⟩
    | case7 length hvalid hseg hdata hrw hup hflat hrefuses hlimit =>
      have hwrite : d.Writable := by
        unfold Writable
        grind
      have hdown : ¬ d.ExpandDown := fun h => hup h.2
      exact ⟨fun _ => ⟨hwrite.readable, hdown, hlimit⟩, fun _ => ⟨hwrite, hdown, hlimit⟩,
        h.rok4g, h.wok4g⟩
    | _ => exact h

/-! ## One call -/

/-- What the skip bits of a kind of access stand for. -/
structure SkipSpec (write : Bool) (skipAll skipLimit : SegAccess → Bool) : Prop where
  all : ∀ d, BitsJustified d → skipAll d.valid = true →
    (if write then d.Writable else d.Readable) ∧ ¬ d.ExpandDown ∧ d.flat
  limit : ∀ d, BitsJustified d → skipLimit d.valid = true →
    (if write then d.Writable else d.Readable) ∧ ¬ d.ExpandDown ∧
      7 ≤ d.u.segmentLimitScaled.toNat

/-- The cached-limit test, given that the limit is no smaller than an access. -/
theorem le_limit_sub {limit offset : BitVec 32} {width : AccessWidth} (hlimit : 7 ≤ limit.toNat) :
    offset ≤ limit - (width.len - 1#32) ↔ offset.toNat + width.bytes ≤ limit.toNat + 1 := by
  have hlen := width.toNat_len_sub_one
  have hbytes := width.bytes_bounds
  rw [BitVec.le_def, BitVec.toNat_sub]
  omega

/-- Outside long mode a call succeeds exactly when the full check accepts. -/
theorem agen32_run {write : Bool} {skipAll skipLimit : SegAccess → Bool}
    {checks : BxDescriptor → BitVec 32 → BitVec 32 → Bool × BxDescriptor}
    (hskip : SkipSpec write skipAll skipLimit) (hchecks : ChecksSpec write checks)
    (hmode : mode.longMode = false) {s : Sregs} {seg : SegReg} (hjust : BitsJustified (s seg).cache)
    (offset : BitVec 32) (width : AccessWidth) :
    ((∃ laddr s', (agen32 skipAll skipLimit checks mode seg offset width.len).run s = .ok laddr s') ↔
      (s seg).cache.Accepts write offset width) := by
  have hverdict := hchecks.verdict (s seg).cache offset width
  unfold agen32
  rw [run_get_bind, hmode]
  rw [if_neg (by simp)]
  by_cases hall : skipAll (s seg).cache.valid = true
  · obtain ⟨hkind, hup, hflat⟩ := hskip.all _ hjust hall
    rw [if_pos hall]
    refine iff_of_true ⟨_, _, rfl⟩ ⟨hkind, ?_⟩
    unfold InLimit
    rw [if_neg hup]
    exact .inl hflat
  · rw [if_neg hall]
    by_cases hlimit : skipLimit (s seg).cache.valid = true ∧
        offset ≤ (s seg).cache.u.segmentLimitScaled - (width.len - 1#32)
    · obtain ⟨hkind, hup, hseven⟩ := hskip.limit _ hjust hlimit.1
      rw [if_pos hlimit]
      refine iff_of_true ⟨_, _, rfl⟩ ⟨hkind, ?_⟩
      unfold InLimit
      rw [if_neg hup]
      exact .inr ((le_limit_sub hseven).mp hlimit.2)
    · rw [if_neg hlimit, run_set_bind, ← hverdict]
      cases (checks (s seg).cache offset width.len).1 with
      | true => exact iff_of_true ⟨_, _, rfl⟩ rfl
      | false =>
        refine iff_of_false ?_ (by simp)
        rintro ⟨laddr, s', h⟩
        cases h

/-! ## Sequences of calls -/

/-- A call of `agen_read32` or `agen_write32`. -/
structure AgenCall where
  write : Bool
  seg : SegReg
  offset : BitVec 32
  width : AccessWidth

/-- The call, in a given mode. -/
def AgenCall.exec (c : AgenCall) (mode : CpuMode) : EStateM Fault Sregs (BitVec 32) :=
  if c.write then agenWrite32 mode c.seg c.offset c.width.len
  else agenRead32 mode c.seg c.offset c.width.len

/-- The register files reached from `s` by calls, whether they succeed or raise. -/
def AgenReachable (mode : CpuMode) (s : Sregs) : Sregs → Prop :=
  Reachable (fun s (c : AgenCall) s' => s' = finalState ((c.exec mode).run s)) (fun _ _ => True) s

/-- `s'` is `s₀` but for skip bits, and all of those are justified. -/
def SkipsJustified (s₀ s' : Sregs) : Prop :=
  ∀ seg, SameSegment (s₀ seg).cache (s' seg).cache ∧ BitsJustified (s' seg).cache

theorem agen32_skipsJustified {write : Bool} {skipAll skipLimit : SegAccess → Bool}
    {checks : BxDescriptor → BitVec 32 → BitVec 32 → Bool × BxDescriptor}
    (hchecks : ChecksSpec write checks) (mode : CpuMode) {s₀ s : Sregs} (h : SkipsJustified s₀ s)
    (seg : SegReg) (offset len : BitVec 32) :
    SkipsJustified s₀
      (finalState ((agen32 skipAll skipLimit checks mode seg offset len).run s)) := by
  have hset : SkipsJustified s₀
      (Function.update s seg { s seg with cache := (checks (s seg).cache offset len).2 }) := by
    intro seg'
    by_cases hseg : seg' = seg
    · subst hseg
      rw [Function.update_self]
      exact ⟨(h seg').1.trans (hchecks.same _ offset len), hchecks.justified _ offset len (h seg').2⟩
    · rw [Function.update_of_ne hseg]
      exact h seg'
  unfold agen32
  rw [run_get_bind]
  dsimp only
  split_ifs
  · exact h
  · exact h
  · exact h
  · exact hset
  · exact hset

theorem exec_skipsJustified (mode : CpuMode) {s₀ s : Sregs} (h : SkipsJustified s₀ s)
    (c : AgenCall) : SkipsJustified s₀ (finalState ((c.exec mode).run s)) := by
  unfold AgenCall.exec
  split_ifs
  · exact agen32_skipsJustified writeVirtualChecks_spec mode h _ _ _
  · exact agen32_skipsJustified readVirtualChecks_spec mode h _ _ _

theorem exec_ok_iff (hmode : mode.longMode = false) {s₀ s : Sregs} (h : SkipsJustified s₀ s)
    (c : AgenCall) :
    (∃ laddr s', (c.exec mode).run s = .ok laddr s') ↔
      (s₀ c.seg).cache.Accepts c.write c.offset c.width := by
  have hjust := (h c.seg).2
  rw [← (h c.seg).1.accepts]
  unfold AgenCall.exec
  cases c.write with
  | true =>
    exact agen32_run ⟨fun _ h => h.wok4g, fun _ h => h.wok⟩ writeVirtualChecks_spec hmode hjust ..
  | false =>
    exact agen32_run ⟨fun _ h => h.rok4g, fun _ h => h.rok⟩ readVirtualChecks_spec hmode hjust ..

theorem exec_longMode (hmode : mode.longMode = true) (s : Sregs) (c : AgenCall) :
    (c.exec mode).run s = .ok (getLaddr32 s c.seg c.offset) s := by
  unfold AgenCall.exec agenWrite32 agenRead32 agen32
  split_ifs <;> rfl

/-- No skip bit is set. -/
def SkipsClear (s : Sregs) : Prop :=
  ∀ seg, (s seg).cache.valid = ⟨(s seg).cache.valid.valid, false, false, false, false⟩

theorem SkipsClear.justified {s : Sregs} (h : SkipsClear s) : SkipsJustified s s := by
  intro seg
  refine ⟨.refl _, ?_⟩
  constructor <;>
    · intro hbit
      rw [h seg] at hbit
      cases hbit

/-- After any sequence of calls, a call succeeds exactly when the full check of the
original descriptor accepts it, except in compatibility mode, where it always succeeds. -/
theorem agen32_follows_limits {mode : CpuMode} (hmode : mode ≠ .long64) {s₀ s : Sregs}
    (hclear : SkipsClear s₀) (hrun : AgenReachable mode s₀ s) (c : AgenCall) :
    ((∃ laddr s', (c.exec mode).run s = .ok laddr s') ↔
      (s₀ c.seg).cache.Accepts c.write c.offset c.width) ↔
      ¬ (mode = .longCompat ∧ ¬ (s₀ c.seg).cache.Accepts c.write c.offset c.width) := by
  by_cases hcompat : mode = .longCompat
  · have hlong : mode.longMode = true := by rw [hcompat]; rfl
    rw [exec_longMode hlong]
    simp [hcompat]
  · have hlong : mode.longMode = false := by
      cases mode with
      | longCompat => exact absurd rfl hcompat
      | long64 => exact absurd rfl hmode
      | _ => rfl
    have hjust : SkipsJustified s₀ s := by
      refine hrun.invariant hclear.justified ?_
      rintro s c s' hs - rfl
      exact exec_skipsJustified mode hs c
    simp [exec_ok_iff hlong hjust c, hcompat]

/-- Six copies of a present, writable, byte-granular data segment of 16 bytes. -/
def smallSegments : Sregs := fun _ =>
  ⟨⟨0x10#16, 2#16, false, 0#2⟩,
    ⟨⟨true, false, false, false, false⟩, true, 0#2, true, 2#4,
      .segment ⟨0x1000#64, 15#32, false, true, false, false⟩⟩⟩

/-- In protected mode the last dword of the segment is accepted, also after a read has
cached the limit. -/
theorem smallSegments_last_dword :
    ∃ laddr s', (AgenCall.exec ⟨true, .ds, 12#32, .dword⟩ .ia32Protected).run
      (finalState ((AgenCall.exec ⟨false, .ds, 0#32, .byte⟩ .ia32Protected).run smallSegments)) =
        .ok laddr s' := by
  have hreach : AgenReachable .ia32Protected smallSegments
      (finalState ((AgenCall.exec ⟨false, .ds, 0#32, .byte⟩ .ia32Protected).run smallSegments)) :=
    .step (a := ⟨false, .ds, 0#32, .byte⟩) .start trivial rfl
  exact ((agen32_follows_limits (by decide) (fun _ => rfl) hreach
    ⟨true, .ds, 12#32, .dword⟩).mpr (by decide)).mpr (by decide)

/-- In compatibility mode a dword past the limit is read without a fault. -/
theorem compat_read_past_limit :
    ¬ ((∃ laddr s', (AgenCall.exec ⟨false, .ds, 0x1000#32, .dword⟩ .longCompat).run smallSegments =
        .ok laddr s') ↔
      (smallSegments .ds).cache.Accepts false 0x1000#32 .dword) := by
  intro h
  have haccepts := h.mp ⟨_, _, rfl⟩
  revert haccepts
  decide

end RustyBox
