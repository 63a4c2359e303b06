-- SUMMARY: The plain address sums of descriptor fetches, interrupt delivery, task switches and IRET.
import RustyBox.Cpu.TaskSwitch
import RustyBox.Cpu.Canonical
import RustyBox.Lib.Checked

/-!
# Delivery arithmetic

The sums and differences that `fetch_raw_descriptor`, `protected_mode_int`,
`long_mode_int`, `task_switch` and `iret_protected` evaluate with plain `+` and `-`, in
program order. A build with overflow checks panics on one that leaves its type. What lies
between them (accesses, descriptor checks, calls) is a `mayEnd`: the function may return
there, and what it read decides whether it does.
-/

namespace RustyBox

open Lib

/-- The registers the sums are made of. -/
structure DeliveryRegs where
  gdtr : TableReg
  idtr : TableReg
  ldtr : BxSegmentReg
  tr : BxSegmentReg
  rsp : BitVec 64
  /-- `is_stack_32bit` -/
  stack32 : Bool
  /-- CR0.PG and CR4.CET -/
  pg : Bool
  cet : Bool
  /-- EFLAGS.NT -/
  nt : Bool

/-- A call of one of the functions. -/
inductive DeliveryCall
  | fetchRawDescriptor (sel : Selector)
  | protectedModeInt (vector : BitVec 8)
  /-- `ist` is the IST field of the gate, `rspForCpl` the stack pointer the delivery uses: the
  one of the TSS or RSP itself. -/
  | longModeInt (vector : BitVec 8) (ist : BitVec 3) (pushError : Bool) (rspForCpl : BitVec 64)
  | taskSwitch (sel : Selector) (d : BxDescriptor) (source : BitVec 32)
  | iretProtected

namespace DeliveryRegs

variable (r : DeliveryRegs)

/-- `fetch_raw_descriptor`. -/
def fetchRawDescriptorSteps (sel : Selector) : List CheckedStep :=
  let index := sel.index.setWidth 32
  let offset := 8#64 * sel.index.setWidth 64
  if ¬ sel.ti then
    .add 32 (index * 8#32) 7#32 ::
      if r.gdtr.limit.setWidth 32 < index * 8#32 + 7#32 then []
      else [.add 64 r.gdtr.base offset, .mayEnd]
  else if ¬ r.ldtr.cache.valid.valid then []
  else
    .add 32 (index * 8#32) 7#32 ::
      if r.ldtr.cache.u.segmentLimitScaled < index * 8#32 + 7#32 then []
      else [.add 64 r.ldtr.cache.u.segmentBase offset, .mayEnd]

/-- `protected_mode_int`. -/
def protectedModeIntSteps (vector : BitVec 8) : List CheckedStep :=
  let offset := vector.setWidth 64 * 8#64
  .add 16 (vector.setWidth 16 * 8#16) 2#16 :: .add 64 offset 7#64 ::
    if r.idtr.limit.setWidth 64 < offset + 7#64 then []
    else [.add 64 r.idtr.base offset, .mayEnd]

/-- The stack pointer of the delivery: the index of an IST entry, or of a privilege level. -/
def istSteps (ist : BitVec 3) : List CheckedStep :=
  if ist ≠ 0#3 then [.add 8 (ist.setWidth 8) 3#8, .mayEnd] else [.mayEnd]

/-- The frame of a delivery in long mode, on the stack aligned to 16 bytes. -/
def longModeFrameSteps (pushError : Bool) (rspForCpl : BitVec 64) : List CheckedStep :=
  let rsp := rspForCpl &&& ~~~0xF#64
  [.sub 64 rsp 8#64, .mayEnd, .sub 64 rsp 16#64, .mayEnd, .sub 64 rsp 24#64, .mayEnd,
    .sub 64 rsp 32#64, .mayEnd, .sub 64 rsp 40#64, .mayEnd, .sub 64 rsp 40#64] ++
    if pushError then [.sub 64 (rsp - 40#64) 8#64, .mayEnd] else []

/-- `long_mode_int`. -/
def longModeIntSteps (vector : BitVec 8) (ist : BitVec 3) (pushError : Bool)
    (rspForCpl : BitVec 64) : List CheckedStep :=
  let offset := vector.setWidth 64 * 16#64
  let idtEntryAddr := r.idtr.base + offset
  .add 16 (vector.setWidth 16 * 8#16) 2#16 :: .add 64 offset 15#64 ::
    if r.idtr.limit.setWidth 64 < offset + 15#64 then []
    else
      -- after the two reads the gate and the code segment are checked
      [.add 64 r.idtr.base offset, .mayEnd, .add 64 idtEntryAddr 8#64, .mayEnd, .mayEnd] ++
      istSteps ist ++
      longModeFrameSteps pushError rspForCpl

/-- The address of the busy bit, at steps 3 and 7 of `task_switch`. -/
def busySteps (sel : Selector) : List CheckedStep :=
  let offset := sel.index.setWidth 64 * 8#64
  [.add 64 r.gdtr.base offset, .add 64 (r.gdtr.base + offset) 4#64, .mayEnd, .mayEnd]

/-- Step 5 of `task_switch`; the sums of a 386 TSS are made in 64 bits. -/
def saveStateSteps : List CheckedStep :=
  let obase32 := r.tr.cache.tssBase
  if r.tr.cache.isTss286 then
    TssSlot.all286.flatMap fun k => [.add 32 obase32 (BitVec.ofNat 32 k.offset286), .mayEnd]
  else
    TssSlot.all.flatMap fun k =>
      [.add 64 (obase32.setWidth 64) (BitVec.ofNat 64 k.offset), .mayEnd]

/-- Step 6 of `task_switch`; CR3 is read with paging only. -/
def readImageSteps (d : BxDescriptor) : List CheckedStep :=
  let nbase32 := d.tssBase
  if d.isTss286 then
    (TssSlot.all286.flatMap fun k => [.add 32 nbase32 (BitVec.ofNat 32 k.offset286), .mayEnd]) ++
      [.add 32 nbase32 42#32, .mayEnd]
  else
    (if r.pg then [.add 32 nbase32 0x1C#32, .mayEnd] else []) ++
      (TssSlot.all.flatMap fun k => [.add 32 nbase32 (BitVec.ofNat 32 k.offset), .mayEnd]) ++
      [.add 32 nbase32 0x60#32, .mayEnd, .add 32 nbase32 0x64#32, .mayEnd]

/-- `task_switch`. -/
def taskSwitchSteps (sel : Selector) (d : BxDescriptor) (source : BitVec 32) : List CheckedStep :=
  if d.u.segmentLimitScaled < d.newTssMax then []
  else if r.tr.cache.u.segmentLimitScaled < r.tr.cache.oldTssMax then []
  else
    (if source = bxTaskFromJump ∨ source = bxTaskFromIret then r.busySteps r.tr.selector else []) ++
    r.saveStateSteps ++
    -- the back link
    [.mayEnd] ++
    r.readImageSteps d ++
    (if 9#4 ≤ d.type ∧ r.cet ∧ source ≠ bxTaskFromIret then
      [.add 64 (d.tssBase.setWidth 64) 0x68#64, .mayEnd]
    else []) ++
    -- the shadow stack of the task that is left
    [.mayEnd] ++
    (if source ≠ bxTaskFromIret then r.busySteps sel else [])

/-- `iret_protected`: with NT a task switch, otherwise a frame of three dwords, or of five
for a return to an outer level. -/
def iretProtectedSteps : List CheckedStep :=
  let tempEsp := if r.stack32 then r.rsp.setWidth 32 else (r.rsp.setWidth 16).setWidth 32
  if r.nt then [.mayEnd]
  else
    [.mayEnd, .add 32 tempEsp 4#32, .mayEnd, .add 32 tempEsp 8#32, .mayEnd,
      -- the return to an outer level
      .mayEnd, .add 32 tempEsp 12#32, .mayEnd, .add 32 tempEsp 16#32, .mayEnd]

def steps : DeliveryCall → List CheckedStep
  | .fetchRawDescriptor sel => r.fetchRawDescriptorSteps sel
  | .protectedModeInt vector => r.protectedModeIntSteps vector
  | .longModeInt vector ist pushError rspForCpl =>
    r.longModeIntSteps vector ist pushError rspForCpl
  | .taskSwitch sel d source => r.taskSwitchSteps sel d source
  | .iretProtected => r.iretProtectedSteps

/-! ## When the sums fit -/

/-- The sums of a call fit their types. -/
def SumsFit : DeliveryCall → Prop
  | .fetchRawDescriptor sel =>
    if ¬ sel.ti then
      8 * sel.index.toNat + 7 ≤ r.gdtr.limit.toNat →
        r.gdtr.base.toNat + 8 * sel.index.toNat < 2 ^ 64
    else
      r.ldtr.cache.valid.valid →
        8 * sel.index.toNat + 7 ≤ r.ldtr.cache.u.segmentLimitScaled.toNat →
        r.ldtr.cache.u.segmentBase.toNat + 8 * sel.index.toNat < 2 ^ 64
  | .protectedModeInt vector =>
    8 * vector.toNat + 7 ≤ r.idtr.limit.toNat → r.idtr.base.toNat + 8 * vector.toNat < 2 ^ 64
  | .longModeInt vector _ _ rspForCpl =>
    16 * vector.toNat + 15 ≤ r.idtr.limit.toNat →
      r.idtr.base.toNat + 16 * vector.toNat + 8 < 2 ^ 64 ∧ 48 ≤ rspForCpl.toNat
  | .taskSwitch sel d source =>
    d.newTssMax ≤ d.u.segmentLimitScaled →
      r.tr.cache.oldTssMax ≤ r.tr.cache.u.segmentLimitScaled →
      (source = bxTaskFromJump ∨ source = bxTaskFromIret →
        r.gdtr.base.toNat + 8 * r.tr.selector.index.toNat + 4 < 2 ^ 64) ∧
      (source ≠ bxTaskFromIret → r.gdtr.base.toNat + 8 * sel.index.toNat + 4 < 2 ^ 64) ∧
      (r.tr.cache.isTss286 → r.tr.cache.tssBase.toNat + 40 < 2 ^ 32) ∧
      d.tssBase.toNat + (if d.isTss286 then 42 else 0x64) < 2 ^ 32
  | .iretProtected => r.nt ∨ ¬ r.stack32 ∨ (r.rsp.setWidth 32).toNat + 16 < 2 ^ 32

end DeliveryRegs

section Fits

variable (r : DeliveryRegs)

theorem forall_guarded {c : Prop} [Decidable c] {l : List CheckedStep} :
    (∀ s ∈ if c then [] else l, s.InRange) ↔ (¬ c → ∀ s ∈ l, s.InRange) := by
  split <;> simp_all

theorem fetchRawDescriptor_fits (sel : Selector) :
    (∀ s ∈ r.fetchRawDescriptorSteps sel, s.InRange) ↔ r.SumsFit (.fetchRawDescriptor sel) := by
  unfold DeliveryRegs.fetchRawDescriptorSteps DeliveryRegs.SumsFit
  dsimp only
  split
  case isTrue =>
    simp only [List.forall_mem_cons, forall_guarded]
    simp [BitVec.lt_def]
    omega
  case isFalse =>
    split
    case isTrue hvalid => simp [hvalid]
    case isFalse hvalid =>
      rw [not_not] at hvalid
      simp only [List.forall_mem_cons, forall_guarded]
      simp [BitVec.lt_def, hvalid]
      omega

theorem protectedModeInt_fits (vector : BitVec 8) :
    (∀ s ∈ r.protectedModeIntSteps vector, s.InRange) ↔ r.SumsFit (.protectedModeInt vector) := by
  unfold DeliveryRegs.protectedModeIntSteps DeliveryRegs.SumsFit
  simp only [List.forall_mem_cons, forall_guarded]
  simp [BitVec.lt_def]
  omega

/-- The frame fits below a stack pointer of at least 48: it is aligned to 16 first. -/
theorem longModeFrame_fits (pushError : Bool) (rspForCpl : BitVec 64) :
    (∀ s ∈ DeliveryRegs.longModeFrameSteps pushError rspForCpl, s.InRange) ↔
      48 ≤ rspForCpl.toNat := by
  have halign : (rspForCpl &&& ~~~0xF#64).toNat = 16 * (rspForCpl.toNat / 16) := by
    have hshift : rspForCpl &&& ~~~0xF#64 = (rspForCpl >>> 4) <<< 4 := by
      apply BitVec.eq_of_getLsbD_eq
      intro i hi
      interval_cases i <;> simp
    rw [hshift, BitVec.toNat_shiftLeft, BitVec.toNat_ushiftRight]
    omega
  unfold DeliveryRegs.longModeFrameSteps
  generalize hrsp : rspForCpl &&& ~~~0xF#64 = rsp at halign ⊢
  cases pushError <;> simp [BitVec.toNat_sub] <;> omega

theorem istSteps_fit (ist : BitVec 3) : ∀ s ∈ DeliveryRegs.istSteps ist, s.InRange := by
  unfold DeliveryRegs.istSteps
  split
  · simp
    omega
  · simp

theorem longModeInt_fits (vector : BitVec 8) (ist : BitVec 3) (pushError : Bool)
    (rspForCpl : BitVec 64) :
    (∀ s ∈ r.longModeIntSteps vector ist pushError rspForCpl, s.InRange) ↔
      r.SumsFit (.longModeInt vector ist pushError rspForCpl) := by
  unfold DeliveryRegs.longModeIntSteps DeliveryRegs.SumsFit
  simp only [List.forall_mem_cons, forall_guarded, List.forall_mem_append, longModeFrame_fits,
    iff_true_intro (istSteps_fit ist)]
  simp [BitVec.lt_def]
  omega

/-! ### Task switches -/

theorem forall_slots {ks : List TssSlot} {f : TssSlot → CheckedStep} :
    (∀ s ∈ ks.flatMap fun k => [f k, .mayEnd], s.InRange) ↔ ∀ k ∈ ks, (f k).InRange := by
  simp only [List.mem_flatMap, List.mem_cons, List.not_mem_nil, or_false, forall_exists_index,
    and_imp]
  constructor
  · intro h k hk
    exact h _ k hk (.inl rfl)
  · rintro h s k hk (rfl | rfl)
    · exact h k hk
    · trivial

theorem slots286_fit {base : BitVec 32} :
    (∀ k ∈ TssSlot.all286, (CheckedStep.add 32 base (BitVec.ofNat 32 k.offset286)).InRange) ↔
      base.toNat + 40 < 2 ^ 32 := by
  have hoff : ∀ k ∈ TssSlot.all286, (BitVec.ofNat 32 k.offset286).toNat ≤ 40 := by decide
  constructor
  · intro h
    exact h (.seg .ds) (by decide)
  · intro h k hk
    have := hoff k hk
    rw [CheckedStep.inRange_add]
    omega

theorem slots_fit {base : BitVec 32} (h : base.toNat + 0x64 < 2 ^ 32) :
    ∀ k ∈ TssSlot.all, (CheckedStep.add 32 base (BitVec.ofNat 32 k.offset)).InRange := by
  have hoff : ∀ k ∈ TssSlot.all, (BitVec.ofNat 32 k.offset).toNat ≤ 0x64 := by decide
  intro k hk
  have := hoff k hk
  rw [CheckedStep.inRange_add]
  omega

theorem saveState_fits :
    (∀ s ∈ r.saveStateSteps, s.InRange) ↔
      (r.tr.cache.isTss286 → r.tr.cache.tssBase.toNat + 40 < 2 ^ 32) := by
  unfold DeliveryRegs.saveStateSteps
  split
  case isTrue h286 => simp only [forall_slots, slots286_fit, h286, true_imp_iff]
  case isFalse h286 =>
    rw [forall_slots]
    refine iff_of_true (fun k hk => ?_) fun h => absurd h h286
    have hoff : ∀ k ∈ TssSlot.all, (BitVec.ofNat 64 k.offset).toNat ≤ 0x64 := by decide
    have := hoff k hk
    rw [CheckedStep.inRange_add, BitVec.toNat_setWidth_of_le (by omega)]
    omega

theorem readImage_fits (d : BxDescriptor) :
    (∀ s ∈ r.readImageSteps d, s.InRange) ↔
      d.tssBase.toNat + (if d.isTss286 then 42 else 0x64) < 2 ^ 32 := by
  unfold DeliveryRegs.readImageSteps
  by_cases h286 : d.isTss286
  · rw [if_pos h286, if_pos h286, List.forall_mem_append, forall_slots, slots286_fit]
    simp
    omega
  · rw [if_neg h286, if_neg h286]
    constructor
    · intro h
      exact h (.add 32 d.tssBase 0x64#32) (by simp)
    · intro h
      have hcr3 : ∀ s ∈ (if r.pg then [.add 32 d.tssBase 0x1C#32, .mayEnd] else [] :
          List CheckedStep), s.InRange := by
        split
        · simp
          omega
        · simp
      refine List.forall_mem_append.mpr ⟨List.forall_mem_append.mpr
        ⟨hcr3, forall_slots.mpr (slots_fit h)⟩, ?_⟩
      simp
      omega

theorem busy_fits (sel : Selector) :
    (∀ s ∈ r.busySteps sel, s.InRange) ↔ r.gdtr.base.toNat + 8 * sel.index.toNat + 4 < 2 ^ 64 := by
  unfold DeliveryRegs.busySteps
  simp
  omega

theorem forall_when {c : Prop} [Decidable c] {l : List CheckedStep} :
    (∀ s ∈ if c then l else [], s.InRange) ↔ (c → ∀ s ∈ l, s.InRange) := by
  split <;> simp_all

theorem taskSwitch_fits (sel : Selector) (d : BxDescriptor) (source : BitVec 32) :
    (∀ s ∈ r.taskSwitchSteps sel d source, s.InRange) ↔ r.SumsFit (.taskSwitch sel d source) := by
  have hssp : d.tssBase.toNat % 2 ^ 64 + 0x68 < 2 ^ 64 := by omega
  unfold DeliveryRegs.taskSwitchSteps DeliveryRegs.SumsFit
  simp only [forall_guarded, List.forall_mem_append, forall_when, busy_fits,
    saveState_fits, readImage_fits]
  simp
  tauto

theorem iretProtected_fits :
    (∀ s ∈ r.iretProtectedSteps, s.InRange) ↔ r.SumsFit .iretProtected := by
  unfold DeliveryRegs.iretProtectedSteps DeliveryRegs.SumsFit
  by_cases hnt : r.nt
  · simp [hnt]
  · by_cases h32 : r.stack32
    · simp [hnt, h32]
      omega
    · simp [hnt, h32]
      omega

end Fits

/-- Wherever a call ends, it does not panic: exactly when the tables, task-state segments and
stacks it adds to lie far enough from the ends of the address space. -/
theorem delivery_arithmetic_panic_free_iff (r : DeliveryRegs) (c : DeliveryCall) :
    (∀ goesOn, panics (r.steps c) goesOn = false) ↔ r.SumsFit c := by
  rw [forall_not_panics_iff]
  cases c with
  | fetchRawDescriptor sel => exact fetchRawDescriptor_fits r sel
  | protectedModeInt vector => exact protectedModeInt_fits r vector
  | longModeInt vector ist pushError rspForCpl =>
    exact longModeInt_fits r vector ist pushError rspForCpl
  | taskSwitch sel d source => exact taskSwitch_fits r sel d source
  | iretProtected => exact iretProtected_fits r

/-- Tables, a TSS and a stack at the top of the address space. -/
def topRegs : DeliveryRegs where
  gdtr := ⟨0xFFFFFFFFFFFFFFF0#64, 0xFFFF#16⟩
  idtr := ⟨0xFFFFFFFFFFFFFF00#64, 0xFFF#16⟩
  ldtr := ⟨parseSelector 0x18#16, parseDescriptor 0xFFF0FFFF#32 0xFF0082FF#32⟩
  tr := ⟨parseSelector 0x20#16, parseDescriptor 0x00000067#32 0x00008B00#32⟩
  rsp := 0xFFFFFFFC#64
  stack32 := true
  pg := true
  cet := false
  nt := false

/-- The descriptor of a 386 TSS that runs past 4 GiB. -/
def topTss : BxDescriptor := parseDescriptor 0xFFF00067#32 0xFF0089FF#32

/-- LGDT and LIDT accept the bases, and every one of the functions panics. -/
theorem top_of_memory_panics :
    isCanonicalToWidth topRegs.gdtr.base 48 ∧ isCanonicalToWidth topRegs.idtr.base 48 ∧
      panics (topRegs.steps (.fetchRawDescriptor (parseSelector 0x10#16))) [] ∧
      panics (topRegs.steps (.protectedModeInt 0x20#8)) [] ∧
      panics (topRegs.steps (.longModeInt 0#8 0#3 false 0#64)) [] ∧
      panics (topRegs.steps (.taskSwitch (parseSelector 0x28#16) topTss bxTaskFromCall)) [] ∧
      panics (topRegs.steps .iretProtected) [] := by
  decide +kernel

end RustyBox
