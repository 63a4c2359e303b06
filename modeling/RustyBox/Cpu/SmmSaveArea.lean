-- SUMMARY: The SMM save area reads back what was stored, and what RSM accepts and loads from it.
import RustyBox.Cpu.Smm
import RustyBox.Cpu.ControlLegal
import Mathlib.Data.List.Nodup

/-!
# The SMM save area

The dwords of the save area are read back as they were written, except those that cross a
page, which the memory system drops and reads as zero. A segment register packed into its
four dwords is unpacked again; `ImageAccepted` are the checks of `smram_restore_state`,
and `SmmProc.loaded` is the processor it leaves behind.
-/

namespace RustyBox

open Lib Function BitVec SmramImage

/-! ## The save area -/

namespace SmramField

theorem mem_all (fld : SmramField) : fld ∈ all := by
  cases fld with
  | gprHi n | gpr n => simp [all]
  | gdtr part | idtr part | tr part | ldtr part => cases part <;> decide +kernel
  | seg r part => cases r <;> cases part <;> decide +kernel
  | _ => decide +kernel

theorem nodup_index_all : (all.map index).Nodup := by decide +kernel

theorem index_injective : Injective index :=
  fun a b h => List.inj_on_of_nodup_map nodup_index_all (mem_all a) (mem_all b) h

end SmramField

theorem get_smramSaveState (s : SmmProc) (fld : SmramField) :
    s.smramSaveState.get fld = s.dword fld := by
  unfold SmmProc.smramSaveState SmramImage.get
  refine read_foldl_of_mem (r := fun im : SmramImage => im fld.index) ?_ ?_ fld.mem_all 0
  · exact fun im => update_self ..
  · intro im fld' hne
    exact update_of_ne (fun h => hne (SmramField.index_injective h.symm)) ..

section Memory

variable {m : Machine}

theorem toNat_smramDwordAddr (smbase : BitVec 32) (i : Fin 128) :
    (smramDwordAddr smbase i).toNat = smbase.toNat + 0x10000 - 4 * (i + 1) := by
  unfold smramDwordAddr
  simp only [toNat_sub, toNat_add, toNat_setWidth, toNat_ofNat]
  omega

/-- Two dwords of the save area that are stored do not overlap, wherever A20 puts them. -/
theorem smramDword_disjoint {smbase : BitVec 32} {i j : Fin 128} (hij : i ≠ j) :
    (m.applyA20 (smramDwordAddr smbase j)).toNat + 4 ≤ (m.applyA20 (smramDwordAddr smbase i)).toNat ∨
      (m.applyA20 (smramDwordAddr smbase i)).toNat + 4 ≤
        (m.applyA20 (smramDwordAddr smbase j)).toNat := by
  simp only [Machine.toNat_applyA20, toNat_smramDwordAddr]
  split <;> omega

theorem readSaveArea_writeSaveArea (smbase : BitVec 32) (im : SmramImage) (ram : Nat → BitVec 8)
    (i : Fin 128) :
    readSaveArea m smbase (writeSaveArea m smbase im ram) i =
      if crossesPage (smramDwordAddr smbase i) then 0 else im i := by
  by_cases hi : crossesPage (smramDwordAddr smbase i)
  · rw [if_pos hi]
    exact if_pos hi
  rw [if_neg hi]
  refine read_foldl_of_mem (r := fun ram => readSaveArea m smbase ram i) ?_ ?_
    (List.mem_finRange i) ram
  · intro ram
    unfold readSaveArea smramReadPhysicalDword smramWritePhysicalDword
    rw [if_neg hi, if_neg hi]
    exact load_store_self (n := 4) ..
  · intro ram j hji
    unfold readSaveArea smramReadPhysicalDword smramWritePhysicalDword
    rw [if_neg hi]
    split
    case isTrue => rfl
    case isFalse => exact load_store_of_disjoint (smramDword_disjoint hji)

end Memory

/-! ## Words -/

section Words

variable (hi lo : BitVec 32) (v : BitVec 64)

@[simp] theorem hi32_append : hi32 (hi ++ lo) = hi := setWidth_append_ushiftRight hi lo

@[simp] theorem lo32_append : lo32 (hi ++ lo) = lo := setWidth_append_eq_right

theorem hi32_append_lo32 : hi32 v ++ lo32 v = v := append_of_setWidth (n := 32) (k := 32) v

theorem hi32_and_low : hi32 (v &&& 0xFFFFFFFF#64) = 0 := by
  unfold hi32
  rw [ushiftRight_and_distrib, show 0xFFFFFFFF#64 >>> 32 = 0#64 from rfl, and_zero]
  rfl

theorem lo32_and_low : lo32 (v &&& 0xFFFFFFFF#64) = lo32 v := by
  unfold lo32
  rw [setWidth_and]
  exact and_allOnes

theorem and_low_of_hi32 {v : BitVec 64} (h : hi32 v = 0) : v &&& 0xFFFFFFFF#64 = v := by
  rw [← hi32_append_lo32 (v &&& 0xFFFFFFFF#64), hi32_and_low, lo32_and_low, ← h, hi32_append_lo32]

end Words

theorem getElem_arBit {k : Nat} (c : Bool) (i : Nat) (hi : i < 16) :
    (arBit k c)[i] = (c && decide (k = i)) := by
  unfold arBit
  cases c <;> simp [eq_comm]

section Pack

variable (d : BxDescriptor)

theorem packSegAr_bits :
    (packSegAr d).getLsbD 4 = d.segment ∧ (packSegAr d).getLsbD 7 = d.p ∧
      (packSegAr d).getLsbD 8 = d.valid.nonzero ∧
      (packSegAr d).getLsbD 12 = d.u.segmentPart.avl ∧
      (packSegAr d).getLsbD 13 = d.u.segmentPart.l ∧
      (packSegAr d).getLsbD 14 = d.u.segmentPart.dB ∧
      (packSegAr d).getLsbD 15 = d.u.segmentPart.g := by
  simp [packSegAr, getElem_arBit]

theorem packSegAr_type : (packSegAr d).setWidth 4 = d.type := by
  ext i h
  interval_cases i <;> simp [packSegAr, getElem_arBit]

theorem packSegAr_dpl : (packSegAr d >>> 5).setWidth 2 = d.dpl := by
  ext i h
  interval_cases i <;> simp [packSegAr, getElem_arBit]

end Pack

/-! ## Segment registers -/

/-- The same selector, attributes, base, limit and validity. -/
structure SameSeg (r r' : BxSegmentReg) : Prop where
  selector : r'.selector.value = r.selector.value
  p : r'.cache.p = r.cache.p
  dpl : r'.cache.dpl = r.cache.dpl
  segment : r'.cache.segment = r.cache.segment
  type : r'.cache.type = r.cache.type
  valid : r'.cache.valid.nonzero = r.cache.valid.nonzero
  part : r'.cache.u.segmentPart = r.cache.u.segmentPart

section Segments

variable {r r' : BxSegmentReg} {im : SmramImage} {fld : SegPart → SmramField}
  {u : Descriptor} {g : DescriptorSegment → DescriptorSegment} {valid segment : Bool}
  {type : BitVec 4} {d : DescriptorSegment}

/-- The access-rights word of a saved register. -/
def SmramImage.ar (im : SmramImage) (fld : SegPart → SmramField) : BitVec 16 :=
  (im.get (fld .selectorAr) >>> 16).setWidth 16

/-- The descriptor fields of a saved register. -/
def SmramImage.segmentPart (im : SmramImage) (fld : SegPart → SmramField) : DescriptorSegment :=
  ⟨im.get64 (fld .baseHi) (fld .base), im.get (fld .limit), (im.ar fld).getLsbD 15,
    (im.ar fld).getLsbD 14, (im.ar fld).getLsbD 13, (im.ar fld).getLsbD 12⟩

theorem ar_of_get_zero (h0 : im.get (fld .selectorAr) = 0) : im.ar fld = 0 := by
  unfold ar
  rw [h0]
  rfl

theorem cache_u_restore : (r.restore im fld).cache.u =
    r.cache.u.setSegmentFields ((im.ar fld).getLsbD 8) ((im.ar fld).getLsbD 4)
      ((im.ar fld).setWidth 4) (im.segmentPart fld) := rfl

theorem segmentPart_setSegmentFields
    (hacc : valid → segment ∨ g = id ∧ isTssOrLdt type) :
    ((u.mapSegment g).setSegmentFields valid segment type u.segmentPart).segmentPart =
      u.segmentPart := by
  unfold Descriptor.setSegmentFields
  cases u with
  | segment s =>
    split_ifs with h1 h2
    · rfl
    · have hg : g = id := by simp_all
      rw [hg]
      rfl
    · simp_all
  | gate | taskGate => simp [Descriptor.mapSegment]

theorem nonzero_restore : (r.restore im fld).cache.valid.nonzero = (im.ar fld).getLsbD 8 := by
  simp [BxSegmentReg.restore, setSegmentArData, SegAccess.nonzero, ar]

theorem restore_congr (hu : r'.cache.u = r.cache.u) : r'.restore im fld = r.restore im fld := by
  simp only [BxSegmentReg.restore, setSegmentArData, hu]

/-- A register whose saved dwords are all read back is restored, unless it is a valid
system descriptor that the restore refuses. -/
theorem sameSeg_restore (him : ∀ part, im.get (fld part) = r.dword part)
    (hu : r'.cache.u = r.cache.u.mapSegment g)
    (hacc : r.cache.valid.nonzero → r.cache.segment ∨ g = id ∧ isTssOrLdt r.cache.type) :
    SameSeg r (r'.restore im fld) := by
  obtain ⟨hseg, hp, hvalid, havl, hl, hdb, hg⟩ := packSegAr_bits r.cache
  have hsel : im.get (fld .selectorAr) = packSegAr r.cache ++ r.selector.value := him _
  have hbase : im.get64 (fld .baseHi) (fld .base) = r.cache.u.segmentBase := by
    unfold get64
    rw [him, him]
    exact hi32_append_lo32 _
  have hlimit : im.get (fld .limit) = r.cache.u.segmentLimitScaled := him _
  have har : im.ar fld = packSegAr r.cache := by
    unfold ar
    rw [hsel]
    exact setWidth_append_ushiftRight ..
  have hval : (im.get (fld .selectorAr)).setWidth 16 = r.selector.value := by
    rw [hsel]
    exact setWidth_append_eq_right
  refine ⟨hval, ?_, ?_, ?_, ?_, ?_, ?_⟩
  · exact (congrArg (getLsbD · 7) har).trans hp
  · exact (congrArg (fun ar : BitVec 16 => (ar >>> 5).setWidth 2) har).trans (packSegAr_dpl _)
  · exact (congrArg (getLsbD · 4) har).trans hseg
  · exact (congrArg (setWidth 4) har).trans (packSegAr_type _)
  · rw [nonzero_restore, har, hvalid]
  · have hpart : im.segmentPart fld = r.cache.u.segmentPart := by
      unfold segmentPart
      rw [har, hg, hdb, hl, havl, hbase, hlimit]
      rfl
    rw [cache_u_restore, hpart, har, hvalid, hseg, packSegAr_type, hu]
    exact segmentPart_setSegmentFields hacc

/-- Restored descriptor fields that agree with the ones the register had were taken from the
image, if the register has such fields at all. -/
theorem eq_of_segmentPart_setSegmentFields (hacc : valid → segment ∨ isTssOrLdt type)
    (h : ((u.mapSegment g).setSegmentFields valid segment type d).segmentPart = u.segmentPart) :
    u.segmentPart = ⟨0, 0, false, false, false, false⟩ ∨
      ∃ l, u.segmentPart = { d with l := l } ∧ (¬ valid → l = d.l) := by
  unfold Descriptor.setSegmentFields at h
  cases u with
  | segment s =>
    right
    split_ifs at h with h1 h2
    · exact ⟨d.l, h.symm, fun _ => rfl⟩
    · refine ⟨_, h.symm, fun hv => ?_⟩
      simp_all
    · simp_all
  | gate | taskGate => exact .inl rfl

/-- A base or limit dword that is read back as zero was zero. -/
theorem dword_eq_zero_of_part
    (hpart : (r'.restore im fld).cache.u.segmentPart = r.cache.u.segmentPart)
    (hu : r'.cache.u = r.cache.u.mapSegment g)
    (hacc : (im.ar fld).getLsbD 8 → (im.ar fld).getLsbD 4 ∨ isTssOrLdt ((im.ar fld).setWidth 4))
    {part : SegPart} (hne : part ≠ .selectorAr) (h0 : im.get (fld part) = 0) :
    r.dword part = 0 := by
  rw [cache_u_restore, hu] at hpart
  rcases eq_of_segmentPart_setSegmentFields hacc hpart with h | ⟨l, h, -⟩
  · cases part <;>
      simp [BxSegmentReg.dword, Descriptor.segmentBase, Descriptor.segmentLimitScaled, h, hi32, lo32]
        at hne ⊢
  · cases part <;>
      simp [BxSegmentReg.dword, Descriptor.segmentBase, Descriptor.segmentLimitScaled, h,
        segmentPart, get64, h0] at hne ⊢

/-- What is left of the selector and access-rights dword of a register that is restored from
a zero one, except for P, S and the type. -/
theorem selectorAr_of_restore_zero (h0 : im.get (fld .selectorAr) = 0)
    (hu : r'.cache.u = r.cache.u.mapSegment g)
    (hsel : (r'.restore im fld).selector.value = r.selector.value)
    (hdpl : (r'.restore im fld).cache.dpl = r.cache.dpl)
    (hvalid : (r'.restore im fld).cache.valid.nonzero = r.cache.valid.nonzero)
    (hpart : (r'.restore im fld).cache.u.segmentPart = r.cache.u.segmentPart) :
    r.dword .selectorAr =
      (r.cache.type.setWidth 16 ||| arBit 4 r.cache.segment ||| arBit 7 r.cache.p) ++ 0#16 := by
  have har := ar_of_get_zero h0
  have hsel' : r.selector.value = 0 := by
    rw [← hsel]
    show (im.get (fld .selectorAr)).setWidth 16 = 0
    rw [h0]
    rfl
  have hdpl' : r.cache.dpl = 0 := by
    rw [← hdpl]
    show (im.ar fld >>> 5).setWidth 2 = 0
    rw [har]
    rfl
  have hvalid' : r.cache.valid.nonzero = false := by
    rw [← hvalid, nonzero_restore, har]
    rfl
  rw [cache_u_restore, hu, har] at hpart
  have hbits : r.cache.u.segmentPart.avl = false ∧ r.cache.u.segmentPart.l = false ∧
      r.cache.u.segmentPart.dB = false ∧ r.cache.u.segmentPart.g = false := by
    rcases eq_of_segmentPart_setSegmentFields (by simp) hpart with h | ⟨l, h, hl⟩
    · simp [h]
    · simp [h, hl, segmentPart, har]
  obtain ⟨havl, hl, hdb, hg⟩ := hbits
  simp [BxSegmentReg.dword, packSegAr, hsel', hdpl', hvalid', havl, hl, hdb, hg, arBit]

theorem selectorAr_eq_zero (h0 : im.get (fld .selectorAr) = 0)
    (hu : r'.cache.u = r.cache.u.mapSegment g) (h : SameSeg r (r'.restore im fld)) :
    r.dword .selectorAr = 0 := by
  have har := ar_of_get_zero h0
  have hp : r.cache.p = false := by
    rw [← h.p]
    exact congrArg (getLsbD · 7) har
  have hsegment : r.cache.segment = false := by
    rw [← h.segment]
    exact congrArg (getLsbD · 4) har
  have htype : r.cache.type = 0 := by
    rw [← h.type]
    exact congrArg (setWidth 4) har
  rw [selectorAr_of_restore_zero h0 hu h.selector h.dpl h.valid h.part, hp, hsegment, htype]
  rfl

/-- The bits of the selector and access-rights dword besides P, S and the type. -/
theorem of_selectorAr_masked (h : r.dword .selectorAr &&& ~~~0x9F0000#32 = 0) :
    r.selector.value = 0 ∧ r.cache.dpl = 0 ∧ r.cache.valid.nonzero = false ∧
      r.cache.u.segmentPart.avl = false ∧ r.cache.u.segmentPart.l = false ∧
      r.cache.u.segmentPart.dB = false ∧ r.cache.u.segmentPart.g = false := by
  obtain ⟨hseg, hp, hvalid, havl, hl, hdb, hg⟩ := packSegAr_bits r.cache
  have hbit (i : Nat) (hm : (~~~0x9F0000#32).getLsbD i) :
      (if i < 16 then r.selector.value.getLsbD i else (packSegAr r.cache).getLsbD (i - 16)) =
        false := by
    have hzero : (r.dword .selectorAr &&& ~~~0x9F0000#32).getLsbD i = (0#32).getLsbD i := by
      rw [h]
      rfl
    rw [getLsbD_and, hm, Bool.and_true, getLsbD_zero] at hzero
    exact BitVec.getLsbD_append.symm.trans hzero
  refine ⟨?_, ?_, ?_, ?_, ?_, ?_, ?_⟩
  · apply eq_of_getLsbD_eq
    intro i hi
    have hm : ∀ i < 16, (~~~0x9F0000#32).getLsbD i := by decide
    simpa [hi] using hbit i (hm i hi)
  · rw [← packSegAr_dpl]
    have h5 := hbit 21 (by decide)
    have h6 := hbit 22 (by decide)
    ext i hi
    interval_cases i
    · simpa using h5
    · simpa using h6
  · exact hvalid.symm.trans (hbit 24 (by decide))
  · exact havl.symm.trans (hbit 28 (by decide))
  · exact hl.symm.trans (hbit 29 (by decide))
  · exact hdb.symm.trans (hbit 30 (by decide))
  · exact hg.symm.trans (hbit 31 (by decide))

end Segments

/-! ## What the restore accepts and loads -/

section Restore

variable {c : SmmMachine} {f : Features} {e : Surroundings} {image : ControlImage}
  {im : SmramImage}

theorem run_restoreControl_ok {s s' : ControlRegs} (hs : s.inSmm = false) :
    (restoreControl f e image).run s = .ok () s' ↔
      (image.refusedUnloaded f = false ∧ image.refusedAfterEfer f = false ∧
        image.regs.imageRefused e image = false) ∧ s' = image.regs := by
  have hregs : { s with
      efer := image.efer
      cr0 := Cr0.set32 image.cr0
      cr4 := image.cr4
      cr3 := image.cr3 } = image.regs := by
    simp [ControlImage.regs, hs]
  unfold restoreControl
  by_cases h1 : image.refusedUnloaded f = true
  · simp [h1]
  rw [if_neg h1, run_modify_bind]
  by_cases h2 : image.refusedAfterEfer f = true
  · simp [h2]
  rw [if_neg h2, run_modify_bind, run_get_bind, hregs]
  by_cases h3 : image.regs.imageRefused e image = true
  · simp [h3]
  · simp [h1, h2, h3, eq_comm]

/-- The loop over the segment registers succeeds when none of them is refused. -/
theorem run_restoreSegs_ok {l : List SegReg} (hl : l.Nodup) {s s' : SmmProc} :
    (restoreSegs im l).run s = .ok () s' ↔
      (∀ seg ∈ l, (im.ar (.seg seg)).getLsbD 8 → (im.ar (.seg seg)).getLsbD 4) ∧
        s' = { s with
          sregs := fun r => if r ∈ l then (s.sregs r).restore im (.seg r) else s.sregs r } := by
  induction l generalizing s with
  | nil =>
    simp only [List.not_mem_nil, false_imp_iff, implies_true, true_and]
    exact ⟨fun h => by cases h; rfl, fun h => by cases h; rfl⟩
  | cons seg l ih =>
    obtain ⟨hseg, hl⟩ := List.nodup_cons.mp hl
    unfold restoreSegs
    rw [run_get_bind]
    rw [run_set_bind, nonzero_restore]
    have hsegment : ((s.sregs seg).restore im (.seg seg)).cache.segment =
        (im.ar (.seg seg)).getLsbD 4 := rfl
    rw [hsegment]
    split
    case isTrue h =>
      simp_all
    case isFalse h =>
      have hok : (im.ar (.seg seg)).getLsbD 8 → (im.ar (.seg seg)).getLsbD 4 := by simpa using h
      rw [ih hl, List.forall_mem_cons, and_iff_right hok]
      have hsregs : (fun r => if r ∈ l then
          (update s.sregs seg ((s.sregs seg).restore im (.seg seg)) r).restore im (.seg r)
          else update s.sregs seg ((s.sregs seg).restore im (.seg seg)) r) =
          fun r => if r ∈ seg :: l then (s.sregs r).restore im (.seg r) else s.sregs r := by
        funext r
        by_cases hr : r = seg
        · subst hr
          simp [hseg]
        · simp [hr]
      rw [hsregs]

/-- The image passes all checks of `smram_restore_state`. -/
structure ImageAccepted (f : Features) (e : Surroundings) (im : SmramImage) : Prop where
  unloaded : im.control.refusedUnloaded f = false
  afterEfer : im.control.refusedAfterEfer f = false
  regs : im.control.regs.imageRefused e im.control = false
  segs : ∀ r, (im.ar (.seg r)).getLsbD 8 → (im.ar (.seg r)).getLsbD 4
  ldtr : (im.ar .ldtr).getLsbD 8 → (im.ar .ldtr).setWidth 4 = 2#4
  tr : (im.ar .tr).getLsbD 8 → isTss ((im.ar .tr).setWidth 4)

/-- The processor with everything loaded from an image, before the context switch. -/
def SmmProc.loaded (s : SmmProc) (im : SmramImage) : SmmProc :=
  let t := ({ s with cr := im.control.regs }.setEflagsInternal (im.get .eflags)).loadRegs im
  { t with
    sregs := fun r => (t.sregs r).restore im (.seg r)
    ldtr := t.ldtr.restore im .ldtr
    tr := t.tr.restore im .tr
    smbase := im.get .smbase }

theorem run_restoreLdtr_ok {s s' : SmmProc} :
    (restoreLdtr im).run s = .ok () s' ↔
      ((im.ar .ldtr).getLsbD 8 → (im.ar .ldtr).setWidth 4 = 2#4) ∧
        s' = { s with ldtr := s.ldtr.restore im .ldtr } := by
  unfold restoreLdtr
  rw [run_get_bind]
  rw [run_set_bind, nonzero_restore, run_guard_ok]
  rw [show (s.ldtr.restore im .ldtr).cache.type = (im.ar .ldtr).setWidth 4 from rfl]
  simp

theorem run_restoreTr_ok {s s' : SmmProc} :
    (restoreTr im).run s = .ok () s' ↔
      ((im.ar .tr).getLsbD 8 → isTss ((im.ar .tr).setWidth 4)) ∧
        s' = { s with tr := s.tr.restore im .tr } := by
  unfold restoreTr
  rw [run_get_bind]
  rw [run_set_bind, nonzero_restore, run_guard_ok]
  rw [show (s.tr.restore im .tr).cache.type = (im.ar .tr).setWidth 4 from rfl]
  simp

theorem run_smramRestoreState_ok {s s' : SmmProc} (hs : s.cr.inSmm = false) :
    (smramRestoreState c im).run s = .ok () s' ↔
      ImageAccepted c.features (s.surroundings c) im ∧ s' = (s.loaded im).finishContextSwitch := by
  have hall (r : SegReg) : r ∈ [SegReg.es, .cs, .ss, .ds, .fs, .gs] := by cases r <;> decide
  unfold smramRestoreState
  rw [run_get_bind, run_bind_ok]
  constructor
  · rintro ⟨_, s₁, hcontrol, hrest⟩
    obtain ⟨cr, hcr, rfl⟩ := run_zoom_ok.mp hcontrol
    obtain ⟨⟨h1, h2, h3⟩, rfl⟩ := (run_restoreControl_ok hs).mp hcr
    rw [run_modify_bind, run_bind_ok] at hrest
    obtain ⟨_, s₂, hsegs, hrest⟩ := hrest
    obtain ⟨h4, rfl⟩ := (run_restoreSegs_ok (by decide)).mp hsegs
    rw [run_bind_ok] at hrest
    obtain ⟨_, s₃, hldtr, hrest⟩ := hrest
    obtain ⟨h5, rfl⟩ := run_restoreLdtr_ok.mp hldtr
    rw [run_bind_ok] at hrest
    obtain ⟨_, s₄, htr, hrest⟩ := hrest
    obtain ⟨h6, rfl⟩ := run_restoreTr_ok.mp htr
    refine ⟨⟨h1, h2, h3, fun r => h4 r (hall r), h5, h6⟩, ?_⟩
    cases hrest
    simp only [hall]
    rfl
  · rintro ⟨⟨h1, h2, h3, h4, h5, h6⟩, rfl⟩
    refine ⟨(), _, run_zoom_of_ok ((run_restoreControl_ok hs).mpr ⟨⟨h1, h2, h3⟩, rfl⟩), ?_⟩
    rw [run_modify_bind, run_bind_ok]
    refine ⟨(), _, (run_restoreSegs_ok (by decide)).mpr ⟨fun r _ => h4 r, rfl⟩, ?_⟩
    rw [run_bind_ok]
    refine ⟨(), _, run_restoreLdtr_ok.mpr ⟨h5, rfl⟩, ?_⟩
    rw [run_bind_ok]
    refine ⟨(), _, run_restoreTr_ok.mpr ⟨h6, rfl⟩, ?_⟩
    simp only [hall]
    rfl

/-- The processor as `rsm` hands it to the restore. -/
def SmmProc.released (s : SmmProc) : SmmProc :=
  { s.unmaskEvent smmHeldEvents with cr := { s.cr with inSmm := false } }

end Restore

end RustyBox
