-- SUMMARY: RSM right after an SMI gives back the interrupted state exactly when it is resumable.
import RustyBox.Cpu.SmmSaveArea

/-!
# SMI followed by RSM

What RSM as the first instruction of the handler loads is the interrupted state again if
no dword of the save area is lost, if the image passes the checks of the restore, and if no
register is forced to another value on the way: the SMI clears CR4.VMXE before it saves
CR4, RSM unblocks NMIs whatever their state was, and the mode recomputation at the end
truncates RIP and RSP in compatibility mode and sets the attributes of CS in real mode.
`Resumable` collects these conditions, and they are exact.
-/

namespace RustyBox

open Lib BitVec

/-! ## What the recomputations leave alone -/

structure Kept (s s' : SmmProc) : Prop where
  cr : s'.cr = s.cr
  ssp : s'.ssp = s.ssp
  dr6 : s'.dr6 = s.dr6
  dr7 : s'.dr7 = s.dr7
  gdtr : s'.gdtr = s.gdtr
  idtr : s'.idtr = s.idtr
  smbase : s'.smbase = s.smbase
  ldtr : s'.ldtr = s.ldtr
  tr : s'.tr = s.tr
  ram : s'.ram = s.ram
  nmi : s'.nmiBlocked = s.nmiBlocked
  u : ∀ r, (s'.sregs r).cache.u = (s.sregs r).cache.u

theorem Kept.trans {s₁ s₂ s₃ : SmmProc} (h : Kept s₁ s₂) (h' : Kept s₂ s₃) : Kept s₁ s₃ where
  cr := h'.cr.trans h.cr
  ssp := h'.ssp.trans h.ssp
  dr6 := h'.dr6.trans h.dr6
  dr7 := h'.dr7.trans h.dr7
  gdtr := h'.gdtr.trans h.gdtr
  idtr := h'.idtr.trans h.idtr
  smbase := h'.smbase.trans h.smbase
  ldtr := h'.ldtr.trans h.ldtr
  tr := h'.tr.trans h.tr
  ram := h'.ram.trans h.ram
  nmi := h'.nmi.trans h.nmi
  u r := (h'.u r).trans (h.u r)

theorem Kept.ite {s s₁ s₂ : SmmProc} {c : Prop} [Decidable c] (h₁ : Kept s s₁) (h₂ : Kept s s₂) :
    Kept s (if c then s₁ else s₂) := by
  split
  · exact h₁
  · exact h₂

namespace SmmProc

variable (s : SmmProc)

/-- Compatibility mode, real mode. -/
def inCompat : Bool := s.cr.efer.lma && !(s.sregs .cs).cache.u.segmentL
def inReal : Bool := !s.cr.efer.lma && !s.cr.cr0.pe

theorem kept_handleInterruptMaskChange : Kept s s.handleInterruptMaskChange := by
  unfold handleInterruptMaskChange
  split
  · refine ⟨rfl, rfl, rfl, rfl, rfl, rfl, rfl, rfl, rfl, rfl, ?_, fun _ => rfl⟩
    simp [nmiBlocked, unmaskEvent, ifGatedEvents]
  · refine ⟨rfl, rfl, rfl, rfl, rfl, rfl, rfl, rfl, rfl, rfl, ?_, fun _ => rfl⟩
    simp [nmiBlocked, maskEvent, ifGatedEvents]

theorem kept_handleCpuModeChange : Kept s s.handleCpuModeChange := by
  unfold handleCpuModeChange
  dsimp only
  split_ifs <;>
    refine ⟨rfl, rfl, rfl, rfl, rfl, rfl, rfl, rfl, rfl, rfl, rfl, fun r => ?_⟩ <;>
    cases r <;> rfl

theorem kept_setEflagsInternal (new : BitVec 32) : Kept s (s.setEflagsInternal new) := by
  have hset (v : BitVec 32) : Kept s { s with eflags := v } :=
    ⟨rfl, rfl, rfl, rfl, rfl, rfl, rfl, rfl, rfl, rfl, rfl, fun _ => rfl⟩
  have hmask (v : BitVec 32) (b : Bool) :
      Kept s (if b then { s with eflags := v }.handleInterruptMaskChange
        else { s with eflags := v }) :=
    .ite ((hset v).trans (kept_handleInterruptMaskChange _)) (hset v)
  exact .ite ((hmask ..).trans (kept_handleCpuModeChange _)) (hmask ..)

theorem kept_finishContextSwitch : Kept s s.finishContextSwitch :=
  (kept_handleInterruptMaskChange s).trans (kept_handleCpuModeChange _)

@[simp] theorem handleInterruptMaskChange_frame : s.handleInterruptMaskChange.eflags = s.eflags ∧
    s.handleInterruptMaskChange.gpr = s.gpr ∧ s.handleInterruptMaskChange.rip = s.rip ∧
      s.handleInterruptMaskChange.sregs = s.sregs ∧ s.handleInterruptMaskChange.cr = s.cr := by
  unfold handleInterruptMaskChange
  split <;> exact ⟨rfl, rfl, rfl, rfl, rfl⟩

@[simp] theorem eflags_handleCpuModeChange : s.handleCpuModeChange.eflags = s.eflags := by
  unfold handleCpuModeChange
  dsimp only
  split_ifs <;> rfl

@[simp] theorem eflags_setEflagsInternal (new : BitVec 32) :
    (s.setEflagsInternal new).eflags =
      if s.cr.longMode then new &&& ~~~0x20000#32 else new := by
  unfold setEflagsInternal
  dsimp only
  split_ifs <;> simp

/-! ## The context switch -/

theorem eflags_finishContextSwitch : s.finishContextSwitch.eflags = s.eflags := by
  simp [finishContextSwitch]

theorem finishContextSwitch_truncates :
    (s.finishContextSwitch.gpr =
      if s.inCompat then Function.update s.gpr 4 (s.gpr 4 &&& 0xFFFFFFFF#64) else s.gpr) ∧
    s.finishContextSwitch.rip = if s.inCompat then s.rip &&& 0xFFFFFFFF#64 else s.rip := by
  unfold finishContextSwitch handleCpuModeChange inCompat
  split_ifs <;> simp_all [setCs]

/-- Real mode forces attributes on CS. -/
theorem cs_finishContextSwitch_of_real (h : s.inReal) :
    s.finishContextSwitch.sregs .cs =
      { selector := { (s.sregs .cs).selector with rpl := 0 }
        cache := { (s.sregs .cs).cache with p := true, segment := true, type := 3 } } := by
  unfold inReal at h
  unfold finishContextSwitch handleCpuModeChange
  simp_all [setCs]

theorem sameSeg_finishContextSwitch {r₀ : BxSegmentReg} {r : SegReg} (h : s.inReal → r ≠ .cs) :
    SameSeg r₀ (s.finishContextSwitch.sregs r) ↔ SameSeg r₀ (s.sregs r) := by
  unfold inReal at h
  have hsel : (s.finishContextSwitch.sregs r).selector.value = (s.sregs r).selector.value ∧
      (s.finishContextSwitch.sregs r).cache = (s.sregs r).cache := by
    unfold finishContextSwitch handleCpuModeChange
    simp only [handleInterruptMaskChange_frame]
    split_ifs <;> cases r <;> simp_all [setCs]
  constructor
  · rintro ⟨h1, h2, h3, h4, h5, h6, h7⟩
    simp only [hsel] at h1 h2 h3 h4 h5 h6 h7
    exact ⟨h1, h2, h3, h4, h5, h6, h7⟩
  · rintro ⟨h1, h2, h3, h4, h5, h6, h7⟩
    rw [← hsel.1] at h1
    rw [← hsel.2] at h2 h3 h4 h5 h6 h7
    exact ⟨h1, h2, h3, h4, h5, h6, h7⟩

/-! ## The processor at SMI entry -/

/-- The image `rsm` reads right after the SMI. -/
def readBack (m : Machine) : SmramImage :=
  readSaveArea m s.smbase (writeSaveArea m s.smbase s.leaveForSmm.smramSaveState s.ram)

theorem get_readBack (m : Machine) (fld : SmramField) :
    (s.readBack m).get fld =
      if crossesPage (smramDwordAddr s.smbase fld.index) then 0 else s.leaveForSmm.dword fld := by
  rw [← get_smramSaveState]
  exact readSaveArea_writeSaveArea ..

/-- The state in which SMM has been entered but the mode not yet recomputed. -/
structure Entered (m : Machine) (s s₁ : SmmProc) : Prop where
  inSmm : s₁.cr.inSmm = true
  smbase : s₁.smbase = s.smbase
  ram : s₁.ram = writeSaveArea m s.smbase s.leaveForSmm.smramSaveState s.ram
  ldtr : s₁.ldtr = s.ldtr
  tr : s₁.tr = s.tr
  u : ∀ r, ∃ d, (s₁.sregs r).cache.u = (s.sregs r).cache.u.mapSegment fun _ => d

theorem entered (m : Machine) : Entered m s (s.enterSystemManagementMode m) := by
  have hflags := kept_setEflagsInternal
    { s.leaveForSmm with ram := writeSaveArea m s.smbase s.leaveForSmm.smramSaveState s.ram } 2#32
  have hfinish := kept_finishContextSwitch
  unfold enterSystemManagementMode
  refine ⟨?_, ?_, ?_, ?_, ?_, fun r => ?_⟩
  · rw [(hfinish _).cr]
    rfl
  · exact (hfinish _).smbase.trans hflags.smbase
  · exact (hfinish _).ram.trans hflags.ram
  · exact (hfinish _).ldtr.trans hflags.ldtr
  · exact (hfinish _).tr.trans hflags.tr
  · rw [(hfinish _).u r]
    have hu := hflags.u r
    cases r <;> exact ⟨_, congrArg (Descriptor.mapSegment · fun _ => _) hu⟩

/-! ## The processor loaded from an image -/

section Loaded

variable (im : SmramImage)

theorem kept_flags : Kept { s with cr := im.control.regs }
    ({ s with cr := im.control.regs }.setEflagsInternal (im.get .eflags)) :=
  kept_setEflagsInternal ..

theorem cr_loaded : (s.loaded im).cr = im.control.regs := (s.kept_flags im).cr

/-- An image that is accepted has no VM bit to clear in long mode. -/
theorem eflags_loaded_of_accepted {im : SmramImage} {f : Features} {e : Surroundings}
    (hacc : ImageAccepted f e im) : (s.loaded im).eflags = im.get .eflags := by
  refine (eflags_setEflagsInternal ..).trans ?_
  split
  case isTrue hlma =>
    have h := hacc.regs
    unfold ControlRegs.imageRefused at h
    rw [if_pos (show im.control.regs.efer.lma = true from hlma)] at h
    exact and_not_twoPow (Bool.or_eq_false_iff.mp h).1
  case isFalse => rfl

theorem nmiBlocked_loaded : (s.loaded im).nmiBlocked = s.nmiBlocked := (s.kept_flags im).nmi

theorem ldtr_loaded : (s.loaded im).ldtr = s.ldtr.restore im .ldtr :=
  congrArg (BxSegmentReg.restore · im .ldtr) (s.kept_flags im).ldtr

theorem tr_loaded : (s.loaded im).tr = s.tr.restore im .tr :=
  congrArg (BxSegmentReg.restore · im .tr) (s.kept_flags im).tr

theorem sregs_loaded (r : SegReg) : (s.loaded im).sregs r = (s.sregs r).restore im (.seg r) :=
  restore_congr ((s.kept_flags im).u r)

end Loaded

theorem nmiBlocked_released : s.released.nmiBlocked = false := by
  simp [released, nmiBlocked, unmaskEvent, smmHeldEvents]

end SmmProc

/-! ## The round trip -/

/-- What an SMI followed by RSM must give back. -/
structure Same (s s' : SmmProc) : Prop where
  gpr : s'.gpr = s.gpr
  rip : s'.rip = s.rip
  eflags : s'.eflags = s.eflags
  ssp : s'.ssp = s.ssp
  cr0 : s'.cr.cr0 = s.cr.cr0
  cr3 : s'.cr.cr3 = s.cr.cr3
  cr4 : s'.cr.cr4 = s.cr.cr4
  efer : s'.cr.efer = s.cr.efer
  dr6 : s'.dr6 = s.dr6
  dr7 : s'.dr7 = s.dr7
  gdtr : s'.gdtr = s.gdtr
  idtr : s'.idtr = s.idtr
  smbase : s'.smbase = s.smbase
  sregs : ∀ r, SameSeg (s.sregs r) (s'.sregs r)
  ldtr : SameSeg s.ldtr s'.ldtr
  tr : SameSeg s.tr s'.tr
  nmi : s'.nmiBlocked = s.nmiBlocked

namespace SmmProc

variable (s : SmmProc)

/-- The bits of a field that the restore does not take from the image. -/
def ignored : SmramField → BitVec 32
  | .revision => allOnes 32
  -- ET is hardwired
  | .cr0 => 0x10#32
  -- real mode forces P, S and the type of CS
  | .seg .cs .selectorAr => if s.inReal then 0x9F0000#32 else 0
  | _ => 0

def controlImage : ControlImage :=
  ⟨s.cr.cr0, s.cr.cr3, s.cr.cr4, s.cr.efer, s.eflags.getLsbD 17⟩

/-- The states RSM gives back. -/
structure Resumable (c : SmmMachine) : Prop where
  vmxe : s.cr.cr4.vmxe = false
  nmi : s.nmiBlocked = false
  /-- nothing is lost in a dword of the save area that crosses a page -/
  stored : ∀ fld, crossesPage (smramDwordAddr s.smbase fld.index) →
    s.dword fld &&& ~~~s.ignored fld = 0
  et : Cr0.set32 s.cr.cr0 = s.cr.cr0
  efer : s.cr.efer &&& ~~~c.features.eferSuppmask = 0
  cr4 : s.cr.cr4 &&& ~~~c.features.cr4Suppmask = 0
  pg_pe : s.cr.cr0.pg → s.cr.cr0.pe
  nw_cd : s.cr.cr0.nw → s.cr.cr0.cd
  consistent : s.cr.imageRefused ((s.enterSystemManagementMode c.machine).surroundings c)
    s.controlImage = false
  segs : ∀ r, (s.sregs r).cache.valid.nonzero → (s.sregs r).cache.segment
  ldtr : s.ldtr.cache.valid.nonzero → s.ldtr.cache.type = 2
  tr : s.tr.cache.valid.nonzero → isTss s.tr.cache.type
  /-- compatibility mode truncates RIP and RSP -/
  compat : s.inCompat → hi32 s.rip = 0 ∧ hi32 (s.gpr 4) = 0
  real : s.inReal →
    (s.sregs .cs).cache.p ∧ (s.sregs .cs).cache.segment ∧ (s.sregs .cs).cache.type = 3

variable {s} {c : SmmMachine}

/-- The state RSM ends in right after the SMI, if it does not refuse the image. -/
def resumed (s : SmmProc) (m : Machine) : SmmProc :=
  ((s.enterSystemManagementMode m).released.loaded (s.readBack m)).finishContextSwitch

theorem run_rsm_entered {s' : SmmProc} :
    (rsm c).run (s.enterSystemManagementMode c.machine) = .ok () s' ↔
      ImageAccepted c.features ((s.enterSystemManagementMode c.machine).surroundings c)
        (s.readBack c.machine) ∧ s' = s.resumed c.machine := by
  have h := s.entered c.machine
  unfold rsm
  rw [run_get_bind, if_neg (by simp [h.inSmm])]
  rw [run_set_bind, run_smramRestoreState_ok rfl, h.smbase, h.ram]
  rfl

theorem dword_leaveForSmm (h : s.cr.cr4.vmxe = false) : s.leaveForSmm.dword = s.dword := by
  have hcr4 : s.cr.cr4 &&& ~~~0x2000#64 = s.cr.cr4 := and_not_twoPow h
  funext fld
  cases fld <;> simp only [dword, leaveForSmm, maskEvent, hcr4]

/-- The fields of control registers that are read back. -/
theorem control_of_regs {im : SmramImage} (h : im.control.regs = { s.cr with inSmm := false }) :
    Cr0.set32 im.control.cr0 = s.cr.cr0 ∧ im.control.cr3 = s.cr.cr3 ∧
      im.control.cr4 = s.cr.cr4 ∧ im.control.efer = s.cr.efer := by
  injection h with h0 h3 h4 he
  exact ⟨h0, h3, h4, he⟩

/-- The processor that RSM loads still has the LDTR, the TR and the kinds of descriptor the
SMI found, and NMIs are no longer blocked. -/
structure Prepared (s s₂ : SmmProc) : Prop where
  ldtr : s₂.ldtr = s.ldtr
  tr : s₂.tr = s.tr
  u : ∀ r, ∃ d, (s₂.sregs r).cache.u = (s.sregs r).cache.u.mapSegment fun _ => d
  nmi : s₂.nmiBlocked = false

theorem prepared (m : Machine) : Prepared s (s.enterSystemManagementMode m).released :=
  have h := s.entered m
  ⟨h.ldtr, h.tr, h.u, nmiBlocked_released _⟩

section Necessary

variable {f : Features} {e : Surroundings} {im : SmramImage} {s₂ : SmmProc}
  (hp : Prepared s s₂) (hacc : ImageAccepted f e im)
  (hsame : Same s (s₂.loaded im).finishContextSwitch)

include hsame

theorem regs_of_same : im.control.regs = { s.cr with inSmm := false } := by
  have hcr : (s₂.loaded im).finishContextSwitch.cr = im.control.regs :=
    (kept_finishContextSwitch _).cr.trans (cr_loaded ..)
  have h0 := hsame.cr0
  have h3 := hsame.cr3
  have h4 := hsame.cr4
  have he := hsame.efer
  rw [hcr] at h0 h3 h4 he
  dsimp only
  rw [← h0, ← h3, ← h4, ← he]
  rfl

theorem inReal_of_same : (s₂.loaded im).inReal = s.inReal := by
  unfold inReal
  rw [cr_loaded, regs_of_same hsame]

theorem part_of_same (r : SegReg) :
    ((s₂.sregs r).restore im (.seg r)).cache.u.segmentPart = (s.sregs r).cache.u.segmentPart := by
  rw [← sregs_loaded, ← (kept_finishContextSwitch _).u r]
  exact (hsame.sregs r).part

theorem inCompat_of_same : (s₂.loaded im).inCompat = s.inCompat := by
  unfold inCompat Descriptor.segmentL
  rw [cr_loaded, regs_of_same hsame, sregs_loaded, part_of_same hsame]

theorem gpr_of_same (n : Fin 16) : s.gpr n =
    if s.inCompat ∧ n = 4 then im.get64 (.gprHi 4) (.gpr 4) &&& 0xFFFFFFFF#64
    else im.get64 (.gprHi n) (.gpr n) := by
  rw [← hsame.gpr, (finishContextSwitch_truncates _).1, inCompat_of_same hsame]
  by_cases h : s.inCompat
  · by_cases hn : n = 4
    · subst hn
      simp [h]
      rfl
    · simp [h, hn]
      rfl
  · simp [h]
    rfl

theorem rip_of_same : s.rip =
    if s.inCompat then im.get64 .ripHi .rip &&& 0xFFFFFFFF#64 else im.get64 .ripHi .rip := by
  rw [← hsame.rip, (finishContextSwitch_truncates _).2, inCompat_of_same hsame]
  rfl

theorem eflags_of_same (hacc : ImageAccepted f e im) : s.eflags = im.get .eflags := by
  rw [← hsame.eflags, eflags_finishContextSwitch, eflags_loaded_of_accepted _ hacc]

omit hsame in
theorem isTssOrLdt_of_isTss {type : BitVec 4} (h : isTss type) : isTssOrLdt type := by
  unfold isTss at h
  unfold isTssOrLdt
  simp only [decide_eq_true_eq] at h ⊢
  exact .inr h

include hp hacc

omit hsame hp hacc in
/-- P, S and the type are all that real mode forces. -/
theorem pst_and_not_mask (type : BitVec 4) (segment p : Bool) :
    ((type.setWidth 16 ||| arBit 4 segment ||| arBit 7 p) ++ 0#16) &&& ~~~0x9F0000#32 = 0 := by
  decide +revert

/-- A dword of a segment register that RSM reads as zero had nothing to restore. -/
theorem seg_dword_of_same {r : SegReg} {part : SegPart} (h0 : im.get (.seg r part) = 0) :
    (s.sregs r).dword part &&& ~~~s.ignored (.seg r part) = 0 := by
  obtain ⟨d, hu⟩ := hp.u r
  by_cases hpart : part = .selectorAr
  · subst hpart
    have hfinal := hsame.sregs r
    by_cases hreal : s.inReal ∧ r = .cs
    · obtain ⟨hreal, rfl⟩ := hreal
      rw [cs_finishContextSwitch_of_real _ (by rw [inReal_of_same hsame]; exact hreal),
        sregs_loaded] at hfinal
      rw [selectorAr_of_restore_zero h0 hu hfinal.selector hfinal.dpl hfinal.valid hfinal.part]
      simp only [ignored, hreal]
      exact pst_and_not_mask ..
    · rw [sameSeg_finishContextSwitch, sregs_loaded] at hfinal
      · rw [selectorAr_eq_zero h0 hu hfinal]
        exact zero_and
      · rw [inReal_of_same hsame]
        exact fun h hr => hreal ⟨h, hr⟩
  · rw [dword_eq_zero_of_part (part_of_same hsame r) hu (fun h => .inl (hacc.segs r h)) hpart h0]
    exact zero_and

omit hp hacc in
theorem hi32_gpr_of_same {n : Fin 16} (h0 : im.get (.gprHi n) = 0) : hi32 (s.gpr n) = 0 := by
  rw [gpr_of_same hsame n]
  split
  · exact hi32_and_low _
  · exact (hi32_append ..).trans h0

omit hp hacc in
theorem lo32_gpr_of_same {n : Fin 16} (h0 : im.get (.gpr n) = 0) : lo32 (s.gpr n) = 0 := by
  rw [gpr_of_same hsame n]
  split
  case isTrue h =>
    rw [lo32_and_low, ← h.2]
    exact (lo32_append ..).trans h0
  case isFalse => exact (lo32_append ..).trans h0

omit hp hacc in
theorem rip_dwords_of_same :
    (im.get .ripHi = 0 → hi32 s.rip = 0) ∧ (im.get .rip = 0 → lo32 s.rip = 0) := by
  rw [rip_of_same hsame]
  split
  · rw [hi32_and_low, lo32_and_low]
    exact ⟨fun _ => rfl, (lo32_append ..).trans⟩
  · exact ⟨(hi32_append ..).trans, (lo32_append ..).trans⟩

omit hp hacc hsame in
/-- A dword of GDTR or IDTR that RSM reads as zero. -/
theorem table_dword_of_same {t : TableReg} {fld : TablePart → SmramField}
    (h : TableReg.ofImage im fld = t) {part : TablePart} (h0 : im.get (fld part) = 0) :
    t.dword part = 0 := by
  subst h
  cases part with
  | baseHi => exact (hi32_append ..).trans h0
  | base => exact (lo32_append ..).trans h0
  | limit =>
    simp only [TableReg.ofImage, h0]
    rfl

omit hp hacc hsame in
/-- A dword of LDTR or TR that RSM reads as zero. -/
theorem sysseg_dword_of_same {r : BxSegmentReg} {fld : SegPart → SmramField}
    (h : SameSeg r (r.restore im fld))
    (hacc : (im.ar fld).getLsbD 8 → isTssOrLdt ((im.ar fld).setWidth 4)) {part : SegPart}
    (h0 : im.get (fld part) = 0) : r.dword part = 0 := by
  have hu : r.cache.u = r.cache.u.mapSegment id := by
    cases r.cache.u <;> rfl
  by_cases hpart : part = .selectorAr
  · subst hpart
    exact selectorAr_eq_zero h0 hu h
  · exact dword_eq_zero_of_part h.part hu (fun hv => .inr (hacc hv)) hpart h0

omit hp hacc hsame in
theorem masked_eq_zero {x y : BitVec 32} (h : x = 0) : x &&& y = 0 := by
  rw [h]
  exact zero_and

/-- A dword that RSM reads as zero had nothing to restore. -/
theorem dword_of_same {fld : SmramField} (h0 : im.get fld = 0) :
    s.dword fld &&& ~~~s.ignored fld = 0 := by
  have hkept := kept_finishContextSwitch (s₂.loaded im)
  have hregs := regs_of_same hsame
  obtain ⟨hcr0, hcr3, hcr4, hefer⟩ := control_of_regs hregs
  have hssp : im.get64 .sspHi .ssp = s.ssp := hkept.ssp.symm.trans hsame.ssp
  have hldtr := hsame.ldtr
  rw [hkept.ldtr, ldtr_loaded, hp.ldtr] at hldtr
  have htr := hsame.tr
  rw [hkept.tr, tr_loaded, hp.tr] at htr
  cases fld with
  | revision => simp [ignored]
  | cr0 =>
    show s.cr.cr0 &&& ~~~0x10#32 = 0
    rw [← hcr0, show im.control.cr0 = 0 from h0]
    decide
  | seg r part => exact seg_dword_of_same hp hacc hsame h0
  | smbase => exact masked_eq_zero ((hkept.smbase.symm.trans hsame.smbase).symm.trans h0)
  | gprHi n => exact masked_eq_zero (hi32_gpr_of_same hsame h0)
  | gpr n => exact masked_eq_zero (lo32_gpr_of_same hsame h0)
  | ripHi => exact masked_eq_zero ((rip_dwords_of_same hsame).1 h0)
  | rip => exact masked_eq_zero ((rip_dwords_of_same hsame).2 h0)
  | sspHi => exact masked_eq_zero (by rw [dword, ← hssp]; exact (hi32_append ..).trans h0)
  | ssp => exact masked_eq_zero (by rw [dword, ← hssp]; exact (lo32_append ..).trans h0)
  | cr3Hi => exact masked_eq_zero (by rw [dword, ← hcr3]; exact (hi32_append ..).trans h0)
  | cr3 => exact masked_eq_zero (by rw [dword, ← hcr3]; exact (lo32_append ..).trans h0)
  | cr4Hi => exact masked_eq_zero (by rw [dword, ← hcr4]; exact (hi32_append ..).trans h0)
  | cr4 => exact masked_eq_zero (by rw [dword, ← hcr4]; exact (lo32_append ..).trans h0)
  | eflags => exact masked_eq_zero ((eflags_of_same hsame hacc).trans h0)
  | dr6 => exact masked_eq_zero ((hkept.dr6.symm.trans hsame.dr6).symm.trans h0)
  | dr7 => exact masked_eq_zero ((hkept.dr7.symm.trans hsame.dr7).symm.trans h0)
  | efer => exact masked_eq_zero (hefer.symm.trans h0)
  | gdtr part => exact masked_eq_zero (table_dword_of_same (hkept.gdtr.symm.trans hsame.gdtr) h0)
  | idtr part => exact masked_eq_zero (table_dword_of_same (hkept.idtr.symm.trans hsame.idtr) h0)
  | ldtr part =>
    refine masked_eq_zero (sysseg_dword_of_same hldtr (fun hv => ?_) h0)
    rw [hacc.ldtr hv]
    rfl
  | tr part =>
    exact masked_eq_zero (sysseg_dword_of_same htr (fun hv => isTssOrLdt_of_isTss (hacc.tr hv)) h0)

omit hp in
/-- Every valid segment register was a code or data segment. -/
theorem segment_of_same {r : SegReg} (hv : (s.sregs r).cache.valid.nonzero) :
    (s.sregs r).cache.segment := by
  have hfinal := hsame.sregs r
  by_cases hreal : s.inReal ∧ r = .cs
  · obtain ⟨hreal, rfl⟩ := hreal
    rw [cs_finishContextSwitch_of_real _ (by rw [inReal_of_same hsame]; exact hreal)] at hfinal
    exact hfinal.segment.symm
  · rw [sameSeg_finishContextSwitch, sregs_loaded] at hfinal
    · rw [← hfinal.valid, nonzero_restore] at hv
      exact hfinal.segment.symm.trans (hacc.segs r hv)
    · rw [inReal_of_same hsame]
      exact fun h hr => hreal ⟨h, hr⟩

end Necessary

theorem set32_bits (v : BitVec 32) : Cr0.set32 (Cr0.set32 v) = Cr0.set32 v ∧
    (Cr0.set32 v).pg = Cr0.pg v ∧ (Cr0.set32 v).pe = Cr0.pe v ∧ (Cr0.set32 v).nw = Cr0.nw v ∧
      (Cr0.set32 v).cd = Cr0.cd v := by
  simp [Cr0.set32, Cr0.pg, Cr0.pe, Cr0.nw, Cr0.cd, BitVec.or_assoc]

theorem resumable_of_same
    (hacc : ImageAccepted c.features ((s.enterSystemManagementMode c.machine).surroundings c)
      (s.readBack c.machine))
    (hsame : Same s (s.resumed c.machine)) : Resumable s c := by
  have hp := s.prepared c.machine
  have hkept := kept_finishContextSwitch
    ((s.enterSystemManagementMode c.machine).released.loaded (s.readBack c.machine))
  have hregs := regs_of_same hsame
  obtain ⟨hcr0, hcr3, hcr4, hefer⟩ := control_of_regs hregs
  obtain ⟨hset, hpg, hpe, hnw, hcd⟩ := set32_bits (s.readBack c.machine).control.cr0
  rw [hcr0] at hset hpg hpe hnw hcd
  have hunloaded := hacc.unloaded
  have hafter := hacc.afterEfer
  simp only [ControlImage.refusedUnloaded, Bool.or_eq_false_iff, hcr4, hefer] at hunloaded
  simp only [ControlImage.refusedAfterEfer, Bool.or_eq_false_iff, hcr4] at hafter
  refine ⟨hunloaded.1, ?_, fun fld hfld => ?_, hset, ?_, ?_, ?_, ?_, ?_,
    fun r => segment_of_same hacc hsame, ?_, ?_, fun h => ⟨?_, ?_⟩, fun h => ?_⟩
  · rw [← hsame.nmi]
    exact hkept.nmi.trans ((nmiBlocked_loaded ..).trans hp.nmi)
  · apply dword_of_same hp hacc hsame
    rw [get_readBack, if_pos hfld]
  · simpa using hunloaded.2
  · simpa using hafter.2
  · rw [hpg, hpe]
    simpa using hafter.1.1
  · rw [hnw, hcd]
    simpa using hafter.1.2
  · have hvm : (s.readBack c.machine).control.vm = s.eflags.getLsbD 17 :=
      congrArg (getLsbD · 17) (eflags_of_same hsame hacc).symm
    have h := hacc.regs
    rw [hregs] at h
    simp only [ControlRegs.imageRefused, hvm, hcr3] at h
    exact h
  · have h := hsame.ldtr
    rw [resumed, hkept.ldtr, ldtr_loaded] at h
    rw [← h.valid, ← h.type, nonzero_restore]
    exact hacc.ldtr
  · have h := hsame.tr
    rw [resumed, hkept.tr, tr_loaded] at h
    rw [← h.valid, ← h.type, nonzero_restore]
    exact hacc.tr
  · rw [rip_of_same hsame, if_pos h]
    exact hi32_and_low _
  · rw [gpr_of_same hsame, if_pos ⟨h, rfl⟩]
    exact hi32_and_low _
  · have hcs := hsame.sregs .cs
    rw [resumed, cs_finishContextSwitch_of_real _ (by rw [inReal_of_same hsame]; exact h)] at hcs
    exact ⟨hcs.p.symm, hcs.segment.symm, hcs.type.symm⟩

section Sufficient

variable {im : SmramImage} {s₂ : SmmProc} (hp : Prepared s s₂) (hres : Resumable s c)
  (hget : ∀ fld, im.get fld = s.dword fld ∨
    im.get fld = 0 ∧ s.dword fld &&& ~~~s.ignored fld = 0)

theorem ar_of_get {fld : SegPart → SmramField} {r : BxSegmentReg}
    (h : im.get (fld .selectorAr) = r.dword .selectorAr) : im.ar fld = packSegAr r.cache := by
  unfold SmramImage.ar
  rw [h]
  exact setWidth_append_ushiftRight ..

include hget

theorem get_eq_dword {fld : SmramField} (h : s.ignored fld = 0) : im.get fld = s.dword fld := by
  rcases hget fld with hfld | ⟨him, hs⟩
  · exact hfld
  · rw [h] at hs
    have hall : ~~~(0 : BitVec 32) = allOnes 32 := by decide
    rw [hall, and_allOnes] at hs
    rw [him, hs]

theorem get64_eq {hi lo : SmramField} {v : BitVec 64} (hhi : s.ignored hi = 0)
    (hlo : s.ignored lo = 0) (h : s.dword hi = hi32 v) (l : s.dword lo = lo32 v) :
    im.get64 hi lo = v := by
  unfold SmramImage.get64
  rw [get_eq_dword hget hhi, get_eq_dword hget hlo, h, l]
  exact hi32_append_lo32 v

theorem table_eq {fld : TablePart → SmramField} {t : TableReg} (hign : ∀ part, s.ignored (fld part) = 0)
    (h : ∀ part, s.dword (fld part) = t.dword part) : TableReg.ofImage im fld = t := by
  unfold TableReg.ofImage
  rw [get64_eq hget (hign _) (hign _) (h _) (h _), get_eq_dword hget (hign _), h]
  simp [TableReg.dword]

theorem eflags_of_get : im.get .eflags = s.eflags := get_eq_dword hget rfl

/-- Where real mode forces nothing, every dword of a segment register is read back. -/
theorem get_seg {r : SegReg} (h : ¬ (s.inReal ∧ r = .cs)) (part : SegPart) :
    im.get (.seg r part) = (s.sregs r).dword part := by
  refine get_eq_dword hget ?_
  cases r <;> cases part <;> simp_all [ignored]

include hres

theorem set32_get_cr0 : Cr0.set32 (im.get .cr0) = s.cr.cr0 := by
  rcases hget .cr0 with h | ⟨him, hs⟩
  · rw [h]
    exact hres.et
  · rw [him, ← hres.et]
    have hs : s.cr.cr0 &&& ~~~0x10#32 = 0 := hs
    unfold Cr0.set32
    rw [or_eq_and_not_or s.cr.cr0, hs]

theorem regs_of_get : im.control.regs = { s.cr with inSmm := false } := by
  unfold ControlImage.regs SmramImage.control
  dsimp only
  rw [set32_get_cr0 hres hget, get64_eq hget rfl rfl (v := s.cr.cr3) rfl rfl,
    get64_eq hget rfl rfl (v := s.cr.cr4) rfl rfl, get_eq_dword hget rfl]
  rfl

theorem imageAccepted_of_get : ImageAccepted c.features
    ((s.enterSystemManagementMode c.machine).surroundings c) im := by
  have hregs := regs_of_get hres hget
  obtain ⟨hcr0, hcr3, hcr4, hefer⟩ := control_of_regs hregs
  obtain ⟨-, hpg, hpe, hnw, hcd⟩ := set32_bits im.control.cr0
  rw [hcr0] at hpg hpe hnw hcd
  refine ⟨?_, ?_, ?_, fun r => ?_, ?_, ?_⟩
  · simp [ControlImage.refusedUnloaded, hcr4, hefer, hres.vmxe, hres.efer]
  · have h1 := hres.pg_pe
    have h2 := hres.nw_cd
    rw [hpg, hpe] at h1
    rw [hnw, hcd] at h2
    simpa [ControlImage.refusedAfterEfer, hcr4, hres.cr4] using ⟨h1, h2⟩
  · have hvm : im.control.vm = s.eflags.getLsbD 17 := congrArg (getLsbD · 17) (eflags_of_get hget)
    rw [hregs]
    simp only [ControlRegs.imageRefused, hvm, hcr3]
    exact hres.consistent
  · rcases hget (.seg r .selectorAr) with h | ⟨him, -⟩
    · obtain ⟨hseg, -, hvalid, -⟩ := packSegAr_bits (s.sregs r).cache
      rw [ar_of_get h, hvalid, hseg]
      exact hres.segs r
    · rw [ar_of_get_zero him]
      simp
  · obtain ⟨-, -, hvalid, -⟩ := packSegAr_bits s.ldtr.cache
    rw [ar_of_get (get_eq_dword hget rfl), hvalid, packSegAr_type]
    exact hres.ldtr
  · obtain ⟨-, -, hvalid, -⟩ := packSegAr_bits s.tr.cache
    rw [ar_of_get (get_eq_dword hget rfl), hvalid, packSegAr_type]
    exact hres.tr

/-- Real mode forces on CS what a lost access-rights dword held. -/
theorem sameSeg_cs_of_lost (hreal : s.inReal) {r' : BxSegmentReg} {d : DescriptorSegment}
    (hu : r'.cache.u = (s.sregs .cs).cache.u.mapSegment fun _ => d)
    (him : im.get (.seg .cs .selectorAr) = 0)
    (hs : (s.sregs .cs).dword .selectorAr &&& ~~~0x9F0000#32 = 0) :
    SameSeg (s.sregs .cs)
      { selector := { (r'.restore im (.seg .cs)).selector with rpl := 0 }
        cache := { (r'.restore im (.seg .cs)).cache with p := true, segment := true, type := 3 } } := by
  obtain ⟨hsel, hdpl, hvalid, havl, hl, hdb, hg⟩ := of_selectorAr_masked hs
  obtain ⟨hp, hsegment, htype⟩ := hres.real hreal
  have har := ar_of_get_zero him
  refine ⟨?_, hp.symm, ?_, hsegment.symm, htype.symm, ?_, ?_⟩
  · rw [hsel]
    exact congrArg (setWidth 16) him
  · rw [hdpl]
    exact congrArg (fun ar : BitVec 16 => (ar >>> 5).setWidth 2) har
  · rw [hvalid]
    exact (nonzero_restore (r := r')).trans (congrArg (getLsbD · 8) har)
  · have hpart : im.segmentPart (.seg .cs) = (s.sregs .cs).cache.u.segmentPart := by
      unfold SmramImage.segmentPart
      have hlimit : im.get (.seg .cs .limit) = (s.sregs .cs).cache.u.segmentLimitScaled :=
        get_eq_dword hget rfl
      rw [har, get64_eq hget rfl rfl (v := (s.sregs .cs).cache.u.segmentBase) rfl rfl, hlimit]
      generalize (s.sregs .cs).cache.u = u at *
      show _ = (⟨u.segmentPart.base, u.segmentPart.limitScaled, u.segmentPart.g, u.segmentPart.dB,
        u.segmentPart.l, u.segmentPart.avl⟩ : DescriptorSegment)
      rw [hg, hdb, hl, havl]
      rfl
    rw [cache_u_restore, hpart, har, hu]
    exact segmentPart_setSegmentFields (by simp)

include hp

theorem sregs_of_get (r : SegReg) :
    SameSeg (s.sregs r) ((s₂.loaded im).finishContextSwitch.sregs r) := by
  obtain ⟨d, hu⟩ := hp.u r
  have hinReal : (s₂.loaded im).inReal = s.inReal := by
    unfold inReal
    rw [cr_loaded, regs_of_get hres hget]
  by_cases hcs : s.inReal ∧ r = .cs
  · obtain ⟨hreal, rfl⟩ := hcs
    rw [cs_finishContextSwitch_of_real _ (by rw [hinReal]; exact hreal), sregs_loaded]
    rcases hget (.seg .cs .selectorAr) with h | ⟨him, hs⟩
    · have hall (part : SegPart) : im.get (.seg .cs part) = (s.sregs .cs).dword part := by
        cases part with
        | selectorAr => exact h
        | baseHi | base | limit => exact get_eq_dword hget rfl
      obtain ⟨hsel, hp, hdpl, hsegment, htype, hvalid, hpart⟩ :=
        sameSeg_restore hall hu fun hv => .inl (hres.segs .cs hv)
      obtain ⟨hp', hsegment', htype'⟩ := hres.real hreal
      exact ⟨hsel, hp'.symm, hdpl, hsegment'.symm, htype'.symm, hvalid, hpart⟩
    · rw [show s.ignored (.seg .cs .selectorAr) = 0x9F0000#32 from if_pos hreal] at hs
      exact sameSeg_cs_of_lost hres hget hreal hu him hs
  · rw [sameSeg_finishContextSwitch, sregs_loaded]
    · exact sameSeg_restore (get_seg hget hcs) hu fun hv => .inl (hres.segs r hv)
    · rw [hinReal]
      exact fun h hr => hcs ⟨h, hr⟩

theorem same_of_get : Same s (s₂.loaded im).finishContextSwitch := by
  have hkept := kept_finishContextSwitch (s₂.loaded im)
  have hregs := regs_of_get hres hget
  have hsregs := sregs_of_get hp hres hget
  have hcr : (s₂.loaded im).finishContextSwitch.cr = { s.cr with inSmm := false } :=
    hkept.cr.trans ((cr_loaded ..).trans hregs)
  have hcompat : (s₂.loaded im).inCompat = s.inCompat := by
    unfold inCompat Descriptor.segmentL
    rw [cr_loaded, hregs, ← hkept.u .cs, (hsregs .cs).part]
  have hgpr : (s₂.loaded im).gpr = s.gpr :=
    funext fun n => get64_eq hget rfl rfl (v := s.gpr n) rfl rfl
  have hrip : (s₂.loaded im).rip = s.rip := get64_eq hget rfl rfl (v := s.rip) rfl rfl
  have htss (fld : SegPart → SmramField) (r : BxSegmentReg)
      (hr : ∀ part, im.get (fld part) = r.dword part)
      (hacc : r.cache.valid.nonzero → isTssOrLdt r.cache.type) : SameSeg r (r.restore im fld) := by
    have hu : r.cache.u = r.cache.u.mapSegment id := by
      cases r.cache.u <;> rfl
    exact sameSeg_restore hr hu fun hv => .inr ⟨rfl, hacc hv⟩
  constructor
  case gpr =>
    rw [(finishContextSwitch_truncates _).1, hcompat, hgpr]
    split
    case isTrue h => rw [and_low_of_hi32 (hres.compat h).2, Function.update_eq_self]
    case isFalse => rfl
  case rip =>
    rw [(finishContextSwitch_truncates _).2, hcompat, hrip]
    split
    case isTrue h => exact and_low_of_hi32 (hres.compat h).1
    case isFalse => rfl
  case eflags =>
    rw [eflags_finishContextSwitch, eflags_loaded_of_accepted _ (imageAccepted_of_get hres hget)]
    exact eflags_of_get hget
  case ssp => exact hkept.ssp.trans (get64_eq hget rfl rfl rfl rfl)
  case cr0 => rw [hcr]
  case cr3 => rw [hcr]
  case cr4 => rw [hcr]
  case efer => rw [hcr]
  case dr6 => exact hkept.dr6.trans (get_eq_dword hget rfl)
  case dr7 => exact hkept.dr7.trans (get_eq_dword hget rfl)
  case gdtr => exact hkept.gdtr.trans (table_eq hget (fun _ => rfl) fun _ => rfl)
  case idtr => exact hkept.idtr.trans (table_eq hget (fun _ => rfl) fun _ => rfl)
  case smbase => exact hkept.smbase.trans (get_eq_dword hget rfl)
  case sregs => exact hsregs
  case ldtr =>
    rw [hkept.ldtr, ldtr_loaded, hp.ldtr]
    refine htss _ _ (fun _ => get_eq_dword hget rfl) fun hv => ?_
    rw [hres.ldtr hv]
    rfl
  case tr =>
    rw [hkept.tr, tr_loaded, hp.tr]
    exact htss _ _ (fun _ => get_eq_dword hget rfl) fun hv => isTssOrLdt_of_isTss (hres.tr hv)
  case nmi => rw [hkept.nmi, nmiBlocked_loaded, hp.nmi, hres.nmi]

end Sufficient

end SmmProc

open SmmProc in
/-- RSM executed right after an SMI ends normally with the interrupted state back exactly
when that state is resumable. -/
theorem smi_rsm_resumes_iff (c : SmmMachine) (s : SmmProc) :
    (∃ s', (rsm c).run (s.enterSystemManagementMode c.machine) = .ok () s' ∧ Same s s') ↔
      s.Resumable c := by
  simp only [run_rsm_entered]
  constructor
  · rintro ⟨s', ⟨hacc, rfl⟩, hsame⟩
    exact resumable_of_same hacc hsame
  · intro hres
    have hget (fld : SmramField) : (s.readBack c.machine).get fld = s.dword fld ∨
        (s.readBack c.machine).get fld = 0 ∧ s.dword fld &&& ~~~s.ignored fld = 0 := by
      rw [get_readBack, dword_leaveForSmm hres.vmxe]
      split
      case isTrue h => exact .inr ⟨rfl, hres.stored fld h⟩
      case isFalse => exact .inl rfl
    exact ⟨_, ⟨imageAccepted_of_get hres hget, rfl⟩, same_of_get (s.prepared _) hres hget⟩

/-! ## What does not come back -/

/-- A machine whose PDPTEs are all zero. -/
def skylakeMachine : SmmMachine where
  features := skylake
  machine := ⟨0, rfl, by decide, true, ⟨fun _ _ _ => none, fun _ _ _ => false⟩⟩
  pageWalkReadQword := fun _ _ => 0

def resetSegment (selector : BitVec 16) (base : BitVec 64) : BxSegmentReg where
  selector := parseSelector selector
  cache := ⟨⟨true, true, true, false, false⟩, true, 0, true, 3,
    .segment ⟨base, 0xFFFF#32, false, false, false, false⟩⟩

def resetSystemSegment (type : BitVec 4) : BxSegmentReg where
  selector := parseSelector 0
  cache := ⟨⟨true, false, false, false, false⟩, true, 0, false, type,
    .segment ⟨0, 0xFFFF#32, false, false, false, false⟩⟩

/-- The processor after a hardware reset, with RDX cleared. -/
def resetSmmProc : SmmProc where
  gpr := 0
  rip := 0xFFF0#64
  ssp := 0
  eflags := 2#32
  dr6 := 0xFFFF0FF0#32
  dr7 := 0x400#32
  cr := resetRegs
  gdtr := ⟨0, 0xFFFF#16⟩
  idtr := ⟨0, 0xFFFF#16⟩
  smbase := 0x30000#32
  sregs := fun r => if r = .cs then resetSegment 0xF000#16 0xFFFF0000#64 else resetSegment 0 0
  ldtr := resetSystemSegment 2
  tr := resetSystemSegment 11
  eventMask := ifGatedEvents
  cpuMode := .ia32Real
  ram := fun _ => 0

example : resetSmmProc.Resumable skylakeMachine where
  vmxe := by decide
  nmi := by decide
  stored fld h := by
    have hnone : ∀ i, crossesPage (smramDwordAddr 0x30000#32 i) = false := by decide +kernel
    exact absurd h (by rw [show resetSmmProc.smbase = 0x30000#32 from rfl, hnone]; decide)
  et := by decide
  efer := by decide
  cr4 := by decide
  pg_pe := by decide
  nw_cd := by decide
  consistent := by decide +kernel
  segs r _ := by cases r <;> rfl
  ldtr _ := rfl
  tr _ := rfl
  compat := by decide
  real _ := ⟨rfl, rfl, rfl⟩

/-- A field of the processor after an SMI and an RSM. -/
def afterSmiRsm {α : Type} (s : SmmProc) (field : SmmProc → α) : Option α :=
  match (rsm skylakeMachine).run (s.enterSystemManagementMode skylakeMachine.machine) with
  | .ok _ s' => some (field s')
  | .error _ _ => none

/-- MOV to CR4 has set VMXE; no VMXON has followed. -/
def vmxeProc : SmmProc :=
  { resetSmmProc with
    cr := crStep skylake resetRegs ⟨resetSurroundings, .movCr4 0x2000#64⟩ }

/-- An NMI is being handled. -/
def nmiProc : SmmProc := resetSmmProc.maskEvent 1#32

/-- An earlier handler has moved the save area off its alignment. -/
def oddSmbaseProc : SmmProc :=
  { resetSmmProc with smbase := 0x30002#32, gpr := fun _ => 0x100000001#64 }

/-- CR4 comes back without VMXE, blocked NMIs come back unblocked, and a save area off its
alignment loses the upper half of RAX. -/
theorem smi_rsm_forgets_vmxe_nmi_rax :
    (vmxeProc.cr.cr4 = 0x2000#64 ∧ afterSmiRsm vmxeProc (·.cr.cr4) = some 0#64) ∧
    (nmiProc.nmiBlocked = true ∧ afterSmiRsm nmiProc (·.nmiBlocked) = some false) ∧
    (oddSmbaseProc.gpr 0 = 0x100000001#64 ∧ afterSmiRsm oddSmbaseProc (·.gpr 0) = some 1#64) := by
  decide +kernel

end RustyBox
