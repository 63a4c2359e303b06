-- SUMMARY: The rules between CR0, CR4 and EFER hold at every boundary unless RSM or a long-mode exit breaks them.
import RustyBox.Cpu.ControlRegs
import RustyBox.Lib.Reachability
import RustyBox.Lib.Wp

/-!
# Legal control registers

`ControlRegs.Legal` collects the rules that relate CR0, CR4 and EFER. Every writer keeps
them with two exceptions: `set_cr0` leaves long mode without looking at CR4.FRED, and RSM
loads an image on which some of the rules are never checked. `Benign` says when a write
is neither; the rules hold all along an execution exactly when every write of it is benign.
-/

namespace RustyBox

open Lib

structure ControlRegs.Legal (s : ControlRegs) : Prop where
  pg_pe : s.cr0.pg → s.cr0.pe
  nw_cd : s.cr0.nw → s.cr0.cd
  lma_eq : s.efer.lma = (s.efer.lme && s.cr0.pg)
  lma_pae : s.efer.lma → s.cr4.pae
  pcide_lma : s.cr4.pcide → s.efer.lma
  fred_lma : s.cr4.fred → s.efer.lma
  cet_wp : s.cr4.cet → s.cr0.wp

/-- The conditions under which `set_cr0` takes the processor out of long mode. -/
def leavesLongMode (e : Surroundings) (s : ControlRegs) (val : BitVec 64) : Bool :=
  exitsLongMode e s val && e.rip >>> 32 = 0

/-- The registers an image that passes the checks before the load leaves behind; they stay
when a later check fails. -/
def ControlImage.regs (image : ControlImage) : ControlRegs :=
  ⟨Cr0.set32 image.cr0, image.cr3, image.cr4, image.efer, false⟩

/-- Long mode is not left with CR4.FRED set, and what an RSM loads obeys the rules. -/
def Benign (f : Features) (s : ControlRegs) (ev : CrEvent) : Prop :=
  match ev.write with
  | .movCr0 val =>
    ¬ (s.cr4.fred ∧ ev.surroundings.cpl = 0 ∧ leavesLongMode ev.surroundings s val)
  | .rsm image =>
    ¬ s.inSmm ∨ image.refusedUnloaded f ∨
      if image.refusedAfterEfer f then { s with efer := image.efer }.Legal else image.regs.Legal
  | _ => True

/-! ## Bits -/

section Bits

variable (f : Features) (v : BitVec 32)

@[simp] theorem Cr0.pe_set32 : (Cr0.set32 v).pe = Cr0.pe v := by simp [Cr0.set32, Cr0.pe]
@[simp] theorem Cr0.wp_set32 : (Cr0.set32 v).wp = Cr0.wp v := by simp [Cr0.set32, Cr0.wp]
@[simp] theorem Cr0.nw_set32 : (Cr0.set32 v).nw = Cr0.nw v := by simp [Cr0.set32, Cr0.nw]
@[simp] theorem Cr0.cd_set32 : (Cr0.set32 v).cd = Cr0.cd v := by simp [Cr0.set32, Cr0.cd]
@[simp] theorem Cr0.pg_set32 : (Cr0.set32 v).pg = Cr0.pg v := by simp [Cr0.set32, Cr0.pg]

/-- Masking reserved bits and setting ET touches none of the bits the rules are about. -/
theorem cr0Committed_bits :
    (cr0Committed f v).pe = Cr0.pe v ∧ (cr0Committed f v).wp = Cr0.wp v ∧
      (cr0Committed f v).nw = Cr0.nw v ∧ (cr0Committed f v).cd = Cr0.cd v ∧
      (cr0Committed f v).pg = Cr0.pg v := by
  unfold cr0Committed
  split <;> simp [Cr0.allowed, Cr0.pe, Cr0.wp, Cr0.nw, Cr0.cd, Cr0.pg, Cr0.set32]

@[simp] theorem Efer.lma_setLma (v : Efer) (on : Bool) : (v.setLma on).lma = on := by
  cases on <;> simp [Efer.setLma, Efer.lma, Efer.lmaBit]

@[simp] theorem Efer.lme_setLma (v : Efer) (on : Bool) : (v.setLma on).lme = v.lme := by
  cases on <;> simp [Efer.setLma, Efer.lme, Efer.lmaBit]

end Bits

/-! ## One write -/

section Step

variable {f : Features} {e : Surroundings} {s : ControlRegs}

/-- Whatever its outcome, the write leaves the rules in force. -/
def KeepsLegal (x : CrM Unit) (s : ControlRegs) : Prop :=
  wp x s (fun _ s' => s'.Legal) fun _ s' => s'.Legal

theorem KeepsLegal.finalState {x : CrM Unit} (h : KeepsLegal x s) :
    (finalState (x.run s)).Legal := by
  cases hr : x.run s with
  | ok a s' => exact h.ok hr
  | error e s' => exact h.error hr

/-- A privileged write need only be looked at when it is allowed. -/
theorem KeepsLegal.privileged {x : CrM Unit} (hs : s.Legal) (h : KeepsLegal x s) :
    KeepsLegal (checkCpl0 e >>= fun _ => x) s := by
  refine wp.bind (Q := fun _ s' => s' = s) (E := fun _ s' => s' = s) ?_ ?_ ?_
  · exact .ite (fun _ => .throw rfl) fun _ => .pure rfl
  · rintro _ s' rfl
    exact h
  · rintro _ s' rfl
    exact hs

/-- What the long-mode transition does to EFER, when it succeeds. -/
inductive EferAfter (e : Surroundings) (s : ControlRegs) (pg : Bool) : Efer → Prop
  | enter : ¬ s.cr0.pg → pg → s.efer.lme → s.cr4.pae → EferAfter e s pg (s.efer.setLma true)
  | leave : s.cr0.pg → ¬ pg → e.cpuMode ≠ .long64 → s.efer.lma → ¬ s.cr4.pcide →
      e.rip >>> 32 = 0 → EferAfter e s pg (s.efer.setLma false)
  | same : (s.cr0.pg = pg ∨ ¬ s.cr0.pg ∧ ¬ s.efer.lme ∨ ¬ pg ∧ ¬ s.efer.lma) →
      EferAfter e s pg s.efer

theorem wp_longModeTransition (pg : Bool) :
    wp (longModeTransition e pg) s
      (fun _ s' => ∃ v, EferAfter e s pg v ∧ s' = { s with efer := v }) fun _ s' => s' = s := by
  refine .get_bind (.ite (fun hon => ?_) fun hon => .ite (fun hoff => ?_) fun hoff => ?_)
  · rw [Bool.and_eq_true, Bool.not_eq_true'] at hon
    refine .ite (fun hlme => ?_) fun hlme => .pure ⟨_, .same ?_, rfl⟩
    · refine .get_bind (.ite (fun _ => .throw rfl) fun hpae => .ite (fun _ => .throw rfl) fun _ =>
        .ite (fun _ => .throw rfl) fun _ => .set ⟨_, .enter ?_ hon.2 hlme ?_, rfl⟩)
      · simp [hon.1]
      · simpa using hpae
    · exact .inr (.inl ⟨by simp [hon.1], hlme⟩)
  · rw [Bool.and_eq_true, Bool.not_eq_true'] at hoff
    refine .ite (fun _ => .throw rfl) fun hmode => .ite (fun hlma => ?_) fun hlma =>
      .pure ⟨_, .same ?_, rfl⟩
    · refine .get_bind (.ite (fun _ => .throw rfl) fun hpcide => .ite (fun _ => .throw rfl)
        fun hrip => .set ⟨_, .leave hoff.1 ?_ hmode hlma hpcide (not_not.mp hrip), rfl⟩)
      simp [hoff.2]
    · exact .inr (.inr ⟨by simp [hoff.2], hlma⟩)
  · refine .pure ⟨_, .same (.inl ?_), rfl⟩
    cases hpg : s.cr0.pg <;> cases pg <;> simp_all

section

variable (hs : s.Legal)
include hs

/-- A committed CR0 with the EFER of its transition obeys the rules, unless CR4.FRED
outlives long mode. -/
theorem legal_of_eferAfter {new : Cr0} {v : Efer} (hok : ¬ cr0Refused s new)
    (hv : EferAfter e s new.pg v) (hfred : s.cr4.fred → v.lma) :
    { s with cr0 := cr0Committed f new, efer := v }.Legal := by
  obtain ⟨hpe, hwp, hnw, hcd, hpg⟩ := cr0Committed_bits f new
  obtain ⟨hs1, hs2, hs3, hs4, hs5, hs6, hs7⟩ := hs
  simp only [cr0Refused] at hok
  refine ⟨?_, ?_, ?_, ?_, ?_, hfred, ?_⟩
  · show (cr0Committed f new).pg → (cr0Committed f new).pe
    grind
  · show (cr0Committed f new).nw → (cr0Committed f new).cd
    grind
  · show v.lma = (v.lme && (cr0Committed f new).pg)
    cases hv <;> grind [Efer.lma_setLma, Efer.lme_setLma]
  · show v.lma → s.cr4.pae
    cases hv <;> grind [Efer.lma_setLma]
  · show s.cr4.pcide → v.lma
    cases hv <;> grind [Efer.lma_setLma]
  · show s.cr4.cet → (cr0Committed f new).wp
    grind

theorem keepsLegal_setCr0 {val : BitVec 64}
    (h : ¬ (s.cr4.fred ∧ leavesLongMode e s val)) : KeepsLegal (setCr0 f e val) s := by
  refine .get_bind (.ite (fun _ => .throw hs) fun hhigh => .ite (fun _ => .throw hs) fun hok => ?_)
  refine (wp_longModeTransition _).bind ?_ (by rintro _ _ rfl; exact hs)
  rintro _ _ ⟨v, hv, rfl⟩
  refine .get_bind (.ite (fun hpdptr => .throw ?_) fun _ => .set (legal_of_eferAfter hs hok hv ?_))
  · -- the PDPTEs are looked at outside long mode only, where EFER has not been touched
    simp only [ControlRegs.longMode, Bool.and_eq_true] at hpdptr
    cases hv with
    | enter => simp at hpdptr
    | leave _ hpg => exact absurd hpdptr.1.1.1 hpg
    | same => exact hs
  · intro hfred
    cases hv with
    | enter => simp
    | same => exact hs.fred_lma hfred
    | leave hpg hnew hmode hlma hpcide hrip =>
      refine absurd ⟨hfred, ?_⟩ h
      rw [leavesLongMode, Bool.and_eq_true, exitsLongMode_iff]
      simp_all

omit hs in
/-- At the exit from long mode only RIP decides between the commit and the panic. -/
theorem run_setCr0_of_exits {val : BitVec 64} (h : exitsLongMode e s val) :
    (setCr0 f e val).run s =
      if e.rip >>> 32 = 0 then
        .ok () { s with cr0 := cr0Committed f (val.setWidth 32), efer := s.efer.setLma false }
      else .error .panic s := by
  obtain ⟨hhigh, hok, hpg, hnew, hmode, hlma, hpcide⟩ := exitsLongMode_iff.mp h
  have hleave : (longModeTransition e (Cr0.pg (val.setWidth 32))).run s =
      if e.rip >>> 32 = 0 then .ok () { s with efer := s.efer.setLma false }
      else .error .panic s := by
    rw [longModeTransition, run_get_bind, if_neg (by simp [hpg]), if_pos (by simp [hpg, hnew]),
      if_neg hmode, if_pos hlma, leaveLongMode, run_get_bind, if_neg (by simp [hpcide])]
    by_cases hrip : e.rip >>> 32 = 0
    · rw [if_neg (not_not.mpr hrip), if_pos hrip]
      rfl
    · rw [if_pos hrip, if_neg hrip]
      rfl
  rw [setCr0, run_get_bind, if_neg (by simp [hhigh]), if_neg (by simp [hok])]
  by_cases hrip : e.rip >>> 32 = 0
  · rw [if_pos hrip] at hleave ⊢
    rw [run_bind_of_ok hleave, run_get_bind, if_neg (by simp [hnew])]
    rfl
  · rw [if_neg hrip] at hleave ⊢
    rw [run_bind_of_error hleave]

/-- LMSW keeps PG, so it cannot leave long mode. -/
theorem keepsLegal_lmswEw (msw : BitVec 16) : KeepsLegal (lmswEw f e msw) s := by
  refine .privileged hs (.get_bind (keepsLegal_setCr0 hs ?_))
  rintro ⟨-, h⟩
  rw [leavesLongMode, Bool.and_eq_true, exitsLongMode_iff] at h
  obtain ⟨⟨-, -, hpg, hnew, -⟩, -⟩ := h
  rw [Cr0.pg, BitVec.setWidth_setWidth_of_le _ (by decide), BitVec.setWidth_eq,
    BitVec.getLsbD_or, BitVec.getLsbD_and] at hnew
  rw [show s.cr0.getLsbD 31 = true from hpg] at hnew
  exact Bool.noConfusion hnew

theorem keepsLegal_clts : KeepsLegal (clts e) s := by
  refine .privileged hs (.modify ?_)
  obtain ⟨h1, h2, h3, h4, h5, h6, h7⟩ := hs
  constructor <;> simpa [Cr0.pg, Cr0.pe, Cr0.nw, Cr0.cd, Cr0.wp]

theorem legal_cr3 (cr3 : BitVec 64) : { s with cr3 := cr3 }.Legal := { hs with }

theorem keepsLegal_movCr4 (val : BitVec 64) : KeepsLegal (movCr4 f e val) s := by
  refine .privileged hs (.get_bind (.ite (fun _ => .throw hs) fun hok => .ite (fun _ => .throw hs)
    fun _ => .set ?_))
  simp only [cr4Refused, ControlRegs.longMode] at hok
  obtain ⟨h1, h2, h3, h4, h5, h6, h7⟩ := hs
  refine ⟨h1, h2, h3, ?_, ?_, ?_, ?_⟩ <;> dsimp only <;> grind

/-- LMA is kept, and LME too while paging is on. -/
theorem keepsLegal_wrmsrEfer (val : BitVec 64) : KeepsLegal (wrmsrEfer f e val) s := by
  refine .privileged hs (.get_bind (.ite (fun _ => .throw hs) fun hsupp => .ite (fun _ => .throw hs)
    fun hlme => .ite (fun _ => .throw hs) fun _ => .set ?_))
  set new : Efer := val.setWidth 32
  set v : Efer := ((new &&& f.eferSuppmask &&& ~~~Efer.lmaBit) ||| (s.efer &&& Efer.lmaBit)) &&&
    Efer.defined with hv
  have hlma : v.lma = s.efer.lma := by
    simp [hv, Efer.lma, Efer.lmaBit, Efer.defined]
  have hnew : v.lme = new.lme := by
    have hbit : (new &&& ~~~f.eferSuppmask).getLsbD 8 = false := by
      rw [not_not.mp hsupp]
      rfl
    simp only [hv, Efer.lme, Efer.lmaBit, Efer.defined]
    simp at hbit ⊢
    exact hbit
  obtain ⟨h1, h2, h3, h4, h5, h6, h7⟩ := hs
  refine ⟨h1, h2, ?_, ?_, ?_, ?_, h7⟩ <;> dsimp only
  · grind
  · rwa [hlma]
  · rwa [hlma]
  · rwa [hlma]

theorem keepsLegal_taskSwitchRegs (tss386 : Bool) (newCr3 : BitVec 32) :
    KeepsLegal (taskSwitchRegs tss386 newCr3) s := by
  have hts : { s with cr0 := Cr0.set32 (s.cr0 ||| 8#32) }.Legal := by
    obtain ⟨h1, h2, h3, h4, h5, h6, h7⟩ := hs
    constructor <;> simpa [Cr0.pg, Cr0.pe, Cr0.nw, Cr0.cd, Cr0.wp, Cr0.set32]
  refine .modify ?_
  dsimp only
  split
  · exact legal_cr3 hts _
  · exact hts

theorem legal_enterSmm : s.enterSmm.Legal := by
  have hnw := hs.nw_cd
  constructor <;> simp only [ControlRegs.enterSmm, Cr0.pg_set32, Cr0.nw_set32,
    Cr0.cd_set32]
  · simp [Cr0.pg]
  · simpa [Cr0.nw, Cr0.cd] using hnw
  · split <;> simp [Efer.lma, Efer.svmeBit, Cr0.pg]
  · split <;> simp [Efer.lma, Efer.svmeBit]
  · simp [Cr4.pcide]
  · simp [Cr4.fred]
  · simp [Cr4.cet]

end

theorem legal_resetRegs : resetRegs.Legal := by
  constructor <;> decide

/-- What RSM leaves behind: nothing is loaded, EFER alone, or all of the image. -/
theorem finalState_rsmRegs (image : ControlImage) :
    finalState ((rsmRegs f e image).run s) =
      if ¬ s.inSmm then s
      else if image.refusedUnloaded f then { s with inSmm := false }
      else if image.refusedAfterEfer f then { s with inSmm := false, efer := image.efer }
      else image.regs := by
  by_cases hsmm : s.inSmm
  · rw [rsmRegs, run_get_bind, if_neg (by simp [hsmm]), run_set_bind, restoreControl,
      if_neg (not_not.mpr hsmm)]
    split
    · rfl
    · rw [run_modify_bind]
      split
      · rfl
      · rw [run_modify_bind, run_get_bind]
        split <;> rfl
  · rw [rsmRegs, run_get_bind, if_pos (by simpa using hsmm), if_pos hsmm]
    rfl

theorem legal_inSmm (b : Bool) : { s with inSmm := b }.Legal ↔ s.Legal :=
  ⟨fun h => { h with }, fun h => { h with }⟩

/-- Leaving long mode with CR4.FRED set breaks the rule for CR4.FRED. -/
theorem not_legal_movCr0 {val : BitVec 64} (hfred : s.cr4.fred) (hcpl : e.cpl = 0)
    (h : leavesLongMode e s val) : ¬ (finalState ((movCr0 f e val).run s)).Legal := by
  have hcheck : (checkCpl0 e).run s = .ok () s := by
    rw [checkCpl0, if_neg (by simp [hcpl])]
    rfl
  rw [leavesLongMode, Bool.and_eq_true, decide_eq_true_eq] at h
  rw [movCr0, run_bind_of_ok hcheck, run_setCr0_of_exits h.1, if_pos h.2]
  intro hlegal
  have hlma : (s.efer.setLma false).lma = true := hlegal.fred_lma hfred
  simp at hlma

/-- A write keeps the rules exactly when it is benign. -/
theorem legal_crStep_iff (hs : s.Legal) (ev : CrEvent) : (crStep f s ev).Legal ↔ Benign f s ev := by
  obtain ⟨e, write⟩ := ev
  cases write with
  | movCr0 val =>
    constructor
    · rintro hlegal ⟨hfred, hcpl, hleaves⟩
      exact not_legal_movCr0 hfred hcpl hleaves hlegal
    · intro hben
      by_cases hcpl : e.cpl = 0
      · exact (KeepsLegal.privileged hs (keepsLegal_setCr0 hs fun ⟨hfred, hleaves⟩ =>
          hben ⟨hfred, hcpl, hleaves⟩)).finalState
      · show (finalState ((checkCpl0 e >>= fun _ => setCr0 f e val).run s)).Legal
        have hcheck : (checkCpl0 e).run s = .error .gp s := by
          rw [checkCpl0, if_pos hcpl]
          rfl
        rw [run_bind_of_error hcheck]
        exact hs
  | rsm image =>
    show (finalState ((rsmRegs f e image).run s)).Legal ↔ _
    rw [finalState_rsmRegs]
    simp only [Benign]
    by_cases hsmm : s.inSmm
    · by_cases hun : image.refusedUnloaded f
      · simp only [hsmm, hun, true_or, or_true, iff_true]
        exact (legal_inSmm false).mpr hs
      · rw [if_neg (not_not.mpr hsmm), if_neg hun, or_iff_right (not_not.mpr hsmm),
          or_iff_right hun]
        split
        · exact legal_inSmm (s := { s with efer := image.efer }) false
        · rfl
    · simpa [hsmm] using hs
  | lmsw msw => exact iff_of_true (keepsLegal_lmswEw hs msw).finalState trivial
  | clts => exact iff_of_true (keepsLegal_clts hs).finalState trivial
  | movCr3Rd val => exact iff_of_true (KeepsLegal.privileged hs (.get_bind (.ite
      (fun _ => .throw hs) fun _ => .set (legal_cr3 hs _)))).finalState trivial
  | movCr3Rq val =>
    exact iff_of_true (KeepsLegal.privileged hs (.modify (legal_cr3 hs _))).finalState trivial
  | movCr4 val => exact iff_of_true (keepsLegal_movCr4 hs val).finalState trivial
  | wrmsrEfer val => exact iff_of_true (keepsLegal_wrmsrEfer hs val).finalState trivial
  | taskSwitch tss386 newCr3 =>
    exact iff_of_true (keepsLegal_taskSwitchRegs hs tss386 newCr3).finalState trivial
  | smi => exact iff_of_true (legal_enterSmm hs) trivial
  | init => exact iff_of_true legal_resetRegs trivial

end Step

/-- A CR0 write that is refused leaves EFER as it was, and the control registers. -/
theorem refused_cr0_write_keeps_registers (f : Features) (e : Surroundings) (s : ControlRegs)
    (val : BitVec 64) : wp (setCr0 f e val) s (fun _ _ => True) fun _ s' => s' = s := by
  refine .get_bind (.ite (fun _ => .throw rfl) fun _ => .ite (fun _ => .throw rfl) fun _ => ?_)
  -- once EFER has changed, the PDPTEs are not looked at
  have htransition (pg : Bool) : wp (longModeTransition e pg) s
      (fun _ s' => s' = s ∨ (pg → s'.longMode)) fun _ s' => s' = s := by
    refine .get_bind (.ite (fun _ => .ite (fun _ => ?_) fun _ => .pure (.inl rfl)) fun _ =>
      .ite (fun hoff => .ite (fun _ => .throw rfl) fun _ => .ite (fun _ => ?_) fun _ =>
        .pure (.inl rfl)) fun _ => .pure (.inl rfl))
    · exact .get_bind (.ite (fun _ => .throw rfl) fun _ => .ite (fun _ => .throw rfl) fun _ =>
        .ite (fun _ => .throw rfl) fun _ => .set (.inr fun _ => by simp [ControlRegs.longMode]))
    · exact .get_bind (.ite (fun _ => .throw rfl) fun _ => .ite (fun _ => .throw rfl) fun _ =>
        .set (.inr fun hpg => by simp [hpg] at hoff))
  refine (htransition _).bind fun _ s' hs' => .get_bind ?_
  refine .ite (fun hrefused => .throw ?_) fun _ => .set trivial
  rcases hs' with rfl | hlong
  · rfl
  · simp_all

/-! ## Executions -/

/-- The rules hold at every instruction boundary of an execution from reset exactly when
no write of it leaves long mode with CR4.FRED set or loads a lawless image. -/
theorem control_registers_legal_iff (f : Features) (evs : List CrEvent) :
    (∀ s ∈ boundaries f evs, s.Legal) ↔ StepsMeet (crStep f) (Benign f) resetRegs evs :=
  forall_scanl_iff_stepsMeet_of_inv (P := ControlRegs.Legal) (I := fun _ => True)
    (fun _ _ _ _ => trivial) (fun _ ev _ hs => legal_crStep_iff hs ev) trivial legal_resetRegs evs

/-- At reset, with no paging structures in memory. -/
def resetSurroundings : Surroundings := ⟨0, .ia32Real, 0xFFF0#64, false, 11#4, false, fun _ => 0⟩

/-- PG, PE and LME without PAE and LMA, as an SMM handler may store them in the save area. -/
def lmeWithoutLma : ControlImage := ⟨0x80000011#32, 0, 0, 0x100#32, false⟩

/-- RSM checks EFER.LMA against EFER.LME and CR0.PG only when CR4.PAE is set. -/
theorem rsm_loads_lme_without_lma :
    ¬ ∀ s ∈ boundaries skylake
      [⟨resetSurroundings, .smi⟩, ⟨resetSurroundings, .rsm lmeWithoutLma⟩], s.Legal := by
  intro h
  have hlegal := h lmeWithoutLma.regs (by decide)
  exact absurd hlegal.lma_eq (by decide)

end RustyBox
