-- SUMMARY: Which data accesses registered MMIO regions intercept, and which the page permissions mediate.
import RustyBox.Cpu.AccessRoutes
import RustyBox.Cpu.SystemWalk

/-!
# Interception and mediation

When an access whose bytes are in registered MMIO regions goes to their callbacks alone,
when the page permissions decide about every byte an access reaches, and that an access on
the host-page fast path stays in its page.
-/

namespace RustyBox

open Lib List

variable {m : Machine} {s s' : Cpu m}

/-! ## Accesses -/

namespace GuestAccess

def width : GuestAccess → AccessWidth
  | .read width _ => width
  | .write width _ _ => width
  | .rmw width _ _ => width

/-- The route offers the access to the registered regions. -/
def Dispatched (s : Cpu m) : GuestAccess → Prop
  | .read width laddr => s.hostHit laddr width.bytes false = none ∧ InPage laddr width.bytes
  | .write width laddr _ => s.hostHit laddr width.bytes true = none ∧
      (width = .word ∨ InPage laddr width.bytes)
  | .rmw width _ _ => width ≠ .qword

/-- The route checks the access against the page permissions. -/
def Checked : GuestAccess → Prop
  | .read width laddr => InPage laddr width.bytes
  | .write width laddr _ => width = .word ∨ InPage laddr width.bytes
  | .rmw _ _ _ => False

/-- The probe of the host-page fast path. -/
def hostPath (s : Cpu m) : GuestAccess → Option HostHit
  | .read width laddr => s.hostHit laddr width.bytes false
  | .write width laddr _ => s.hostHit laddr width.bytes true
  | .rmw width laddr _ =>
    if width = .qword ∨ s.mmio.isEmpty then s.hostHit laddr width.bytes true else none

/-- The pages of an access that is made without a check carry the permissions it needs. A read
counts when it returns, a write byte by byte. -/
def PagesCarry (s : Cpu m) : GuestAccess → Prop
  | .read width laddr =>
    s.AlignmentFault laddr width.acMask ∨ s.SplitReadCarried laddr width.bytes
  | .write width laddr val => s.AlignmentFault laddr width.acMask ∨
      s.SplitWriteCarried laddr (val.setWidth (8 * width.bytes)) 0 width.bytes
  | .rmw width laddr f => ∀ p ∈ s.rmwAddrs width.bytes laddr (hostPath s (.rmw width laddr f)),
      s.Carries p false ∧ s.Carries p true

/-- How many bytes the access reads. -/
def readBytes : GuestAccess → Nat
  | .read width _ => width.bytes
  | .write _ _ _ => 0
  | .rmw width _ _ => width.bytes

/-- How many bytes the access writes. -/
def writtenBytes : GuestAccess → Nat
  | .read _ _ => 0
  | .write width _ _ => width.bytes
  | .rmw width _ _ => width.bytes

/-- What an access logs and reports. -/
abbrev Outcome (a : GuestAccess) (s : Cpu m) (new : List DataAccess) (vs : List MemPermViolation) :
    Prop :=
  s.Outcome (only false a.readBytes + only true a.writtenBytes) (a.Dispatched s) a.Checked
    (a.PagesCarry s) new vs

theorem wp_write (s : Cpu m) (width : AccessWidth) (laddr val : BitVec 64) :
    Makes (writeLinear width laddr val) s true width.bytes (Dispatched s (.write width laddr val))
      (Checked (.write width laddr val)) (PagesCarry s (.write width laddr val)) := by
  have hwide {n : Nat} (hw : width ≠ .word) :
      InPage laddr n ↔ width = .word ∨ InPage laddr n := (or_iff_right hw).symm
  cases width with
  | byte =>
    have htrue : True ↔ AccessWidth.byte = .word ∨ InPage laddr 1 :=
      iff_of_true trivial (.inr (.one laddr))
    have hslow {carried : Prop} : Makes (writeOnePage 1 (Cpu.memWriteByte · .data) laddr
        (val.setWidth 8)) s true 1 True True carried :=
      wp_writeOnePage s (by decide) (.one laddr) fun s _ h =>
        touches_memWriteByte s (h.first (by decide)) (val.setWidth 8)
    exact (wp_writeHostOr (by decide) (by decide) (fun _ => trivial) hslow).congr
      (and_congr_right fun _ => htrue) htrue .rfl
  | word =>
    have htrue : True ↔ AccessWidth.word = .word ∨ InPage laddr 2 := iff_of_true trivial (.inl rfl)
    exact (wp_writeLinearWord s laddr _).congr (and_congr_right fun _ => htrue) htrue .rfl
  | dword =>
    exact (wp_writeWide s (by decide) (by decide) laddr 3#32 fun s _ h =>
      touches_memWriteDword s h (val.setWidth 32)).congr (and_congr_right fun _ => hwide nofun)
      (hwide nofun) .rfl
  | qword =>
    show Makes _ s true 8 _ _ (_ ∨ s.SplitWriteCarried laddr (val.setWidth 64) 0 8)
    rw [BitVec.setWidth_eq]
    exact (wp_writeWide s (by decide) (by decide) laddr 7#32 fun s _ h =>
      touches_memWriteBytes s h val).congr (and_congr_right fun _ => hwide nofun) (hwide nofun) .rfl

theorem wp_rmw (s : Cpu m) (width : AccessWidth) (laddr : BitVec 64) (f : BitVec 64 → BitVec 64)
    {probe : Option HostHit} (hprobe : hostPath s (.rmw width laddr f) = probe) :
    wp (rmwLinear width laddr f) s
      (fun _ s' => s.Modifies s' width.bytes (width ≠ .qword) (s.rmwAddrs width.bytes laddr probe))
      fun f s' => s.Faults f s' (s.rmwAddrs width.bytes laddr probe) := by
  have hnarrow (hw : width ≠ .qword) :
      (if s.mmio.isEmpty then s.hostHit laddr width.bytes true else none) = probe := by
    simpa [hostPath, hw] using hprobe
  have hoffered {n : Nat} {s' : Cpu m} {addrs : List (BitVec 64)} (h : s.Modifies s' n True addrs)
      {width : AccessWidth} (hw : width ≠ .qword) : s.Modifies s' n (width ≠ .qword) addrs := by
    rwa [show (width ≠ .qword) = True from eq_true hw]
  cases width with
  | byte =>
    exact (wp_rmwLinearNarrow s (by decide) (by decide)
      (fun s _ h => wp_memReadByte s (h.first (by decide)))
      (fun s _ v h => touches_memWriteByte s (h.first (by decide)) v) laddr f (hnarrow nofun)).mono
      fun _ _ h => hoffered h nofun
  | word =>
    exact (wp_rmwLinearNarrow s (by decide) (by decide) (fun s _ h => wp_memReadWord s h)
      (fun s _ v h => touches_memWriteWord s h v) laddr f (hnarrow nofun)).mono
      fun _ _ h => hoffered h nofun
  | dword =>
    exact (wp_rmwLinearNarrow s (by decide) (by decide) (fun s _ h => wp_memReadDword s h)
      (fun s _ v h => touches_memWriteDword s h v) laddr f (hnarrow nofun)).mono
      fun _ _ h => hoffered h nofun
  | qword =>
    obtain rfl : s.hostHit laddr 8 true = probe := hprobe
    refine (wp_readRmwLinearQword s laddr).bind ?_
    intro v s₁ hreads
    refine (wp_writeRmwLinearQword s₁ (f v) hreads.2.1).mono (fun _ s' hwrites => ?_)
    rw [show (AccessWidth.qword ≠ .qword) = False from eq_false fun h => h rfl]
    exact hreads.modifies hwrites

/-- Every access has an outcome when it succeeds, and fails in a known way otherwise. -/
theorem wp_perform (s : Cpu m) (a : GuestAccess) :
    wp a.perform s
      (fun _ s' => ∃ x new vs, { s with addressXlation := x }.Logs s' new vs ∧ a.Outcome s new vs)
      fun f s' => s.FailsWith f s' a.Checked (a.PagesCarry s) := by
  cases a with
  | read width laddr =>
    refine (wp_readLinear s width laddr).bind ?_
    rintro _ s' ⟨new, vs, hlogs, hout⟩
    refine .pure ⟨s.addressXlation, new, vs, hlogs, ?_⟩
    rwa [Outcome, writtenBytes, only_zero, add_zero]
  | write width laddr val =>
    refine (wp_write s width laddr val).mono ?_
    rintro _ s' ⟨new, vs, hlogs, hout⟩
    refine ⟨s.addressXlation, new, vs, hlogs, ?_⟩
    rwa [Outcome, readBytes, only_zero, zero_add]
  | rmw width laddr f =>
    refine (wp_rmw s width laddr f rfl).mono ?_ ?_
    · rintro _ s' ⟨x, new, vs, hlogs, hout⟩
      refine ⟨x, new, vs, hlogs, ?_⟩
      rwa [Outcome, PagesCarry, forall₂_and]
    · rintro _ s' ⟨hfault, haddrs⟩
      refine .of_pageFault hfault fun _ => ?_
      rw [PagesCarry, haddrs]
      exact forall_mem_nil _

/-- What a run logged is the outcome of the access, or what its failure left behind. -/
theorem outcome_or_failed (a : GuestAccess) {new : List DataAccess}
    (hlog : (finalState (a.perform.run s)).accessLog = s.accessLog ++ new) :
    ∃ vs, (finalState (a.perform.run s)).permViolations = s.permViolations ++ vs ∧
      (succeeded (a.perform.run s) = true ∧ a.Outcome s new vs ∨
        succeeded (a.perform.run s) = false ∧ s.Failed a.Checked (a.PagesCarry s) new vs) := by
  have hwp := wp_perform s a
  cases hr : a.perform.run s with
  | ok _ s' =>
    obtain ⟨x, new', vs, hlogs, hout⟩ := hwp.ok hr
    rw [hr] at hlog
    obtain rfl : new' = new := append_cancel_left (hlogs.log.symm.trans hlog)
    exact ⟨vs, hlogs.violations, .inl ⟨rfl, hout⟩⟩
  | error f s' =>
    obtain ⟨new', vs, hlogs, hfailed⟩ := (hwp.error hr).failed
    rw [hr] at hlog
    obtain rfl : new' = new := append_cancel_left (hlogs.log.symm.trans hlog)
    exact ⟨vs, hlogs.violations, .inr ⟨rfl, hfailed⟩⟩

/-! ## Consequences -/

/-- The log accounts for every byte of the access. -/
structure Accounts (a : GuestAccess) (new : List DataAccess) : Prop where
  reads : bytesOf false new = a.readBytes
  writes : bytesOf true new = a.writtenBytes

theorem Outcome.accounts {a : GuestAccess} {new : List DataAccess} {vs : List MemPermViolation}
    (h : a.Outcome s new vs) : a.Accounts new :=
  ⟨h.bytesOf_eq false, (h.bytesOf_eq true).trans (Nat.zero_add _)⟩

theorem Outcome.ne_nil {a : GuestAccess} {new : List DataAccess} {vs : List MemPermViolation}
    (h : a.Outcome s new vs) : new ≠ [] := by
  rintro rfl
  have hacc := Outcome.accounts h
  have hpos (width : AccessWidth) : width.bytes ≠ 0 := by cases width <;> decide
  cases a with
  | read width laddr => exact hpos width hacc.reads.symm
  | write width laddr val => exact hpos width hacc.writes.symm
  | rmw width laddr f => exact hpos width hacc.reads.symm

/-- A successful access whose bytes are all in registered regions is made through their
callbacks alone exactly when its route offers it to them. -/
theorem registered_mmio_intercepts_iff {a : GuestAccess} (hrun : a.perform.run s = .ok ⟨⟩ s')
    {new : List DataAccess} (hlog : s'.accessLog = s.accessLog ++ new)
    (hreg : ∀ e ∈ new, e.Registered s.mmio) :
    (a.Accounts new ∧ ∀ e ∈ new, e.Intercepted s.mmio) ↔ a.Dispatched s := by
  obtain ⟨x, new', vs, hlogs, hout⟩ := (wp_perform s a).ok hrun
  obtain rfl : new' = new := append_cancel_left (hlogs.log.symm.trans hlog)
  constructor
  · rintro ⟨-, hint⟩
    by_contra hd
    obtain ⟨e, he⟩ := exists_mem_of_ne_nil new' (Outcome.ne_nil hout)
    exact (hint e he).not_plain (hout.plain hd e he)
  · exact fun hd => ⟨Outcome.accounts hout, hout.intercepted hd hreg⟩

/-- A region over the page that page 0 is mapped to. -/
def deviceRegion : MmioRegion := ⟨0x3000#64, 0x1000#64, fun _ _ _ => 0xAB#64, by decide⟩

def deviceCpu : Cpu smallMachine := { onePageCpu 7#32 with mmio := [deviceRegion] }

theorem first_read_intercepted :
    (Accounts (.read .byte 0#64) [⟨.mmio 0x3000#64, false, 0x3000#64, 1⟩] ∧
      ∀ e ∈ [(⟨.mmio 0x3000#64, false, 0x3000#64, 1⟩ : DataAccess)],
        e.Intercepted deviceCpu.mmio) := by
  refine (registered_mmio_intercepts_iff (s := deviceCpu) (a := .read .byte 0#64)
    (eq_ok_of_succeeded (by decide +kernel)) (by decide +kernel) ?_).mpr
    ⟨by decide +kernel, by decide⟩
  exact List.forall_mem_singleton.mpr ⟨deviceRegion, mem_singleton_self _, by decide⟩

/-- The first read fills the TLB, so the second goes to the RAM under the region. -/
theorem second_read_bypasses_region :
    ∃ s₁ s₂ : Cpu smallMachine,
      (perform (.read .byte 0#64)).run deviceCpu = .ok ⟨⟩ s₁ ∧
      (perform (.read .byte 0#64)).run s₁ = .ok ⟨⟩ s₂ ∧
      s₂.accessLog = s₁.accessLog ++ [⟨.ram, false, 0x3000#64, 1⟩] ∧
      DataAccess.Registered s₁.mmio ⟨.ram, false, 0x3000#64, 1⟩ ∧
      ¬ DataAccess.Intercepted s₁.mmio ⟨.ram, false, 0x3000#64, 1⟩ := by
  refine ⟨_, _, eq_ok_of_succeeded (by decide +kernel), eq_ok_of_succeeded (by decide +kernel),
    by decide +kernel, ⟨deviceRegion, mem_singleton_self _, by decide⟩, ?_⟩
  rintro ⟨r, -, -, htarget⟩
  cases htarget

/-- What the page permissions are meant to ensure of a run: every byte written, and every byte
read if the access succeeds, is cleared. -/
def Mediated (s : Cpu m) (succeeds : Prop) (new : List DataAccess) (vs : List MemPermViolation) :
    Prop :=
  ∀ e ∈ new, (e.write = true ∨ succeeds) → ∀ i < e.len,
    s.Cleared vs e.write (e.paddr + BitVec.ofNat 64 i)

theorem mediated_nil_iff (succeeds : Prop) (new : List DataAccess) :
    Mediated s succeeds new [] ↔ ∀ e ∈ new, (e.write = true ∨ succeeds) → ∀ i < e.len,
      s.Carries (e.paddr + BitVec.ofNat 64 i) e.write := by
  simp [Mediated, Cpu.Cleared]

/-- An access is mediated exactly when its route makes the checks, or the pages of its bytes
carry the permissions. -/
theorem page_permissions_mediate_iff (a : GuestAccess) {new : List DataAccess}
    {vs : List MemPermViolation}
    (hlog : (finalState (a.perform.run s)).accessLog = s.accessLog ++ new)
    (hvs : (finalState (a.perform.run s)).permViolations = s.permViolations ++ vs) :
    Mediated s (succeeded (a.perform.run s)) new vs ↔ a.Checked ∨ a.PagesCarry s := by
  obtain ⟨vs', hvs', hend⟩ := outcome_or_failed a hlog
  obtain rfl : vs' = vs := append_cancel_left (hvs'.symm.trans hvs)
  by_cases hc : a.Checked
  · refine iff_of_true ?_ (.inl hc)
    rcases hend with ⟨-, hout⟩ | ⟨-, hfailed⟩
    · exact fun e he _ => hout.cleared hc e he
    · rw [hfailed.nothing hc]
      exact fun e he => absurd he not_mem_nil
  · rw [or_iff_right hc]
    rcases hend with ⟨hok, hout⟩ | ⟨herr, hfailed⟩
    · rw [hout.silent hc, mediated_nil_iff, ← hout.carried_iff hc]
      simp [hok, Cpu.CarriesAll]
    · rw [hfailed.silent hc, mediated_nil_iff, ← hfailed.carried_iff hc]
      simp +contextual [herr, Cpu.CarriesAll]

/-- No page carries any permission, and there is no hook. -/
def lockedCpu : Cpu smallMachine :=
  { onePageCpu 7#32 with pagePermissions := some ⟨16, fun _ => ⟨false, false, false⟩⟩ }

theorem locked_read_mediated :
    Mediated lockedCpu (succeeded ((perform (.read .byte 0#64)).run lockedCpu)) [] [] :=
  (page_permissions_mediate_iff (s := lockedCpu) (.read .byte 0#64) (by decide +kernel)
    (by decide +kernel)).mpr (.inl (.one 0#64))

/-- A read-modify-write reads and changes a byte of a page that carries neither permission. -/
theorem locked_rmw_not_mediated :
    ∃ s' : Cpu smallMachine,
      (perform (.rmw .byte 0#64 fun _ => 0x55#64)).run lockedCpu = .ok ⟨⟩ s' ∧
      s'.accessLog = lockedCpu.accessLog ++
        [⟨.ram, false, 0x3000#64, 1⟩, ⟨.ram, true, 0x3000#64, 1⟩] ∧
      s'.ram 0x3000 = 0x55#8 ∧ lockedCpu.ram 0x3000 = 0#8 ∧
      ¬ Mediated lockedCpu True [⟨.ram, false, 0x3000#64, 1⟩, ⟨.ram, true, 0x3000#64, 1⟩] [] := by
  refine ⟨_, eq_ok_of_succeeded (by decide +kernel), by decide +kernel, by decide +kernel,
    by decide +kernel, ?_⟩
  rw [mediated_nil_iff]
  intro h
  have hcarries := h ⟨.ram, true, 0x3000#64, 1⟩ (by decide) (.inl rfl) 0 (by decide) _ rfl
  exact absurd hcarries (by decide)

/-! ## Alignment -/

def laddr : GuestAccess → BitVec 64
  | .read _ laddr => laddr
  | .write _ laddr _ => laddr
  | .rmw _ laddr _ => laddr

def isRmw : GuestAccess → Bool
  | .rmw _ _ _ => true
  | _ => false

theorem checkAlignment_byte (laddr : BitVec 64) :
    (checkAlignment laddr AccessWidth.byte.acMask : CpuM m PUnit) = pure ⟨⟩ := by
  funext s
  refine checkAlignment_pass fun h => h.2.2 ?_
  rw [show AccessWidth.byte.acMask = 0#32 from rfl, BitVec.zero_and, BitVec.and_zero]

/-- A read is an alignment check and a probe. -/
theorem perform_read (width : AccessWidth) (laddr : BitVec 64) :
    ∃ slow, (perform (.read width laddr) : CpuM m PUnit) = (do
      checkAlignment laddr width.acMask
      let _ ← readHostOr width.bytes laddr slow
      return ⟨⟩) := by
  cases width with
  | byte => exact ⟨_, by rw [checkAlignment_byte]; exact bind_assoc ..⟩
  | word | dword => exact ⟨_, (bind_assoc ..).trans (bind_assoc ..)⟩
  | qword => exact ⟨_, bind_assoc ..⟩

theorem perform_write (width : AccessWidth) (laddr val : BitVec 64) :
    ∃ slow, (perform (.write width laddr val) : CpuM m PUnit) = (do
      checkAlignment laddr width.acMask
      writeHostOr width.bytes laddr (val.setWidth (8 * width.bytes)) slow) := by
  cases width with
  | byte => exact ⟨_, by rw [checkAlignment_byte]; rfl⟩
  | word | dword => exact ⟨_, rfl⟩
  | qword =>
    rw [show val.setWidth (8 * AccessWidth.qword.bytes) = val from BitVec.setWidth_eq val]
    exact ⟨_, rfl⟩

/-- With every check armed for user code, a misaligned address fails the one of its width. -/
theorem alignmentFault_of_not_dvd {width : AccessWidth} {laddr : BitVec 64} (huser : s.userPl)
    (hmask : s.alignmentCheckMask = 0xF#32) (hmis : ¬ width.bytes ∣ laddr.toNat) :
    s.AlignmentFault laddr width.acMask := by
  obtain ⟨k, hpos, hk, hbytes⟩ : ∃ k, 0 < k ∧ k ≤ 3 ∧ width.bytes = 2 ^ k := by
    cases width with
    | byte => exact absurd (one_dvd _) hmis
    | word => exact ⟨1, by decide⟩
    | dword => exact ⟨2, by decide⟩
    | qword => exact ⟨3, by decide⟩
  refine ⟨by rw [hmask]; decide, huser, fun hzero => hmis (Nat.dvd_of_mod_eq_zero ?_)⟩
  rw [AccessWidth.acMask, hmask, hbytes] at hzero
  have hmod : laddr.toNat % 2 ^ 32 % 2 ^ k = 0 := by
    rw [← Nat.and_two_pow_sub_one_eq_mod]
    interval_cases k <;> simpa using congrArg BitVec.toNat hzero
  rwa [Nat.mod_mod_of_dvd _ (pow_dvd_pow 2 (by omega)), ← hbytes] at hmod

/-- With alignment checking armed, as `handle_alignment_check` does for user code, a misaligned
access raises #AC before it does anything exactly when it is no read-modify-write. -/
theorem alignment_checked_iff (a : GuestAccess) (huser : s.userPl)
    (hmask : s.alignmentCheckMask = 0xF#32) (hmis : ¬ a.width.bytes ∣ a.laddr.toNat) :
    a.perform.run s = .error ⟨.ac, 0#16⟩ s ↔ a.isRmw = false := by
  have hfault := checkAlignment_fault (alignmentFault_of_not_dvd huser hmask hmis)
  cases a with
  | read width laddr =>
    obtain ⟨slow, hread⟩ := perform_read (m := m) width laddr
    rw [hread]
    exact iff_of_true (run_bind_of_error hfault) rfl
  | write width laddr val =>
    obtain ⟨slow, hwrite⟩ := perform_write (m := m) width laddr val
    rw [hwrite]
    exact iff_of_true (run_bind_of_error hfault) rfl
  | rmw width laddr f =>
    refine iff_of_false (fun h => ?_) nofun
    cases ((wp_rmw s width laddr f rfl).error h).1.2

/-- User code that may write its one page, with alignment checking armed. -/
def armedCpu : Cpu smallMachine :=
  { onePageCpu 7#32 with userPl := true, alignmentCheckMask := 0xF#32 }

theorem armed_read_checked :
    (perform (.read .dword 1#64)).run armedCpu = .error ⟨.ac, 0#16⟩ armedCpu :=
  (alignment_checked_iff (s := armedCpu) (.read .dword 1#64) rfl rfl (by decide)).mpr rfl

/-- A misaligned read-modify-write of a doubleword is made without a fault. -/
theorem armed_rmw_not_checked :
    ∃ s' : Cpu smallMachine,
      (perform (.rmw .dword 1#64 fun _ => 0x55#64)).run armedCpu = .ok ⟨⟩ s' ∧
      s'.ram 0x3001 = 0x55#8 ∧ armedCpu.ram 0x3001 = 0#8 := by
  exact ⟨_, eq_ok_of_succeeded (by decide +kernel), by decide +kernel, by decide +kernel⟩

/-! ## The host path -/

/-- An access on the host-page fast path: the checks, and RAM at the offset of the hit. -/
def direct (hit : HostHit) : GuestAccess → CpuM m PUnit
  | .read width laddr => do
    checkAlignment laddr width.acMask
    checkPerm laddr hit.paddr width.bytes false
    let _ ← ramRead width.bytes hit.offset hit.paddr
    return ⟨⟩
  | .write width laddr val => do
    checkAlignment laddr width.acMask
    checkPerm laddr hit.paddr width.bytes true
    modify fun s => s.ramWrite .data width.bytes hit.offset hit.paddr (val.setWidth (8 * width.bytes))
  | .rmw width _ f => do
    let v ← ramRead width.bytes hit.offset hit.paddr
    setXlation (.host hit.offset hit.paddr)
    let v := (f (v.setWidth 64)).setWidth (8 * width.bytes)
    modify fun s => s.ramWrite .data width.bytes hit.offset hit.paddr v

/-- After the alignment check, the probe decides. -/
theorem run_aligned {α : Type} {laddr : BitVec 64} {acMask : BitVec 32} {x y : CpuM m α}
    (h : x.run s = y.run s) :
    (checkAlignment laddr acMask >>= fun _ => x).run s =
      (checkAlignment laddr acMask >>= fun _ => y).run s := by
  by_cases hfault : s.AlignmentFault laddr acMask
  · rw [run_bind_of_error (checkAlignment_fault hfault),
      run_bind_of_error (checkAlignment_fault hfault)]
  · rw [run_bind_of_ok (checkAlignment_pass hfault), run_bind_of_ok (checkAlignment_pass hfault), h]

theorem run_perform {a : GuestAccess} {hit : HostHit} (hhit : a.hostPath s = some hit) :
    a.perform.run s = (a.direct hit).run s := by
  cases a with
  | read width laddr =>
    have hprobe : s.hostHit laddr width.bytes false = some hit := hhit
    obtain ⟨slow, hread⟩ := perform_read (m := m) width laddr
    rw [hread]
    refine run_aligned ?_
    simp only [readHostOr, bind_assoc, run_get_bind, hprobe]
  | write width laddr val =>
    have hprobe : s.hostHit laddr width.bytes true = some hit := hhit
    obtain ⟨slow, hwrite⟩ := perform_write (m := m) width laddr val
    rw [hwrite]
    refine run_aligned ?_
    simp only [writeHostOr, run_get_bind, hprobe]
  | rmw width laddr f =>
    obtain ⟨hprobe, hhit⟩ := Option.ite_none_right_eq_some.mp hhit
    have hnarrow (hw : width ≠ .qword) :
        (if s.mmio.isEmpty then s.hostHit laddr width.bytes true else none) = some hit := by
      rw [if_pos (hprobe.resolve_left hw), hhit]
    have hrun (memRead memWrite) (hw : width ≠ .qword) :
        (rmwLinearNarrow width.bytes memRead memWrite laddr f).run s =
          (direct hit (.rmw width laddr f)).run s := by
      simp only [rmwLinearNarrow, readRmwLinear, prepareRmwLinear, bind_assoc, run_get_bind,
        hnarrow hw]
      rfl
    cases width with
    | byte | word | dword => exact hrun _ _ nofun
    | qword =>
      have hprobe : s.hostHit laddr 8 true = some hit := hhit
      simp only [perform, direct, rmwLinear, readRmwLinearQword, bind_assoc, run_get_bind, hprobe,
        AccessWidth.bytes, BitVec.setWidth_eq]
      rfl

/-- From every table, an access on the fast path is made at the offset of its hit, whose page
holds all of its bytes; and on whatever path, no entry of the log leaves its page. -/
theorem fast_path_stays_in_page (ops : List (TlbOp m)) (c : Cpu m) (a : GuestAccess) :
    let s := { c with dtlb := Dtlb.after ops }
    s.dtlb.EntriesHome ∧
      (∀ hit, a.hostPath s = some hit →
        a.perform.run s = (a.direct hit).run s ∧ StaysInPage m a.laddr a.width.bytes hit) ∧
      ∀ new, (finalState (a.perform.run s)).accessLog = s.accessLog ++ new →
        ∀ e ∈ new, InPage e.paddr e.len := by
  intro s
  refine ⟨entriesHome _, fun hit hhit => ⟨run_perform hhit, ?_⟩, fun new hlog => ?_⟩
  · have hbytes : 1 ≤ a.width.bytes ∧ a.width.bytes ≤ 8 := by cases a.width <;> decide
    cases a with
    | read width laddr | write width laddr val => exact staysInPage_hit hbytes.1 hbytes.2 hhit
    | rmw width laddr f =>
      exact staysInPage_hit hbytes.1 hbytes.2 (Option.ite_none_right_eq_some.mp hhit).2
  · obtain ⟨vs, -, ⟨-, hout⟩ | ⟨-, hfailed⟩⟩ := outcome_or_failed a hlog
    · exact hout.inPage
    · exact hfailed.inPage

/-- Legacy paging with write protection. -/
def pagedCpu : Cpu smallMachine :=
  .idle ⟨true, true, false, false, false, false, false, false, false, false, 0, fun _ => 0⟩ fun _ => 0

/-- The page at `0x5000` filled with the frame at `0x3000`. -/
def oneFill : List (TlbOp smallMachine) :=
  [.fill pagedCpu 0x5000#64 ⟨0x3000#64, 6#32, 0xFFF#32, 0#4⟩ false false]

/-- The last eight bytes of the page are read in RAM; a read one byte further is no hit. -/
theorem oneFill_last_qword :
    StaysInPage smallMachine 0x5FF8#64 8 ⟨0x3FF8, 0x3FF8#64⟩ ∧
      (∀ e ∈ [(⟨.ram, false, 0x3FF8#64, 8⟩ : DataAccess)], InPage e.paddr e.len) ∧
      hostPath { pagedCpu with dtlb := Dtlb.after oneFill } (.read .qword 0x5FF9#64) = none :=
  have h := fast_path_stays_in_page oneFill pagedCpu (.read .qword 0x5FF8#64)
  ⟨(h.2.1 ⟨0x3FF8, 0x3FF8#64⟩ (by decide +kernel)).2, h.2.2 _ (by decide +kernel),
    by decide +kernel⟩

end GuestAccess

end RustyBox
