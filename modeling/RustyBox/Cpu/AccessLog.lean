-- SUMMARY: What translations, checks and physical accesses add to the log of data accesses.
import RustyBox.Cpu.Access
import RustyBox.Cpu.AccessedDirty
import RustyBox.Cpu.FastPath
import RustyBox.Lib.Wp

/-!
# What an access logs

One specification for each step an access is made of: a translation logs nothing, a
permission check at most a violation, a callback one entry, and a physical access plain
entries that follow one another through its bytes. Specifications say as well what a step
leaves alone, so that they compose.
-/

namespace RustyBox

open Lib List

variable {m : Machine} {s s' s'' : Cpu m}

/-! ## Entries -/

/-- The entry is not a callback. -/
def DataAccess.Plain (e : DataAccess) : Prop := ∀ start, e.target ≠ .mmio start

/-- How many bytes a log reads, or writes. -/
def bytesOf (write : Bool) (es : List DataAccess) : Nat :=
  ((es.filter (·.write = write)).map DataAccess.len).sum

@[simp] theorem bytesOf_append (write : Bool) (es es' : List DataAccess) :
    bytesOf write (es ++ es') = bytesOf write es + bytesOf write es' := by
  simp [bytesOf]

@[simp] theorem bytesOf_cons (write : Bool) (e : DataAccess) (es : List DataAccess) :
    bytesOf write (e :: es) = (if e.write = write then e.len else 0) + bytesOf write es := by
  unfold bytesOf
  split <;> simp_all

theorem len_eq_zero_of_bytesOf {write : Bool} {es : List DataAccess} {e : DataAccess}
    (h : bytesOf write es = 0) (he : e ∈ es) (hwrite : e.write = write) : e.len = 0 :=
  List.sum_eq_zero_iff_forall_eq_nat.mp h _
    (mem_map_of_mem (mem_filter.mpr ⟨he, decide_eq_true hwrite⟩))

/-- The bytes of an access in one direction. -/
def only (write : Bool) (n : Nat) (w : Bool) : Nat := if write = w then n else 0

theorem only_zero (write : Bool) : only write 0 = 0 := funext fun _ => ite_self 0

theorem only_add (write : Bool) (n k : Nat) : only write n + only write k = only write (n + k) := by
  funext w
  unfold only
  rw [Pi.add_apply]
  split <;> rfl

/-- The entries follow one another through the `n` bytes from `paddr` on. -/
inductive Spans (write : Bool) : BitVec 64 → Nat → List DataAccess → Prop
  | nil (paddr : BitVec 64) : Spans write paddr 0 []
  | cons {paddr : BitVec 64} {k n : Nat} {es : List DataAccess} (target : Target) (hk : 0 < k)
      (h : Spans write (paddr + BitVec.ofNat 64 k) n es) :
      Spans write paddr (k + n) (⟨target, write, paddr, k⟩ :: es)

namespace Spans

variable {write : Bool} {paddr : BitVec 64} {n k : Nat} {es es' : List DataAccess}

theorem single (target : Target) (paddr : BitVec 64) (hn : 0 < n) :
    Spans write paddr n [⟨target, write, paddr, n⟩] :=
  .cons target hn (.nil _)

variable (h : Spans write paddr n es)
include h

theorem append (h' : Spans write (paddr + BitVec.ofNat 64 n) k es') :
    Spans write paddr (n + k) (es ++ es') := by
  induction h with
  | nil paddr =>
    rw [BitVec.add_zero] at h'
    rwa [Nat.zero_add]
  | cons target hk _ ih =>
    rw [BitVec.ofNat_add, ← BitVec.add_assoc] at h'
    rw [Nat.add_assoc]
    exact .cons target hk (ih h')

theorem bytesOf_eq (w : Bool) : bytesOf w es = only write n w := by
  induction h with
  | nil => exact (ite_self 0).symm
  | cons target hk _ ih =>
    rw [bytesOf_cons, ih, ← only_add]
    rfl

/-- Each entry is a stretch of the bytes. -/
theorem mem {e : DataAccess} (he : e ∈ es) :
    e.write = write ∧ ∃ j, j + e.len ≤ n ∧ e.paddr = paddr + BitVec.ofNat 64 j := by
  induction h with
  | nil => cases he
  | @cons paddr k n es target hk _ ih =>
    rcases List.mem_cons.mp he with rfl | he
    · exact ⟨rfl, 0, by simp, (BitVec.add_zero _).symm⟩
    · obtain ⟨hwrite, j, hj, hpaddr⟩ := ih he
      refine ⟨hwrite, k + j, by omega, ?_⟩
      rw [hpaddr, BitVec.ofNat_add, BitVec.add_assoc]

/-- The first byte begins an entry. -/
theorem exists_first (hn : 0 < n) : ∃ e ∈ es, e.paddr = paddr ∧ 0 < e.len := by
  cases h with
  | nil => cases hn
  | cons target hk _ => exact ⟨_, mem_cons_self, rfl, hk⟩

end Spans

/-! ## Accessed and dirty bits in memory -/

/-- Memory differs in accessed and dirty bits only: bits 5 and 6 of the first byte of an
entry. -/
def AdOnly (mem mem' : Nat → BitVec 8) : Prop :=
  ∀ o, if o % 4 = 0 then AdLe (mem o) (mem' o) else mem' o = mem o

namespace AdOnly

variable {mem mem' mem'' : Nat → BitVec 8}

theorem refl (mem : Nat → BitVec 8) : AdOnly mem mem := by
  intro o
  split
  · exact .refl _
  · rfl

theorem trans (h : AdOnly mem mem') (h' : AdOnly mem' mem'') : AdOnly mem mem'' := by
  intro o
  have ho := h o
  have ho' := h' o
  split at ho
  case isTrue hc =>
    rw [if_pos hc] at ho' ⊢
    exact ho.trans ho'
  case isFalse hc =>
    rw [if_neg hc] at ho' ⊢
    exact ho'.trans ho

/-- Storing an entry with bits added to what it was at first. -/
theorem store (h : AdOnly mem mem') {n off : Nat} (hoff : off % 4 = 0) {v : BitVec (8 * n)}
    (hv : AdLe (load mem off n) v) : AdOnly mem (Lib.store mem' off n v) := by
  intro o
  by_cases hin : off ≤ o ∧ o < off + n
  · obtain ⟨i, rfl⟩ := Nat.exists_eq_add_of_le hin.1
    have hi : i < n := by omega
    have hbyte : mem (off + i) = byteAt (load mem off n) i := by rw [load, byteAt_ofBytes hi]
    rw [store_inside hi, hbyte]
    by_cases hzero : i = 0
    · subst hzero
      rw [if_pos (by omega)]
      intro k
      have hk := hv k
      rw [getLsbD_byteAt, getLsbD_byteAt, Nat.zero_add]
      split at hk
      case isTrue hc =>
        rw [if_pos hc]
        simp only [Bool.and_eq_true]
        exact fun h => ⟨h.1, hk h.2⟩
      case isFalse hc => rw [if_neg hc, hk]
    · have hsame : byteAt v i = byteAt (load mem off n) i := by
        apply BitVec.eq_of_getLsbD_eq
        intro k hk
        rw [getLsbD_byteAt, getLsbD_byteAt, hv.bit (by omega) (by omega)]
      rw [hsame]
      split
      · exact .refl _
      · rfl
  · rw [store_of_outside (by omega)]
    exact h o

theorem storeAll {n : Nat} {us : List (Nat × BitVec (8 * n))}
    (hus : ∀ u ∈ us, u.1 % 4 = 0 ∧ AdLe (load mem u.1 n) u.2) (h : AdOnly mem mem') :
    AdOnly mem (Lib.storeAll mem' n us) := by
  induction us generalizing mem' with
  | nil => exact h
  | cons u us ih =>
    obtain ⟨hoff, hle⟩ := hus u List.mem_cons_self
    exact ih (fun u' hu' => hus u' (List.mem_cons_of_mem u hu')) (h.store hoff hle)

end AdOnly

theorem adOnly_setAd {us : List (BitVec 64 × BitVec 64)}
    (hus : ∀ u ∈ us, u.1.toNat % s.entryBytes = 0 ∧ AdLe (s.readEntry u.1) u.2) :
    AdOnly s.ram (storeAll s.ram s.entryBytes (s.ramUpdates us)) := by
  refine AdOnly.storeAll (fun u hu => ?_) (.refl s.ram)
  obtain ⟨u', hu', hmap⟩ := List.mem_filterMap.mp hu
  obtain ⟨off, hoff, rfl⟩ := Option.map_eq_some_iff.mp hmap
  obtain ⟨haligned, hle⟩ := hus u' hu'
  have hbytes := entryBytes_le s
  constructor
  · have hoff' := entryOffset_aligned haligned hoff
    unfold Cpu.entryBytes at hoff'
    split at hoff' <;> omega
  · have hback := hle.setWidth (8 * s.entryBytes)
    rw [readEntry_eq_load hoff, BitVec.setWidth_setWidth_of_le _ (by omega), BitVec.setWidth_eq]
      at hback
    exact hback

/-! ## Logs -/

/-- Between the states, `new` was logged and `vs` reported, and neither the registered regions
nor the permissions nor a prepared read-modify-write changed. Unless something was logged, only
accessed and dirty bits changed in memory. -/
structure Cpu.Logs (s s' : Cpu m) (new : List DataAccess) (vs : List MemPermViolation) : Prop where
  log : s'.accessLog = s.accessLog ++ new
  violations : s'.permViolations = s.permViolations ++ vs
  mmio : s'.mmio = s.mmio
  perms : s'.pagePermissions = s.pagePermissions
  hook : s'.memPermHook = s.memPermHook
  xlation : s'.addressXlation = s.addressXlation
  ram : new = [] → AdOnly s.ram s'.ram

namespace Cpu.Logs

variable {new new' : List DataAccess} {vs vs' : List MemPermViolation}

theorem refl (s : Cpu m) : s.Logs s [] [] :=
  ⟨(append_nil _).symm, (append_nil _).symm, rfl, rfl, rfl, rfl, fun _ => .refl _⟩

theorem trans (h : s.Logs s' new vs) (h' : s'.Logs s'' new' vs') :
    s.Logs s'' (new ++ new') (vs ++ vs') where
  log := by rw [h'.log, h.log, List.append_assoc]
  violations := by rw [h'.violations, h.violations, List.append_assoc]
  mmio := h'.mmio.trans h.mmio
  perms := h'.perms.trans h.perms
  hook := h'.hook.trans h.hook
  xlation := h'.xlation.trans h.xlation
  ram hnil := by
    obtain ⟨hnew, hnew'⟩ := append_eq_nil_iff.mp hnil
    exact (h.ram hnew).trans (h'.ram hnew')

/-- After a step that logs nothing. -/
theorem silent_trans (h : s.Logs s' [] []) (h' : s'.Logs s'' new vs) : s.Logs s'' new vs :=
  h.trans h'

theorem setXlation (h : s.Logs s' new vs) (x : AddressXlation) :
    { s with addressXlation := x }.Logs { s' with addressXlation := x } new vs :=
  ⟨h.log, h.violations, h.mmio, h.perms, h.hook, rfl, h.ram⟩

end Cpu.Logs

theorem Cpu.logs_note (s : Cpu m) (target : Target) (write : Bool) (paddr : BitVec 64) (len : Nat) :
    s.Logs (s.note target write paddr len) [⟨target, write, paddr, len⟩] [] :=
  ⟨rfl, (append_nil _).symm, rfl, rfl, rfl, rfl, nofun⟩

/-! ## Translations and checks -/

theorem pageOffset_or_lpfOf (x y : BitVec 64) :
    pageOffset (lpfOf x ||| pageOffset y) = pageOffset y := by
  unfold pageOffset lpfOf
  rw [BitVec.and_or_distrib_right, BitVec.and_assoc, show lpfMask &&& 0xFFF#64 = 0#64 by decide,
    BitVec.and_zero, BitVec.zero_or, BitVec.and_assoc, BitVec.and_self]

theorem applyA20_pageOffset (x : BitVec 64) : m.applyA20 (pageOffset x) = pageOffset x := by
  have hmask : 0xFFF#64 &&& m.a20Mask = 0xFFF#64 := by
    unfold Machine.a20Mask
    split <;> decide
  unfold Machine.applyA20 pageOffset
  rw [BitVec.and_assoc, hmask]

theorem applyA20_or (x y : BitVec 64) : m.applyA20 (x ||| y) = m.applyA20 x ||| m.applyA20 y :=
  BitVec.and_or_distrib_right ..

theorem pageOffset_applyA20 (x : BitVec 64) : pageOffset (m.applyA20 x) = pageOffset x := by
  have h := applyA20_pageOffset (m := m) x
  unfold pageOffset Machine.applyA20 at *
  rwa [BitVec.and_assoc, BitVec.and_comm m.a20Mask, ← BitVec.and_assoc]

/-- A physical address found for `laddr`: A20-masked, at the same place in its page. -/
structure Translates (m : Machine) (laddr paddr : BitVec 64) : Prop where
  offset : pageOffset paddr = pageOffset laddr
  a20 : m.applyA20 paddr = paddr

theorem translates_entry {e : TlbEntry} {i : Fin dtlbSize} (h : e.Sound m i) (laddr : BitVec 64) :
    Translates m laddr (e.ppf ||| pageOffset laddr) where
  offset := by rw [← h.ppf_page, pageOffset_or_lpfOf]
  a20 := by rw [applyA20_or, h.ppf_a20, applyA20_pageOffset]

variable {laddr : BitVec 64} {n w : Nat} {isWrite user : Bool} {p : Path}

theorem translates_path (h : s.path laddr = .ok p) :
    Translates m laddr (m.applyA20 (p.paddr laddr)) where
  offset := by rw [paddr_page (path_shape h) rfl, pageOffset_or_lpfOf]
  a20 := applyA20_applyA20 _

theorem pageOffset_maskLaddr (s : Cpu m) (laddr : BitVec 64) :
    pageOffset (s.maskLaddr laddr) = pageOffset laddr := by
  unfold Cpu.maskLaddr pageOffset
  split
  · rfl
  · rw [BitVec.and_assoc, show 0xFFFFFFFF#64 &&& 0xFFF#64 = 0xFFF#64 by decide]

theorem logs_refill (h : s.path laddr = .ok p) (isWrite : Bool) :
    s.Logs (s.refill laddr p isWrite) [] [] := by
  obtain ⟨log, dtlb, heq, -⟩ := refill_eq h isWrite
  rw [heq]
  exact ⟨(append_nil _).symm, (append_nil _).symm, rfl, rfl, rfl, rfl, fun _ =>
    adOnly_setAd fun u hu => ⟨updates_aligned h isWrite u hu, (updates_spec h hu).2.1⟩⟩

/-- The computation raises page faults only. -/
abbrev OnlyPageFaults {α : Type} (x : CpuM m α) : Prop :=
  Maintains (fun _ => True) (fun f => f.vector = .pf) x

theorem pageFault_only {α : Type} {fault : BitVec 32} :
    OnlyPageFaults (pageFault fault laddr user isWrite : CpuM m α) :=
  .bind (.modify fun _ h => h) fun _ => .throw rfl

/-- Two conditions for a page fault, one after the other. -/
theorem pageFault_only_of_either {α : Type} {c c' : Prop} [Decidable c] [Decidable c']
    {fault fault' : BitVec 32} {a : α} :
    OnlyPageFaults (if c then pageFault fault laddr user isWrite
      else if c' then pageFault fault' laddr user isWrite else pure a : CpuM m α) :=
  .ite (fun _ => pageFault_only) fun _ => .ite (fun _ => pageFault_only) fun _ => .pure _

theorem finishWalk_only {smapChecked : Bool} {write : Cpu m → BitVec 64 → BitVec 64 → Cpu m}
    {pkey : BitVec 4} :
    OnlyPageFaults (finishWalk smapChecked write p pkey laddr user isWrite false) :=
  .bind (.get_bind fun _ _ => pageFault_only_of_either) fun _ =>
    .bind (.modify fun _ h => h) fun _ => .pure _

theorem handlePkeys_only {leaf : BitVec 64} {userPage : Bool} :
    OnlyPageFaults (handlePkeys laddr leaf user userPage isWrite : CpuM m (BitVec 4)) :=
  .get_bind fun _ _ => .ite (fun _ => pageFault_only_of_either) fun _ =>
    .ite (fun _ => pageFault_only_of_either) fun _ => .pure _

theorem pageWalkForDtlb_only :
    OnlyPageFaults (pageWalkForDtlb laddr user isWrite false : CpuM m WalkResult) := by
  refine .get_bind fun s _ => .ite (fun _ => ?_) fun _ => .ite (fun _ => ?_) fun _ => ?_
  · refine .get_bind fun s _ => ?_
    cases longPath s.ctl s.pageWalkReadQword laddr with
    | error fault => exact pageFault_only
    | ok p => exact .bind (handlePkeys_only) fun _ => finishWalk_only
  · refine .get_bind fun s _ => ?_
    cases paePath s.ctl s.pageWalkReadQword laddr with
    | error fault => exact pageFault_only
    | ok p => exact finishWalk_only
  · refine .get_bind fun s _ => ?_
    cases legacyPath s.ctl s.pageWalkReadDword laddr with
    | error fault => exact pageFault_only
    | ok p => exact finishWalk_only

theorem translateMasked_only (laddr : BitVec 64) (isWrite : Bool) :
    OnlyPageFaults (translateMasked laddr isWrite false : CpuM m (BitVec 64)) := by
  refine .get_bind fun s _ => .ite (fun _ => .pure _) fun _ => .ite (fun _ => .pure _) fun _ => ?_
  exact .bind (.set trivial) fun _ => .bind (pageWalkForDtlb_only) fun _ =>
    .bind (.modify fun _ h => h) fun _ => .pure _

theorem wp_translateMasked (s : Cpu m) (laddr : BitVec 64) (isWrite : Bool) :
    wp (translateMasked laddr isWrite false) s
      (fun p s' => s.Logs s' [] [] ∧ Translates m laddr p)
      fun f s' => s.Logs s' [] [] ∧ f.vector = .pf := by
  have hout := translateOutcome s laddr isWrite
  generalize hr : (translateMasked laddr isWrite false).run s = r at hout
  cases hout with
  | unpaged hpg => exact .of_ok hr ⟨.refl s, pageOffset_applyA20 _, applyA20_applyA20 _⟩
  | hit hpg hhit =>
    have hvalid : (s.dtlb.entryOf laddr 0).Valid := by
      rw [TlbEntry.Valid, hhit.1]
      exact lpfOf_ne_invalid laddr
    exact .of_ok hr ⟨.refl s, translates_entry (s.dtlb.sound _ hvalid) laddr⟩
  | walk hpg hmiss p hpath hallows =>
    exact .of_ok hr ⟨logs_refill hpath isWrite, translates_path hpath⟩
  | fault hpg hmiss hforbids f =>
    exact .of_error hr ⟨⟨(append_nil _).symm, (append_nil _).symm, rfl, rfl, rfl, rfl, fun _ => .refl _⟩,
      (translateMasked_only laddr isWrite s trivial).error hr⟩

theorem wp_translateDataAccess (s : Cpu m) (laddr : BitVec 64) (isWrite : Bool) :
    wp (translateDataAccess laddr isWrite false) s
      (fun p s' => s.Logs s' [] [] ∧ Translates m laddr p)
      fun f s' => s.Logs s' [] [] ∧ f.vector = .pf := by
  refine .get_bind ((wp_translateMasked s (s.maskLaddr laddr) isWrite).mono ?_)
  rintro p s' ⟨hlogs, hoff, ha20⟩
  exact ⟨hlogs, hoff.trans (pageOffset_maskLaddr s laddr), ha20⟩

theorem wp_checkAlignment (s : Cpu m) (laddr : BitVec 64) (acMask : BitVec 32) :
    wp (checkAlignment laddr acMask) s (fun _ s' => s' = s) fun f s' => s' = s ∧ f.vector = .ac :=
  .get_bind (.ite (fun _ => .throw ⟨rfl, rfl⟩) fun _ => .pure rfl)

/-- `check_alignment` raises. -/
def Cpu.AlignmentFault (s : Cpu m) (laddr : BitVec 64) (acMask : BitVec 32) : Prop :=
  s.alignmentCheckMask ≠ 0#32 ∧ s.userPl ∧
    laddr.setWidth 32 &&& (acMask &&& s.alignmentCheckMask) ≠ 0#32

section

variable {acMask : BitVec 32}

theorem checkAlignment_fault (h : s.AlignmentFault laddr acMask) :
    (checkAlignment laddr acMask).run s = .error ⟨.ac, 0#16⟩ s :=
  congrFun (if_pos h) s

theorem checkAlignment_pass (h : ¬ s.AlignmentFault laddr acMask) :
    (checkAlignment laddr acMask).run s = .ok ⟨⟩ s :=
  congrFun (if_neg h) s

end

/-- The page of `paddr` carries the permission. -/
def Cpu.Carries (s : Cpu m) (paddr : BitVec 64) (write : Bool) : Prop :=
  ∀ pp, s.pagePermissions = some pp → pp.check paddr write

/-- How a permission check that lets an access through came out: the page carries the
permission, or the hook was told of the violation and suppressed it. -/
inductive Cpu.Passes (s : Cpu m) (laddr paddr : BitVec 64) (n : Nat) (write : Bool) :
    List MemPermViolation → Prop
  | carries (h : s.Carries paddr write) : Passes s laddr paddr n write []
  | suppressed (hook : List MemPermViolation → MemPermViolation → Bool)
      (hhook : s.memPermHook = some hook) (h : hook s.permViolations ⟨laddr, n, write⟩) :
      Passes s laddr paddr n write [⟨laddr, n, write⟩]

theorem wp_checkPerm (s : Cpu m) (laddr paddr : BitVec 64) (n : Nat) (write : Bool) :
    wp (checkPerm laddr paddr n write) s
      (fun _ s' => ∃ vs, s.Logs s' [] vs ∧ s.Passes laddr paddr n write vs)
      fun _ s' => s.pagePermissions ≠ none ∧ ∃ vs, s.Logs s' [] vs := by
  refine .get_bind ?_
  cases hperms : s.pagePermissions with
  | none => exact .pure ⟨[], .refl s, .carries (by simp [Cpu.Carries, hperms])⟩
  | some pp =>
    refine .ite (fun hcheck => .pure ⟨[], .refl s, .carries ?_⟩) fun _ => ?_
    · intro pp' hpp'
      rw [hperms] at hpp'
      cases hpp'
      exact hcheck
    · cases hhook : s.memPermHook with
      | none => exact .throw ⟨Option.some_ne_none pp, [], .refl s⟩
      | some hook =>
        have hlogs : s.Logs
            { s with
              pagePermissions := some pp
              memPermHook := some hook
              permViolations := s.permViolations ++ [⟨laddr, n, write⟩] } []
            [⟨laddr, n, write⟩] :=
          ⟨(append_nil _).symm, rfl, rfl, hperms.symm, hhook.symm, rfl, fun _ => .refl _⟩
        exact .set_bind (.ite (fun h => .pure ⟨_, hlogs, .suppressed hook hhook h⟩)
          fun _ => .throw ⟨Option.some_ne_none pp, _, hlogs⟩)

/-! ## Callbacks -/

theorem logs_callMmio (s : Cpu m) (r : MmioRegion) (write : Bool) (paddr : BitVec 64) (n : Nat)
    (val : BitVec 64) :
    s.Logs (s.callMmio r write paddr n val) [⟨.mmio r.start, write, paddr, n⟩] [] :=
  ⟨rfl, (append_nil _).symm, rfl, rfl, rfl, rfl, nofun⟩

theorem wp_mmioRead (s : Cpu m) (paddr : BitVec 64) (n : Nat) :
    wp (mmioRead paddr n) s
      (fun v s' => v = none ∧ s.findMmio paddr = none ∧ s' = s ∨
        v.isSome ∧ ∃ r, s.findMmio paddr = some r ∧ s.Logs s' [⟨.mmio r.start, false, paddr, n⟩] [])
      (fun _ _ => False) := by
  refine .get_bind ?_
  cases hfind : s.findMmio paddr with
  | none => exact .pure (.inl ⟨rfl, rfl, rfl⟩)
  | some r => exact .set_bind (.pure (.inr ⟨rfl, r, rfl, logs_callMmio s r false paddr n 0#64⟩))

theorem wp_mmioWrite (s : Cpu m) (paddr : BitVec 64) (n : Nat) (val : BitVec 64) :
    wp (mmioWrite paddr n val) s
      (fun b s' => b = false ∧ s.findMmio paddr = none ∧ s' = s ∨
        b = true ∧ ∃ r, s.findMmio paddr = some r ∧ s.Logs s' [⟨.mmio r.start, true, paddr, n⟩] [])
      (fun _ _ => False) := by
  refine .get_bind ?_
  cases hfind : s.findMmio paddr with
  | none => exact .pure (.inl ⟨rfl, rfl, rfl⟩)
  | some r => exact .set_bind (.pure (.inr ⟨rfl, r, rfl, logs_callMmio s r true paddr n val⟩))

/-! ## Physical accesses -/

/-- Between the states, the `n` bytes from `paddr` on were accessed plainly. -/
def Cpu.Touches (s s' : Cpu m) (write : Bool) (paddr : BitVec 64) (n : Nat) : Prop :=
  ∃ new, s.Logs s' new [] ∧ Spans write paddr n new ∧ ∀ e ∈ new, e.Plain

namespace Cpu.Touches

variable {write : Bool} {paddr : BitVec 64} {n k : Nat}

theorem refl (s : Cpu m) (write : Bool) (paddr : BitVec 64) : s.Touches s write paddr 0 :=
  ⟨[], .refl s, .nil paddr, forall_mem_nil _⟩

theorem trans (h : s.Touches s' write paddr n)
    (h' : s'.Touches s'' write (paddr + BitVec.ofNat 64 n) k) :
    s.Touches s'' write paddr (n + k) := by
  obtain ⟨new, hlogs, hspans, hplain⟩ := h
  obtain ⟨new', hlogs', hspans', hplain'⟩ := h'
  exact ⟨new ++ new', hlogs.trans hlogs', hspans.append hspans',
    List.forall_mem_append.mpr ⟨hplain, hplain'⟩⟩

theorem of_note (target : Target) (hplain : ∀ start, target ≠ .mmio start) (hn : 0 < n)
    (hlogs : s.Logs s' [⟨target, write, paddr, n⟩] []) : s.Touches s' write paddr n :=
  ⟨_, hlogs, .single target paddr hn, List.forall_mem_singleton.mpr hplain⟩

end Cpu.Touches

/-- A20 masking leaves the `n` addresses from `paddr` on alone. -/
def Machine.Stable (m : Machine) (paddr : BitVec 64) (n : Nat) : Prop :=
  ∀ j < n, m.applyA20 (paddr + BitVec.ofNat 64 j) = paddr + BitVec.ofNat 64 j

namespace Machine.Stable

variable {paddr : BitVec 64} {n i k : Nat}

theorem of_inPage (hpage : InPage paddr n) (h : m.applyA20 paddr = paddr) : m.Stable paddr n := by
  intro j hj
  unfold InPage at hpage
  rw [toNat_pageOffset] at hpage
  rw [Machine.applyA20_add m (by omega), h]

theorem drop (h : m.Stable paddr n) (hk : i + k ≤ n) : m.Stable (paddr + BitVec.ofNat 64 i) k := by
  intro j hj
  have hsum := h (i + j) (by omega)
  rwa [BitVec.ofNat_add, ← BitVec.add_assoc] at hsum

theorem first (h : m.Stable paddr n) (hn : 0 < n) : m.applyA20 paddr = paddr := by
  have hzero := h 0 hn
  rwa [BitVec.add_zero] at hzero

theorem take (h : m.Stable paddr n) (hk : k ≤ n) : m.Stable paddr k :=
  fun j hj => h j (by omega)

end Machine.Stable

/-- The loop rule of `gatherBytes`: `I i` holds before byte `i`. -/
theorem wp_gatherBytes {byte : Nat → CpuM m (BitVec 8)} {I : Nat → Cpu m → Prop}
    {E : Fault → Cpu m → Prop} (h0 : I 0 s)
    (hbyte : ∀ i < n, ∀ s, I i s → wp (byte i) s (fun _ s' => I (i + 1) s') E) :
    wp (gatherBytes n byte) s (fun _ s' => I n s') E := by
  induction n generalizing s byte I with
  | zero => exact .pure h0
  | succ n ih =>
    refine (hbyte 0 (by omega) s h0).bind fun b s₁ h1 => ?_
    refine wp.bind (ih (I := fun i => I (i + 1)) h1 ?_) fun _ _ h => .pure h
    exact fun i hi s hi' => hbyte (i + 1) (by omega) s hi'

variable {addr : BitVec 64}

/-- The loop rule of `memWriteBytes`. -/
theorem memWriteBytes_induct {purpose : Purpose} {v : BitVec w} {I : Nat → Cpu m → Prop}
    (h0 : I 0 s)
    (hbyte : ∀ i < n, ∀ s, I i s →
      I (i + 1) (s.memWriteByte purpose (addr + BitVec.ofNat 64 i) (byteAt v i))) :
    I n (s.memWriteBytes purpose addr v n) := by
  induction n with
  | zero => exact h0
  | succ n ih =>
    unfold Cpu.memWriteBytes at *
    rw [range_succ, foldl_append]
    exact hbyte n (by omega) _ (ih fun i hi => hbyte i (by omega))

variable (s : Cpu m)

theorem wp_ramRead (hn : 0 < n) (off : Nat) (paddr : BitVec 64) :
    wp (ramRead n off paddr) s (fun _ s' => s.Touches s' false paddr n) (fun _ _ => False) :=
  .get_bind (.set_bind (.pure (.of_note .ram nofun hn (s.logs_note ..))))

theorem wp_deviceRead (hn : 0 < n) (addr : BitVec 64) :
    wp (deviceRead n addr) s
      (fun v s' => if v.isSome then s.Touches s' false addr n else s' = s)
      (fun _ _ => False) := by
  refine .get_bind ?_
  cases m.devices.read s.deviceLog addr n with
  | none => exact .pure rfl
  | some v =>
    exact .set_bind (.pure (.of_note .device nofun hn
      ⟨rfl, (append_nil _).symm, rfl, rfl, rfl, rfl, nofun⟩))

theorem wp_memReadByte (h : m.applyA20 addr = addr) :
    wp (memReadByte addr) s (fun _ s' => s.Touches s' false addr 1) (fun _ _ => False) := by
  unfold memReadByte
  cases m.directRamOffset addr 1 with
  | some off =>
    rw [h]
    exact wp_ramRead s (by decide) off addr
  | none =>
    refine (wp_deviceRead s (by decide) addr).bind ?_
    rintro (_ | v) s' h
    · obtain rfl : s' = s := h
      exact .modify_bind (.pure (.of_note .device nofun (by decide) (Cpu.logs_note ..)))
    · exact .pure h

theorem wp_memReadBytes (h : m.Stable addr n) :
    wp (gatherBytes n fun i => memReadByte (addr + BitVec.ofNat 64 i)) s
      (fun _ s' => s.Touches s' false addr n) (fun _ _ => False) := by
  refine wp_gatherBytes (I := fun i s' => s.Touches s' false addr i) (.refl s false addr) ?_
  intro i hi s' htouches
  exact (wp_memReadByte s' (h i hi)).mono fun _ _ hbyte => htouches.trans hbyte

theorem wp_memReadWord (h : m.Stable addr 2) :
    wp (memReadWord addr) s (fun _ s' => s.Touches s' false addr 2) (fun _ _ => False) := by
  refine .ite (fun _ => wp_memReadBytes s h) fun _ => ?_
  cases m.directRamOffset addr 2 with
  | some off =>
    rw [h.first (by decide)]
    exact wp_ramRead s (by decide) off addr
  | none =>
    refine (wp_deviceRead s (by decide) addr).bind ?_
    rintro (_ | v) s' hread
    · obtain rfl : s' = s := hread
      exact wp_memReadBytes s' h
    · exact .pure hread

theorem wp_memReadDword (h : m.Stable addr 4) :
    wp (memReadDword addr) s (fun _ s' => s.Touches s' false addr 4) (fun _ _ => False) := by
  unfold memReadDword
  cases m.directRamOffset addr 4 with
  | some off =>
    rw [h.first (by decide)]
    exact wp_ramRead s (by decide) off addr
  | none =>
    refine (wp_deviceRead s (by decide) addr).bind ?_
    rintro (_ | v) s' hread
    · obtain rfl : s' = s := hread
      refine (wp_memReadWord s' (h.take (by decide))).bind ?_
      intro lo s₁ hlo
      refine (wp_memReadWord s₁ (h.drop (i := 2) (by decide))).bind ?_
      exact fun hi s₂ hhi => .pure (hlo.trans hhi)
    · exact .pure hread

theorem touches_ramWrite (hn : 0 < n) (off : Nat) (paddr : BitVec 64)
    (v : BitVec w) : s.Touches (s.ramWrite .data n off paddr v) true paddr n :=
  .of_note .ram nofun hn ⟨rfl, (append_nil _).symm, rfl, rfl, rfl, rfl, nofun⟩

theorem touches_deviceWrite (hn : 0 < n) (addr : BitVec 64)
    (v : BitVec w) : s.Touches (s.deviceWrite .data n addr v) true addr n :=
  .of_note .device nofun hn ⟨rfl, (append_nil _).symm, rfl, rfl, rfl, rfl, nofun⟩

theorem touches_memWriteByte (h : m.applyA20 addr = addr)
    (v : BitVec 8) : s.Touches (s.memWriteByte .data addr v) true addr 1 := by
  unfold Cpu.memWriteByte
  cases m.directRamOffset addr 1 with
  | some off =>
    simp only [h]
    exact touches_ramWrite s (by decide) off addr v
  | none => exact touches_deviceWrite s (by decide) addr v

theorem touches_memWriteBytes (h : m.Stable addr n)
    (v : BitVec w) : s.Touches (s.memWriteBytes .data addr v n) true addr n := by
  refine memWriteBytes_induct (I := fun i s' => s.Touches s' true addr i) (.refl s true addr) ?_
  exact fun i hi s' htouches => htouches.trans (touches_memWriteByte s' (h i hi) _)

theorem touches_memWriteWord (h : m.Stable addr 2)
    (v : BitVec 16) : s.Touches (s.memWriteWord .data addr v) true addr 2 := by
  unfold Cpu.memWriteWord
  split
  · exact touches_memWriteBytes s h v
  · cases m.directRamOffset addr 2 with
    | some off =>
      simp only [h.first (by decide)]
      exact touches_ramWrite s (by decide) off addr v
    | none =>
      dsimp only
      split
      · exact touches_deviceWrite s (by decide) addr v
      · exact touches_memWriteBytes s h v

theorem touches_memWriteDword (h : m.Stable addr 4)
    (v : BitVec 32) : s.Touches (s.memWriteDword .data addr v) true addr 4 := by
  unfold Cpu.memWriteDword
  cases m.directRamOffset addr 4 with
  | some off =>
    simp only [h.first (by decide)]
    exact touches_ramWrite s (by decide) off addr v
  | none =>
    dsimp only
    split
    · exact touches_deviceWrite s (by decide) addr v
    · exact (touches_memWriteWord s (h.take (by decide)) _).trans
        (touches_memWriteWord _ (h.drop (i := 2) (by decide)) _)

end RustyBox
