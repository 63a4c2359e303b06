-- SUMMARY: Answers from the data TLB against a fresh page walk, over whole runs.
import RustyBox.Cpu.AccessedDirty
import RustyBox.Lib.Reachability

/-!
# The data TLB and the page tables

A run of data translations, privilege and AC changes, `set_pkeys` and stores that leave
the paging structures alone, from a flushed TLB. Every valid entry stays one that a walk
of its page would produce now (`Coherent`), so a hit grants what the walk grants, except
that the key masks let the supervisor use user pages whose key PKRU disables.
-/

namespace RustyBox

open Lib Cpu

variable {m : Machine}

/-! ## Hit bits -/

/-- The position of `neededBit`. -/
def hitBit (user isWrite : Bool) : Nat := (if isWrite then 2 else 0) + if user then 1 else 0

theorem and_neededBit (x mask : BitVec 32) (user isWrite : Bool) :
    x &&& neededBit user isWrite false &&& mask ≠ 0#32 ↔
      x.getLsbD (hitBit user isWrite) ∧ mask.getLsbD (hitBit user isWrite) := by
  have hneeded : ∀ user isWrite, ∀ i < 32,
      (neededBit user isWrite false).getLsbD i = decide (i = hitBit user isWrite) := by decide
  have hlt : ∀ user isWrite, hitBit user isWrite < 32 := by decide
  constructor
  · intro hne
    by_contra hbits
    apply hne
    apply BitVec.eq_of_getLsbD_eq
    intro i hi
    rw [BitVec.getLsbD_and, BitVec.getLsbD_and, hneeded _ _ i hi]
    by_cases hbit : i = hitBit user isWrite
    · subst hbit
      simpa using hbits
    · simp [hbit]
  · rintro ⟨hx, hmask⟩ hzero
    have hbit := congrArg (BitVec.getLsbD · (hitBit user isWrite)) hzero
    simp only [BitVec.getLsbD_and, hneeded _ _ _ (hlt _ _), hx, hmask] at hbit
    simp at hbit

theorem grantedBits_bit (c : Control) (rw us filledByWrite user isWrite : Bool) :
    (grantedBits c ((bit32 rw <<< 1) ||| (bit32 us <<< 2)) filledByWrite false).getLsbD
        (hitBit user isWrite) =
      (privCheck c.wp user ((bit32 rw <<< 1) ||| (bit32 us <<< 2)) isWrite &&
        (!isWrite || filledByWrite) && !(us && c.smap && !user)) := by
  unfold grantedBits
  generalize c.wp = wp
  generalize c.smap = smap
  decide +revert

theorem keyMasks_bit (userAd userWd sysAd sysWd wp user isWrite : Bool) :
    (if isWrite then (keyMasks userAd userWd sysAd sysWd wp).2
      else (keyMasks userAd userWd sysAd sysWd wp).1).getLsbD (hitBit user isWrite) =
      (!(user && userAd) && !(isWrite && userWd && (user || wp)) && !(!user && sysAd) &&
        !(!user && isWrite && sysWd && wp)) := by
  decide +revert

/-! ## The invariant -/

/-- The key a walk along `p` reports. -/
def Cpu.reportedKey (s : Cpu m) (p : Path) : BitVec 4 := if s.longMode then s.keyOf p.leaf else 0#4

/-- `e` is what a walk of its page along `p` leaves, and that walk has nothing left to
update. -/
structure Cpu.EntryFresh (s : Cpu m) (e : TlbEntry) (p : Path) (filledByWrite : Bool) : Prop where
  path : s.path e.lpf = .ok p
  resident : s.Resident p
  settled : p.updates filledByWrite = []
  ppf : e.ppf = lpfOf (m.applyA20 (p.paddr e.lpf))
  pkey : e.pkey = s.reportedKey p
  accessBits : e.accessBits = grantedBits s.ctl p.rights filledByWrite false

/-- Every valid entry is fresh, and the key masks are those of the current registers. -/
structure Cpu.Coherent (s : Cpu m) : Prop where
  entries : ∀ i, (s.dtlb.entries i).Valid → ∃ p w, s.EntryFresh (s.dtlb.entries i) p w
  rdPkey : s.rdPkey = fun key => (pkeyMasks s.ctl s.pkru s.pkrs key).1
  wrPkey : s.wrPkey = fun key => (pkeyMasks s.ctl s.pkru s.pkrs key).2

variable {s : Cpu m} {p : Path} {s' : Cpu m} {w : Bool}

theorem PathLe.reportedKey {p' : Path} (h : PathLe p p')
    (hctl : s'.ctl = s.ctl) : s'.reportedKey p' = s.reportedKey p := by
  unfold Cpu.reportedKey Cpu.keyOf Cpu.longMode
  rw [hctl, h.leaf.us, h.leaf.pkey]

/-- A fresh entry stays fresh when the entries of its path only gain accessed and dirty
bits. -/
theorem Cpu.EntryFresh.mono {e : TlbEntry} (h : s.EntryFresh e p w) (hctl : s'.ctl = s.ctl)
    (hread : ∀ a ∈ p.addrs, AdLe (s.readEntry a) (s'.readEntry a)) :
    ∃ p' w, s'.EntryFresh e p' w := by
  obtain ⟨p', hp', hle⟩ := path_mono hctl h.path hread
  refine ⟨p', w, hp', ?_, hle.updates_nil h.settled, ?_, ?_, ?_⟩
  · intro a ha
    rw [hle.addrs] at ha
    obtain ⟨off, hoff⟩ := h.resident a ha
    refine ⟨off, ?_⟩
    unfold entryOffset entryBytes wide longMode at hoff ⊢
    rw [hctl]
    exact hoff
  · rw [hle.paddr]
    exact h.ppf
  · rw [hle.reportedKey hctl]
    exact h.pkey
  · rw [hle.rights, hctl]
    exact h.accessBits

/-! ## Hits -/

/-- PKRU disables the key of a user page that the supervisor accesses. The walk faults on
this; the masks of `set_pkeys` only take the page away from user accesses. -/
def Cpu.SupervisorKeyDisabled (s : Cpu m) (laddr : BitVec 64) : Prop :=
  ¬ s.userPl ∧ s.longMode ∧ s.ctl.pke ∧ Pte.us (s.leafEntry laddr) ∧
    s.pkru.getLsbD ((Pte.pkey (s.leafEntry laddr)).toNat * 2)

variable {laddr : BitVec 64} {isWrite : Bool}

/-- What a hit says about the entry. -/
theorem hit_bits (hc : s.Coherent) (hhit : s.DtlbHit laddr isWrite false) :
    ∃ p w, s.EntryFresh (s.dtlb.entryOf laddr 0) p w ∧
      (s.dtlb.entryOf laddr 0).lpf = lpfOf laddr ∧
      (grantedBits s.ctl p.rights w false).getLsbD (hitBit s.userPl isWrite) ∧
      (if isWrite then (pkeyMasks s.ctl s.pkru s.pkrs (s.reportedKey p)).2
        else (pkeyMasks s.ctl s.pkru s.pkrs (s.reportedKey p)).1).getLsbD
          (hitBit s.userPl isWrite) := by
  obtain ⟨hlpf, hbits⟩ := hhit
  have hvalid : (s.dtlb.entryOf laddr 0).Valid := by
    intro hinvalid
    have hlow := congrArg (BitVec.getLsbD · 0) (hlpf.symm.trans hinvalid)
    simp only [getLsbD_lpfOf] at hlow
    revert hlow
    simp [invalidTlbEntry]
  obtain ⟨p, w, hfresh⟩ := hc.entries _ hvalid
  refine ⟨p, w, hfresh, hlpf, ?_⟩
  have hbits := (and_neededBit _ _ _ _).mp hbits
  have haccess : (s.dtlb.entryOf laddr 0).accessBits = _ := hfresh.accessBits
  have hkey : (s.dtlb.entryOf laddr 0).pkey = _ := hfresh.pkey
  rw [haccess, hkey, hc.rdPkey, hc.wrPkey] at hbits
  exact hbits

theorem rights_eq (p : Path) :
    ∃ rw us, p.rights = (bit32 rw <<< 1) ||| (bit32 us <<< 2) ∧ (us → Pte.us p.leaf) := by
  refine ⟨_, _, and_combinedAll _, ?_⟩
  rw [BitVec.getLsbD_and, BitVec.getLsbD_setWidth]
  intro h
  simp only [Bool.and_eq_true] at h
  exact h.2.2

/-- The cached bits grant no more than the rights of the page and SMAP. -/
theorem granted_leafAllows
    (h : (grantedBits s.ctl p.rights w false).getLsbD (hitBit s.userPl isWrite)) :
    s.LeafAllows s.wide p s.userPl isWrite ∧ (isWrite → w) ∧ (s.userPl → Pte.us p.leaf) := by
  obtain ⟨rw, us, hrights, hleaf⟩ := rights_eq p
  rw [hrights, grantedBits_bit] at h
  simp only [Bool.and_eq_true] at h
  obtain ⟨⟨hpriv, hw⟩, hsmap⟩ := h
  unfold LeafAllows
  rw [hrights, userBit_ne_zero]
  refine ⟨⟨hpriv, ?_⟩, ?_, ?_⟩
  · rintro ⟨-, hs, huser, hus, -⟩
    simp [hs, hus, huser] at hsmap
  · intro hwrite
    simpa [hwrite] using hw
  · intro huser
    rw [privCheck_eq, huser] at hpriv
    simp only [if_true, Bool.and_eq_true] at hpriv
    exact hleaf hpriv.1

/-- At a hit the key of the page permits the access, save where only the walk looks. -/
theorem hit_keyAllows (hlong : s.longMode = true) (huser : s.userPl → Pte.us p.leaf)
    (h : (if isWrite then (pkeyMasks s.ctl s.pkru s.pkrs (s.reportedKey p)).2
      else (pkeyMasks s.ctl s.pkru s.pkrs (s.reportedKey p)).1).getLsbD (hitBit s.userPl isWrite)) :
    s.KeyAllows (Pte.pkey p.leaf) (Pte.us p.leaf) s.userPl isWrite ↔
      ¬ (¬ s.userPl ∧ s.ctl.pke ∧ Pte.us p.leaf ∧
        s.pkru.getLsbD ((Pte.pkey p.leaf).toNat * 2)) := by
  have hlma : s.ctl.lma = true := hlong
  unfold pkeyMasks at h
  rw [keyMasks_bit, hlma] at h
  unfold reportedKey keyOf at h
  unfold KeyAllows
  cases hus : Pte.us p.leaf with
  | true =>
    cases hpke : s.ctl.pke with
    | false => simp
    | true =>
      simp only [hus, hpke, if_true, Bool.true_and] at h
      simp only [if_true, forall_const, true_and]
      grind
  | false =>
    have hsup : s.userPl = false := by
      by_contra hu
      simp [huser (by simpa using hu)] at hus
    cases hpks : s.ctl.pks with
    | false => simp
    | true =>
      simp only [hus, hpks, hsup, Bool.true_and] at h
      simp only [Bool.false_eq_true, if_false, forall_const]
      grind

theorem hit_walkAllows (hpath : s.path laddr = .ok p)
    (hgranted : (grantedBits s.ctl p.rights w false).getLsbD (hitBit s.userPl isWrite))
    (hkeys : (if isWrite then (pkeyMasks s.ctl s.pkru s.pkrs (s.reportedKey p)).2
      else (pkeyMasks s.ctl s.pkru s.pkrs (s.reportedKey p)).1).getLsbD (hitBit s.userPl isWrite)) :
    s.WalkAllows p s.userPl isWrite ↔ ¬ s.SupervisorKeyDisabled laddr := by
  obtain ⟨hleaf, -, huser⟩ := granted_leafAllows hgranted
  unfold SupervisorKeyDisabled
  cases hlong : s.longMode with
  | false =>
    constructor
    · rintro - ⟨-, h, -⟩
      cases h
    · exact fun _ => ⟨hleaf, by simp [hlong]⟩
  | true =>
    have hentry : s.leafEntry laddr = p.leaf := by
      unfold path at hpath
      rw [if_pos hlong] at hpath
      exact (longPath_path hpath).1
    rw [hentry]
    simp only [true_and]
    rw [← hit_keyAllows hlong huser hkeys]
    constructor
    · exact fun h => h.key hlong
    · exact fun h => ⟨hleaf, fun _ => h⟩

/-- The fresh walk of an access: it succeeds, changes nothing, and leads to `paddr`. -/
def Cpu.WalkConfirms (s : Cpu m) (laddr : BitVec 64) (isWrite : Bool) (paddr : BitVec 64) : Prop :=
  ∃ r, (pageWalkForDtlb laddr s.userPl isWrite false).run s = .ok r s ∧ m.applyA20 r.paddr = paddr

theorem hit_confirmed_iff (hc : s.Coherent) (hhit : s.DtlbHit laddr isWrite false) :
    s.WalkConfirms laddr isWrite ((s.dtlb.entryOf laddr 0).ppf ||| pageOffset laddr) ↔
      ¬ s.SupervisorKeyDisabled laddr := by
  obtain ⟨p, w, hfresh, hlpf, hgranted, hkeys⟩ := hit_bits hc hhit
  have hpath : s.path laddr = .ok p := by
    rw [← path_lpfOf, ← hlpf]
    exact hfresh.path
  obtain ⟨-, hwrite, -⟩ := granted_leafAllows hgranted
  -- an entry filled by a write has its dirty bit set, and only such an entry serves writes
  have hsettled : p.updates isWrite = [] := by
    have hw := (updates_eq_nil_iff p w).mp hfresh.settled
    exact (updates_eq_nil_iff p isWrite).mpr ⟨hw.1, hw.2.1, fun h => hw.2.2 (hwrite h)⟩
  have hpaddr : m.applyA20 (p.paddr laddr) = (s.dtlb.entryOf laddr 0).ppf ||| pageOffset laddr := by
    rw [hfresh.ppf, hlpf]
    exact paddr_page (path_shape hpath) (lpfOf_lpfOf laddr).symm
  have hsame : s.setAd [] = s := by
    unfold setAd
    split <;> rfl
  rw [← hit_walkAllows hpath hgranted hkeys]
  unfold WalkConfirms
  rcases walkOutcome s laddr s.userPl isWrite with
    ⟨p', hp', hallows, hrun⟩ | ⟨hforbids, f, hrun⟩
  · obtain rfl : p = p' := by
      rw [hpath] at hp'
      exact Except.ok.inj hp'
    rw [hrun, hsettled, hsame]
    exact iff_of_true ⟨_, rfl, hpaddr⟩ hallows
  · rw [hrun]
    refine iff_of_false ?_ (hforbids p hpath)
    rintro ⟨r, hr, -⟩
    cases hr

/-! ## Runs -/

/-- What happens between two looks at the TLB. `memory` is a change of RAM. -/
inductive DtlbEvent
  | access (laddr : BitVec 64) (isWrite : Bool)
  | privilege (userPl : Bool)
  | alignmentFlag (ac : Bool)
  | pkeys (pkru pkrs : BitVec 32)
  | memory (ram : Nat → BitVec 8)

def Cpu.dtlbStep (s : Cpu m) : DtlbEvent → Cpu m
  | .access laddr isWrite => finalState ((translateDataAccess laddr isWrite false).run s)
  | .privilege userPl => { s with userPl := userPl }
  | .alignmentFlag ac => { s with ac := ac }
  | .pkeys pkru pkrs => s.setPkeys pkru pkrs
  | .memory ram => { s with ram := ram }

/-- Paging structures are in RAM and nothing but the walks changes them. -/
def Cpu.StructuresKept (s : Cpu m) : DtlbEvent → Prop
  | .access laddr _ => ∀ p, s.path (s.maskLaddr laddr) = .ok p → s.Resident p
  | .memory ram => ∀ laddr p, s.path laddr = .ok p →
      ∀ a ∈ p.addrs, { s with ram := ram }.readEntry a = s.readEntry a
  | _ => True

/-- The states reached from `s` after a TLB flush, with the key masks up to date. -/
def Cpu.ReachableFromFlush (s : Cpu m) : Cpu m → Prop :=
  Lib.Reachable (fun s e s' => s' = s.dtlbStep e) StructuresKept
    { s.setPkeys s.pkru s.pkrs with dtlb := s.dtlb.flush }

/-- Other fields do not matter for the entries that stay. -/
theorem entries_mono (hc : s.Coherent) (hctl : s'.ctl = s.ctl)
    (hread : ∀ laddr p, s.path laddr = .ok p → s.Resident p →
      ∀ a ∈ p.addrs, AdLe (s.readEntry a) (s'.readEntry a))
    (hentries : ∀ i, (s'.dtlb.entries i).Valid →
      s'.dtlb.entries i = s.dtlb.entries i ∨ ∃ p w, s'.EntryFresh (s'.dtlb.entries i) p w) :
    ∀ i, (s'.dtlb.entries i).Valid → ∃ p w, s'.EntryFresh (s'.dtlb.entries i) p w := by
  intro i hvalid
  rcases hentries i hvalid with hsame | hnew
  · rw [hsame] at hvalid ⊢
    obtain ⟨p, w, hfresh⟩ := hc.entries i hvalid
    exact hfresh.mono hctl (hread _ p hfresh.path hfresh.resident)
  · exact hnew

theorem invalidateSlot_entries {t : Dtlb m} {i : Fin dtlbSize}
    (h : ((t.invalidateSlot laddr 0).entries i).Valid) :
    (t.invalidateSlot laddr 0).entries i = t.entries i := by
  unfold Dtlb.invalidateSlot Dtlb.setEntry at h ⊢
  by_cases hi : i = dtlbIndexOf laddr 0
  · subst hi
    dsimp only at h
    rw [Function.update_self] at h
    exact absurd h (TlbEntry.not_valid_invalidate _)
  · exact Function.update_of_ne hi _ _

/-- The entry a walk leaves is fresh. -/
theorem filled_fresh (hpath : s.path laddr = .ok p) (hres : s.Resident p) (isWrite : Bool) :
    ∃ p' w, (s.refill laddr p isWrite).EntryFresh
      (filledEntry s laddr (m.applyA20 (p.paddr laddr)) (s.walkResult p laddr) isWrite false) p' w := by
  have hctl : (s.refill laddr p isWrite).ctl = s.ctl :=
    setAd_ctl (s := { s with dtlb := s.dtlb.invalidateSlot laddr 0 }) (updates_aligned hpath isWrite)
  obtain ⟨p', hp', hle, hnil⟩ :=
    path_updates (s := { s with dtlb := s.dtlb.invalidateSlot laddr 0 }) hpath hres isWrite
  refine ⟨p', isWrite, ?_, ?_, hnil, ?_, ?_, ?_⟩
  · exact (path_lpfOf _ laddr).trans hp'
  · intro a ha
    rw [hle.addrs] at ha
    obtain ⟨off, hoff⟩ := hres a ha
    refine ⟨off, ?_⟩
    unfold entryOffset entryBytes wide longMode at hoff ⊢
    rw [hctl]
    exact hoff
  · have hzero : pageOffset (lpfOf laddr) = 0#64 := by
      unfold pageOffset lpfOf
      rw [BitVec.and_assoc]
      simp [lpfMask]
    have hpage := paddr_page (m := m) (path_shape hpath) (lpfOf_lpfOf laddr)
    rw [hzero, BitVec.or_zero] at hpage
    change lpfOf (m.applyA20 (p.paddr laddr)) = lpfOf (m.applyA20 (p'.paddr (lpfOf laddr)))
    rw [hle.paddr, hpage, lpfOf_lpfOf]
  · exact (hle.reportedKey hctl).symm
  · rw [hle.rights, hctl]
    rfl

theorem coherent_access (hc : s.Coherent) (hres : ∀ p, s.path laddr = .ok p → s.Resident p) :
    (finalState ((translateMasked laddr isWrite false).run s)).Coherent := by
  have hout := translateOutcome s laddr isWrite
  cases hrun : (translateMasked laddr isWrite false).run s with
  | error f s' =>
    rw [hrun] at hout
    cases hout
    refine ⟨entries_mono hc rfl (fun _ _ _ _ a _ => .refl _) fun i hvalid => ?_, hc.rdPkey, hc.wrPkey⟩
    exact .inl (invalidateSlot_entries hvalid)
  | ok paddr s' =>
    rw [hrun] at hout
    cases hout with
    | unpaged | hit => exact hc
    | walk hpg hmiss p hpath hallows =>
      obtain ⟨log, dtlb, hrefill, hslots⟩ := refill_eq hpath isWrite
      have hfilled := filled_fresh hpath (hres p hpath) isWrite
      change (s.refill laddr p isWrite).Coherent
      refine ⟨entries_mono hc (by rw [hrefill]) ?_ fun i _ => ?_, ?_, ?_⟩
      · intro laddr' p' hp' hres' a ha
        obtain ⟨off, hoff⟩ := hres' a ha
        exact readEntry_updates_le (s := { s with dtlb := s.dtlb.invalidateSlot laddr 0 }) hpath
          isWrite ((path_shape hp').aligned a ha) hoff
      · have hdtlb : (s.refill laddr p isWrite).dtlb = dtlb := by rw [hrefill]
        rw [hdtlb, hslots i]
        split
        · exact .inr hfilled
        · exact .inl rfl
      · rw [hrefill]
        exact hc.rdPkey
      · rw [hrefill]
        exact hc.wrPkey

/-- Every step that keeps the paging structures keeps the TLB coherent. -/
theorem coherent_step (hc : s.Coherent) {e : DtlbEvent} (hok : s.StructuresKept e) :
    (s.dtlbStep e).Coherent := by
  cases e with
  | access laddr isWrite =>
    change (finalState ((translateDataAccess laddr isWrite false).run s)).Coherent
    rw [translateDataAccess, run_get_bind]
    exact coherent_access hc hok
  | privilege userPl =>
    exact ⟨entries_mono hc rfl (fun _ _ _ _ a _ => .refl _) fun i _ => .inl rfl,
      hc.rdPkey, hc.wrPkey⟩
  | alignmentFlag ac =>
    exact ⟨entries_mono hc rfl (fun _ _ _ _ a _ => .refl _) fun i _ => .inl rfl,
      hc.rdPkey, hc.wrPkey⟩
  | pkeys pkru pkrs =>
    exact ⟨entries_mono hc rfl (fun _ _ _ _ a _ => .refl _) fun i _ => .inl rfl, rfl, rfl⟩
  | memory ram =>
    refine ⟨entries_mono hc rfl (fun laddr p hp _ a ha => ?_) fun i _ => .inl rfl,
      hc.rdPkey, hc.wrPkey⟩
    have hkept : (s.dtlbStep (.memory ram)).readEntry a = s.readEntry a := hok laddr p hp a ha
    rw [hkept]
    exact .refl _

/-- The TLB of a reachable state is coherent. -/
theorem coherent_reachable {s₀ : Cpu m} (h : s₀.ReachableFromFlush s) : s.Coherent := by
  refine h.invariant ⟨fun i hvalid => ?_, rfl, rfl⟩ ?_
  · exact absurd hvalid (TlbEntry.not_valid_invalidate _)
  · rintro s e s' hc hok rfl
    exact coherent_step hc hok

/-- The answer of a coherent TLB against the walk. -/
theorem answer_confirmed_iff (hc : s.Coherent) (hpg : s.ctl.pg)
    (hhit : s.DtlbHit (s.maskLaddr laddr) isWrite false) :
    (∃ paddr, (translateDataAccess laddr isWrite false).run s = .ok paddr s ∧
      s.WalkConfirms (s.maskLaddr laddr) isWrite paddr) ↔
      ¬ s.SupervisorKeyDisabled (s.maskLaddr laddr) := by
  rw [← hit_confirmed_iff hc hhit]
  have hrun : (translateDataAccess laddr isWrite false).run s =
      .ok ((s.dtlb.entryOf (s.maskLaddr laddr) 0).ppf ||| pageOffset (s.maskLaddr laddr)) s := by
    rw [translateDataAccess, run_get_bind]
    have hout := translateOutcome s (s.maskLaddr laddr) isWrite
    generalize (translateMasked (s.maskLaddr laddr) isWrite false).run s = res at hout ⊢
    cases hout with
    | unpaged hoff => simp [hoff] at hpg
    | hit => rfl
    | walk _ hmiss | fault _ hmiss => exact absurd hhit hmiss
  rw [hrun]
  constructor
  · rintro ⟨paddr, hpaddr, hconfirms⟩
    cases hpaddr
    exact hconfirms
  · exact fun hconfirms => ⟨_, rfl, hconfirms⟩

/-- Whenever a translation answers from the TLB, a fresh walk of the same access succeeds
with the same address and nothing to update, unless PKRU disables the key of a user page
that the supervisor accesses. -/
theorem dtlb_hit_confirmed_by_walk {s₀ s : Cpu m} (h : s₀.ReachableFromFlush s)
    (laddr : BitVec 64) (isWrite : Bool) (hpg : s.ctl.pg)
    (hhit : s.DtlbHit (s.maskLaddr laddr) isWrite false) :
    (∃ paddr, (translateDataAccess laddr isWrite false).run s = .ok paddr s ∧
      s.WalkConfirms (s.maskLaddr laddr) isWrite paddr) ↔
      ¬ s.SupervisorKeyDisabled (s.maskLaddr laddr) :=
  answer_confirmed_iff (coherent_reachable h) hpg hhit

/-- Four levels that map page 0 to physical page 5 for the user. -/
def userPage : Nat → BitVec 8 :=
  store (store (store (store (fun _ => 0) 0x1000 8 0x2007#64) 0x2000 8 0x3007#64) 0x3000 8
    0x4007#64) 0x4000 8 0x5007#64

/-- The supervisor in long mode, with protection keys for user pages and all keys open. -/
def openKeysCpu : Cpu smallMachine :=
  idle ⟨true, true, false, true, false, false, true, false, true, true, 0x1000#64, fun _ => 0⟩
    userPage

/-- The flushed processor after one read of address 0. -/
def filledCpu : Cpu smallMachine :=
  dtlbStep { openKeysCpu.setPkeys openKeysCpu.pkru openKeysCpu.pkrs with
    dtlb := openKeysCpu.dtlb.flush } (.access 0#64 false)

theorem filledCpu_reachable : openKeysCpu.ReachableFromFlush filledCpu := by
  refine .step (a := .access 0#64 false) .start ?_ rfl
  intro p hp
  have hpath : path { openKeysCpu.setPkeys openKeysCpu.pkru openKeysCpu.pkrs with
      dtlb := openKeysCpu.dtlb.flush } 0#64 = .ok ⟨[(0x1000#64, 0x2007#64), (0x2000#64, 0x3007#64),
        (0x3000#64, 0x4007#64)], 0x4000#64, 0x5007#64, 6#32, 0x5000#64, 0xFFF#32⟩ := by
    decide +kernel
  cases hpath.symm.trans hp
  intro a ha
  simp only [Path.addrs, List.map_cons, List.map_nil, List.cons_append, List.nil_append,
    List.mem_cons, List.not_mem_nil, or_false] at ha
  rcases ha with rfl | rfl | rfl | rfl <;> exact ⟨_, rfl⟩

theorem filledCpu_hit : filledCpu.DtlbHit (filledCpu.maskLaddr 0#64) false false := by
  decide +kernel

/-- A repeated supervisor read of the page agrees with the walk. -/
theorem repeated_read_confirmed :
    ∃ paddr, (translateDataAccess 0#64 false false).run filledCpu = .ok paddr filledCpu ∧
      filledCpu.WalkConfirms (filledCpu.maskLaddr 0#64) false paddr := by
  refine (dtlb_hit_confirmed_by_walk filledCpu_reachable 0#64 false (by decide +kernel)
    filledCpu_hit).mpr ?_
  rintro ⟨-, -, -, -, hdisabled⟩
  revert hdisabled
  decide +kernel

/-- Once PKRU disables key 0, the TLB still answers the supervisor's read; a walk would
fault. -/
theorem disabled_key_hit :
    ∃ s, openKeysCpu.ReachableFromFlush s ∧ s.ctl.pg ∧
      s.DtlbHit (s.maskLaddr 0#64) false false ∧
      ¬ ∃ paddr, (translateDataAccess 0#64 false false).run s = .ok paddr s ∧
        s.WalkConfirms (s.maskLaddr 0#64) false paddr := by
  have hreach : openKeysCpu.ReachableFromFlush (filledCpu.dtlbStep (.pkeys 1#32 0#32)) :=
    .step (a := .pkeys 1#32 0#32) filledCpu_reachable trivial rfl
  refine ⟨_, hreach, by decide +kernel, by decide +kernel, ?_⟩
  rw [answer_confirmed_iff (coherent_reachable hreach) (by decide +kernel) (by decide +kernel),
    not_not]
  unfold SupervisorKeyDisabled
  decide +kernel

end RustyBox
