-- SUMMARY: The long-mode data walk against the architectural permission rule.
import RustyBox.Cpu.PageWalk

/-!
# Who may access a long-mode page

`Permitted` is the architectural rule, over the entries that select a linear address:
each one usable, R/W and U/S ANDed over all levels, SMAP, and the leaf's protection key
judged by PKRU on user pages and by PKRS on supervisor pages, a user page being one whose
U/S is set at every level. The walk agrees with it except where the leaf's own U/S
differs from that of the whole path and the two key registers disagree.
-/

namespace RustyBox

open Lib Pte

variable {m : Machine}

/-! ## The rule -/

/-- The entries that select `laddr`, from the table at `table` down to a leaf (a PTE, or
an entry with PS set) or to the first entry that is not present, with their levels. -/
def pathEntries (read : BitVec 64 → BitVec 64) (laddr : BitVec 64) :
    (level : Nat) → (table : BitVec 64) → List (Nat × BitVec 64)
  | 0, table => [(0, read (entryAddr table laddr 0))]
  | level + 1, table =>
    let e := read (entryAddr table laddr (level + 1))
    (level + 1, e) ::
      if present e ∧ ¬ ps e then pathEntries read laddr level (frame e) else []

/-- Present, no reserved bit set, and PS only on a PDPTE or PDE whose frame is aligned to
the page it maps. -/
structure EntryUsable (reserved : BitVec 64) (level : Nat) (e : BitVec 64) : Prop where
  present : present e
  reserved : e &&& reserved = 0#64
  large : level ≠ 0 → ps e →
    level ≤ 2 ∧ (frame e &&& 0x000FFFFFFFFFE000#64).toNat % 2 ^ (12 + 9 * level) = 0

/-- The entries that select `laddr` in the current address space. -/
def Cpu.pathEntries (s : Cpu m) (laddr : BitVec 64) : List (Nat × BitVec 64) :=
  RustyBox.pathEntries s.pageWalkReadQword laddr (startLeaf s.ctl)
    (s.ctl.cr3 &&& 0x000FFFFFFFFFF000#64)

/-- U/S is set at every level. -/
def Cpu.userPath (s : Cpu m) (laddr : BitVec 64) : Bool :=
  (s.pathEntries laddr).all fun e => us e.2

/-- R/W is set at every level. -/
def Cpu.writablePath (s : Cpu m) (laddr : BitVec 64) : Bool :=
  (s.pathEntries laddr).all fun e => rw e.2

/-- The entry that maps the page. -/
def Cpu.leafEntry (s : Cpu m) (laddr : BitVec 64) : BitVec 64 :=
  ((s.pathEntries laddr).getLast?.map Prod.snd).getD 0#64

/-- The protection key permits the access, on a user or a supervisor page. -/
def Cpu.KeyAllows (s : Cpu m) (key : BitVec 4) (userPage user isWrite : Bool) : Prop :=
  if userPage then
    s.ctl.pke → ¬ s.pkru.getLsbD (key.toNat * 2) ∧
      (isWrite ∧ (user ∨ s.ctl.wp) → ¬ s.pkru.getLsbD (key.toNat * 2 + 1))
  else
    s.ctl.pks → ¬ s.pkrs.getLsbD (key.toNat * 2) ∧
      (isWrite ∧ s.ctl.wp → ¬ s.pkrs.getLsbD (key.toNat * 2 + 1))

/-- The rule without protection keys. -/
structure Cpu.Reachable (s : Cpu m) (laddr : BitVec 64) (user isWrite : Bool) : Prop where
  usable : ∀ e ∈ s.pathEntries laddr, EntryUsable (longReserved s.ctl) e.1 e.2
  rights : if user then s.userPath laddr ∧ (isWrite → s.writablePath laddr)
    else isWrite → s.writablePath laddr ∨ ¬ s.ctl.wp
  smap : ¬ user → s.userPath laddr → s.ctl.smap → s.ac

/-- The architectural rule. -/
def Cpu.Permitted (s : Cpu m) (laddr : BitVec 64) (user isWrite : Bool) : Prop :=
  s.Reachable laddr user isWrite ∧
    s.KeyAllows (pkey (s.leafEntry laddr)) (s.userPath laddr) user isWrite

/-! ## The descent -/

/-- The offset mask the loop enters level `level` with. -/
def enterMask (level : Nat) : BitVec 64 := (1#64 <<< (21 + 9 * level)) - 1#64

theorem enterMask_start (c : Control) :
    (1#64 <<< c.linaddrWidth) - 1#64 = enterMask (startLeaf c) := by
  unfold Control.linaddrWidth startLeaf
  cases c.la57 <;> rfl

variable {level : Nat}

theorem enterMask_shift (h : level ≤ 4) :
    enterMask level >>> 9 = (1#64 <<< (12 + 9 * level)) - 1#64 := by
  decide +revert

theorem and_mask_eq_zero {x : BitVec 64} {k : Nat} (hk : k < 64) :
    x &&& ((1#64 <<< k) - 1#64) = 0#64 ↔ x.toNat % 2 ^ k = 0 := by
  have hpow : 2 ^ k < 2 ^ 64 := Nat.pow_lt_pow_right (by decide) hk
  have hpos : 0 < 2 ^ k := Nat.two_pow_pos k
  have hmask : ((1#64 <<< k) - 1#64).toNat = 2 ^ k - 1 := by
    rw [BitVec.toNat_sub, BitVec.toNat_shiftLeft, Nat.shiftLeft_eq]
    simp only [BitVec.toNat_ofNat]
    omega
  rw [← BitVec.toNat_inj, BitVec.toNat_and, hmask, Nat.and_two_pow_sub_one_eq_mod]
  rfl

variable {laddr : BitVec 64} {p : Path}

/-- The loop succeeds when every entry it meets is usable. -/
theorem longLoop_ok_iff {reserved : BitVec 64} {read : BitVec 64 → BitVec 64} (hl : level ≤ 4)
    (ppf : BitVec 64) (combined : BitVec 32) (upper : List (BitVec 64 × BitVec 64)) :
    (∃ p, longLoop reserved read laddr level ppf (enterMask level) combined upper = .ok p) ↔
      ∀ e ∈ pathEntries read laddr level ppf, EntryUsable reserved e.1 e.2 := by
  induction level generalizing ppf combined upper with
  | zero =>
    simp only [longLoop, pathEntries, List.forall_mem_singleton, check_eq_ok, not_not,
      exists_and_left]
    constructor
    · rintro ⟨hpres, hres, -⟩
      exact ⟨hpres, hres, fun h => absurd rfl h⟩
    · intro h
      exact ⟨h.present, h.reserved, _, rfl⟩
  | succ level ih =>
    have hnext : (1#64 <<< (12 + 9 * (level + 1))) - 1#64 = enterMask level := by
      unfold enterMask
      rw [show 12 + 9 * (level + 1) = 21 + 9 * level by omega]
    simp only [longLoop, pathEntries, List.forall_mem_cons, enterMask_shift hl, check_eq_ok,
      exists_and_left, not_and, not_not, Nat.not_lt]
    by_cases hps : ps (read (entryAddr ppf laddr (level + 1)))
    · simp only [if_pos hps, check_eq_ok, not_not, exists_and_left]
      constructor
      · rintro ⟨hpres, hres, hlevel, halign, -⟩
        exact ⟨⟨hpres, hres, fun _ h => ⟨hlevel h, (and_mask_eq_zero (by omega)).mp halign⟩⟩,
          by simp [hps]⟩
      · rintro ⟨h, -⟩
        obtain ⟨hlevel, halign⟩ := h.large (by omega) hps
        exact ⟨h.present, h.reserved, fun _ => hlevel, (and_mask_eq_zero (by omega)).mpr halign, _,
          rfl⟩
    · rw [if_neg hps, hnext, ih (by omega)]
      constructor
      · rintro ⟨hpres, hres, -, hrest⟩
        exact ⟨⟨hpres, hres, fun _ h => absurd h hps⟩, by rwa [if_pos ⟨hpres, hps⟩]⟩
      · rintro ⟨h, hrest⟩
        rw [if_pos ⟨h.present, hps⟩] at hrest
        exact ⟨h.present, h.reserved, fun h => absurd h hps, hrest⟩

/-- A completed descent has added the entries it met to those it was given, down to the last
one, and combined their rights. -/
theorem longLoop_path {reserved : BitVec 64} {read : BitVec 64 → BitVec 64} {ppf mask : BitVec 64}
    {combined : BitVec 32} {upper : List (BitVec 64 × BitVec 64)}
    (h : longLoop reserved read laddr level ppf mask combined upper = .ok p) :
    ∃ met, p.upper = upper ++ met ∧
      (pathEntries read laddr level ppf).map Prod.snd = met.map Prod.snd ++ [p.leaf] ∧
      ∀ i < 32, p.combined.getLsbD i = (combined.getLsbD i && met.all fun e => e.2.getLsbD i) := by
  induction level generalizing ppf mask combined upper with
  | zero =>
    simp only [longLoop] at h
    split_ifs at h
    cases h
    exact ⟨[], by simp [pathEntries]⟩
  | succ level ih =>
    simp only [longLoop] at h
    split_ifs at h with hpres hres hbad hps halign
    · cases h
      exact ⟨[], by simp [pathEntries, hps]⟩
    · obtain ⟨met, hupper, hentries, hall⟩ := ih h
      refine ⟨_ :: met, hupper.trans (List.append_assoc ..), ?_, fun i hi => ?_⟩
      · simp [pathEntries, hpres, hps, hentries]
      · rw [hall i hi]
        simp [hi, Bool.and_assoc]

/-! ## The checks of the leaf -/

theorem and_combinedAll (x : BitVec 32) :
    x &&& combinedAll = (bit32 (x.getLsbD 1) <<< 1) ||| (bit32 (x.getLsbD 2) <<< 2) := by
  apply BitVec.eq_of_getLsbD_eq
  intro i hi
  cases h1 : x.getLsbD 1 <;> cases h2 : x.getLsbD 2 <;> interval_cases i <;>
    simp_all [combinedAll, bit32]

/-- What the privilege table says. -/
theorem privCheck_eq (wp user isWrite rw us : Bool) :
    privCheck wp user ((bit32 rw <<< 1) ||| (bit32 us <<< 2)) isWrite =
      if user then us && (!isWrite || rw) else !isWrite || rw || !wp := by
  cases wp <;> cases user <;> cases isWrite <;> cases rw <;> cases us <;> rfl

theorem userBit_ne_zero (rw us : Bool) :
    ((bit32 rw <<< 1) ||| (bit32 us <<< 2)) &&& combinedUser ≠ 0#32 ↔ us := by
  cases rw <;> cases us <;> decide

theorem run_pageFault {α : Type} (fault : BitVec 32) (laddr : BitVec 64) (user isWrite : Bool)
    (s : Cpu m) :
    (pageFault fault laddr user isWrite : CpuM m α).run s =
      .error ⟨.pf, pfCode fault user isWrite⟩ { s with cr2 := laddr } := rfl

instance (s : Cpu m) (key : BitVec 4) (userPage user isWrite : Bool) :
    Decidable (s.KeyAllows key userPage user isWrite) := by
  unfold Cpu.KeyAllows
  infer_instance

/-- The key a walk reports: that of the leaf where keys apply to its kind of page. -/
def Cpu.keyOf (s : Cpu m) (leaf : BitVec 64) : BitVec 4 :=
  if (if us leaf then s.ctl.pke else s.ctl.pks) then pkey leaf else 0#4

theorem handlePkeys_run (laddr leaf : BitVec 64) (user isWrite : Bool) (s : Cpu m) :
    (handlePkeys laddr leaf user (us leaf) isWrite).run s =
      if s.KeyAllows (pkey leaf) (us leaf) user isWrite then .ok (s.keyOf leaf) s
      else .error ⟨.pf, pfCode (errProtection ||| errPkey) user isWrite⟩
        { s with cr2 := laddr } := by
  unfold handlePkeys
  rw [run_get_bind]
  dsimp only
  by_cases hkey : s.KeyAllows (pkey leaf) (us leaf) user isWrite
  · rw [if_pos hkey]
    unfold Cpu.KeyAllows at hkey
    unfold Cpu.keyOf
    split_ifs <;> simp only [run_pageFault, EStateM.run_pure] <;> grind
  · rw [if_neg hkey]
    unfold Cpu.KeyAllows at hkey
    split_ifs <;> simp only [run_pageFault, EStateM.run_pure] <;> grind

/-- The rights of a path and SMAP permit a data access. -/
def Cpu.LeafAllows (s : Cpu m) (smapChecked : Bool) (p : Path) (user isWrite : Bool) : Prop :=
  privCheck s.ctl.wp user p.rights isWrite ∧
    ¬ (smapChecked ∧ s.ctl.smap ∧ ¬ user ∧ p.rights &&& combinedUser ≠ 0#32 ∧ ¬ s.ac)

instance (s : Cpu m) (smapChecked : Bool) (p : Path) (user isWrite : Bool) :
    Decidable (s.LeafAllows smapChecked p user isWrite) :=
  inferInstanceAs (Decidable (_ ∧ _))

theorem checkLeaf_run (smapChecked : Bool) (p : Path) (laddr : BitVec 64)
    (user isWrite : Bool) (s : Cpu m) :
    (checkLeaf smapChecked p laddr user isWrite false).run s =
      if s.LeafAllows smapChecked p user isWrite then .ok p.rights s
      else .error ⟨.pf, pfCode errProtection user isWrite⟩ { s with cr2 := laddr } := by
  unfold checkLeaf Cpu.LeafAllows
  rw [if_neg (by simp), run_get_bind]
  split_ifs <;> simp only [run_pageFault, EStateM.run_pure] <;> grind

theorem finishWalk_run (smapChecked : Bool) (write : Cpu m → BitVec 64 → BitVec 64 → Cpu m)
    (p : Path) (pkey : BitVec 4) (laddr : BitVec 64) (user isWrite : Bool) (s : Cpu m) :
    (finishWalk smapChecked write p pkey laddr user isWrite false).run s =
      if s.LeafAllows smapChecked p user isWrite then
        .ok ⟨p.paddr laddr, p.rights, p.lpfMask, pkey⟩ (s.updateAd write (p.updates isWrite))
      else .error ⟨.pf, pfCode errProtection user isWrite⟩ { s with cr2 := laddr } := by
  unfold finishWalk
  by_cases hleaf : s.LeafAllows smapChecked p user isWrite
  · have hcheck := checkLeaf_run smapChecked p laddr user isWrite s
    rw [if_pos hleaf] at hcheck ⊢
    rw [run_bind_of_ok hcheck, run_modify_bind, EStateM.run_pure]
  · have hcheck := checkLeaf_run smapChecked p laddr user isWrite s
    rw [if_neg hleaf] at hcheck ⊢
    exact run_bind_of_error hcheck

/-! ## The walk and the rule -/

theorem longPath_ok_iff (s : Cpu m) (laddr : BitVec 64) :
    (∃ p, longPath s.ctl s.pageWalkReadQword laddr = .ok p) ↔
      ∀ e ∈ s.pathEntries laddr, EntryUsable (longReserved s.ctl) e.1 e.2 := by
  have hlevel : startLeaf s.ctl ≤ 4 := by
    unfold startLeaf
    split <;> decide
  unfold longPath Cpu.pathEntries
  rw [enterMask_start]
  exact longLoop_ok_iff hlevel _ _ _

variable {s : Cpu m}

section

variable (h : longPath s.ctl s.pageWalkReadQword laddr = .ok p)
include h

/-- Leaf and rights of the descent. -/
theorem longPath_path :
    s.leafEntry laddr = p.leaf ∧
      p.rights = (bit32 (s.writablePath laddr) <<< 1) ||| (bit32 (s.userPath laddr) <<< 2) := by
  obtain ⟨met, -, hentries, hbits⟩ := longLoop_path h
  have hall (i : Nat) (hi : i < 32) (hc : combinedAll.getLsbD i = true) :
      (p.combined &&& p.leaf.setWidth 32).getLsbD i =
        (s.pathEntries laddr).all fun e => e.2.getLsbD i := by
    have hmap := congrArg (List.all · (BitVec.getLsbD · i)) hentries
    rw [List.all_map] at hmap
    refine Eq.trans ?_ hmap.symm
    rw [BitVec.getLsbD_and, hbits i hi, hc]
    simp [hi, Function.comp_def]
  constructor
  · unfold Cpu.leafEntry Cpu.pathEntries
    rw [← List.getLast?_map, hentries, List.getLast?_concat, Option.getD_some]
  · rw [Path.rights, and_combinedAll, hall 1 (by decide) (by decide), hall 2 (by decide) (by decide)]
    rfl

/-- What the leaf check asks for is what the rule asks for. -/
theorem leafAllows_iff (user isWrite : Bool) :
    s.LeafAllows true p user isWrite ↔ s.Reachable laddr user isWrite := by
  have husable := (longPath_ok_iff s laddr).mp ⟨p, h⟩
  obtain ⟨-, hrights⟩ := longPath_path h
  unfold Cpu.LeafAllows
  rw [hrights, privCheck_eq, userBit_ne_zero]
  constructor
  · rintro ⟨hpriv, hsmap⟩
    refine ⟨husable, ?_, fun huser hus hs => ?_⟩
    · cases user <;> cases isWrite <;> simp_all
    · by_contra hac
      exact hsmap ⟨rfl, hs, huser, hus, hac⟩
  · intro hr
    refine ⟨?_, ?_⟩
    · have hrights := hr.rights
      cases user <;> cases isWrite <;> simp_all
    · rintro ⟨-, hsmap, huser, hus, hac⟩
      exact hac (hr.smap huser hus hsmap)

/-- The long-mode walk along a path. -/
theorem longWalk_run (user isWrite : Bool) :
    (pageWalkForDtlbLongMode laddr user isWrite false).run s =
      if s.KeyAllows (pkey p.leaf) (us p.leaf) user isWrite then
        (finishWalk true Cpu.pageWalkWriteQword p (s.keyOf p.leaf) laddr user isWrite false).run s
      else .error ⟨.pf, pfCode (errProtection ||| errPkey) user isWrite⟩
        { s with cr2 := laddr } := by
  have hkeys := handlePkeys_run laddr p.leaf user isWrite s
  unfold pageWalkForDtlbLongMode
  rw [run_get_bind, h]
  by_cases hkey : s.KeyAllows (pkey p.leaf) (us p.leaf) user isWrite
  · rw [if_pos hkey] at hkeys ⊢
    exact run_bind_of_ok hkeys
  · rw [if_neg hkey] at hkeys ⊢
    exact run_bind_of_error hkeys

end

theorem longWalk_run_fault {fault : BitVec 32}
    (h : longPath s.ctl s.pageWalkReadQword laddr = .error fault) (user isWrite : Bool) :
    (pageWalkForDtlbLongMode laddr user isWrite false).run s =
      .error ⟨.pf, pfCode fault user isWrite⟩ { s with cr2 := laddr } := by
  unfold pageWalkForDtlbLongMode
  rw [run_get_bind, h]
  exact run_pageFault ..

/-- The walk succeeds when the entries, the rights and SMAP permit the access and so does
the key, judged by the leaf's own U/S. -/
theorem longWalk_ok_iff (s : Cpu m) (laddr : BitVec 64) (user isWrite : Bool) :
    (∃ r s', (pageWalkForDtlbLongMode laddr user isWrite false).run s = .ok r s') ↔
      s.Reachable laddr user isWrite ∧ s.KeyAllows (pkey (s.leafEntry laddr))
        (us (s.leafEntry laddr)) user isWrite := by
  cases hp : longPath s.ctl s.pageWalkReadQword laddr with
  | error fault =>
    have hbad : ¬ ∀ e ∈ s.pathEntries laddr, EntryUsable (longReserved s.ctl) e.1 e.2 := by
      rw [← longPath_ok_iff, hp]
      simp
    rw [longWalk_run_fault hp]
    constructor
    · rintro ⟨r, s', h⟩
      cases h
    · intro h
      exact absurd h.1.usable hbad
  | ok p =>
    rw [longWalk_run hp, ← leafAllows_iff hp, (longPath_path hp).1]
    by_cases hkey : s.KeyAllows (pkey p.leaf) (us p.leaf) user isWrite
    · rw [if_pos hkey, finishWalk_run]
      by_cases hleaf : s.LeafAllows true p user isWrite
      · simp [hleaf, hkey]
      · simp [hleaf]
    · simp [hkey]

/-- Where the walk judges the key by the wrong register: everything else permits the
access, the leaf alone has U/S set, and PKRU and PKRS disagree about its key. -/
def Cpu.KeyMisjudged (s : Cpu m) (laddr : BitVec 64) (user isWrite : Bool) : Prop :=
  s.Reachable laddr user isWrite ∧ us (s.leafEntry laddr) ∧ ¬ s.userPath laddr ∧
    ¬ (s.KeyAllows (pkey (s.leafEntry laddr)) true user isWrite ↔
      s.KeyAllows (pkey (s.leafEntry laddr)) false user isWrite)

theorem leaf_us_of_userPath (h : s.userPath laddr) : us (s.leafEntry laddr) := by
  have hne : s.pathEntries laddr ≠ [] := by
    unfold Cpu.pathEntries
    cases startLeaf s.ctl <;> simp [RustyBox.pathEntries]
  have hlast := List.getLast?_eq_some_getLast hne
  unfold Cpu.leafEntry
  rw [hlast]
  exact List.all_eq_true.mp h _ (List.getLast_mem hne)

/-- The long-mode walk succeeds exactly when the architectural rule permits the access,
except where it judges the key by the wrong register. -/
theorem longWalk_follows_rule (s : Cpu m) (laddr : BitVec 64) (user isWrite : Bool) :
    ((∃ r s', (pageWalkForDtlbLongMode laddr user isWrite false).run s = .ok r s') ↔
      s.Permitted laddr user isWrite) ↔ ¬ s.KeyMisjudged laddr user isWrite := by
  rw [longWalk_ok_iff]
  unfold Cpu.Permitted Cpu.KeyMisjudged
  by_cases hus : us (s.leafEntry laddr)
  · by_cases hpath : s.userPath laddr
    · simp [hus, hpath]
    · simp only [hus, hpath, and_congr_right_iff, Bool.false_eq_true, not_false_eq_true,
        true_and, not_and, not_not]
  · have hpath : ¬ s.userPath laddr := fun h => hus (leaf_us_of_userPath h)
    simp [hus, hpath]

/-- Four levels that map page 0 to physical page 5, U/S set in the PTE only. -/
def supervisorAlias : Nat → BitVec 8 :=
  store (store (store (store (fun _ => 0) 0x1000 8 0x2003#64) 0x2000 8 0x3003#64) 0x3000 8
    0x4003#64) 0x4000 8 0x5007#64

/-- 64 KiB of RAM, no devices. -/
def smallMachine : Machine := ⟨0x10000, rfl, by decide, true, ⟨fun _ _ _ => none, fun _ _ _ => false⟩⟩

/-- Long mode with protection keys for user pages; PKRU disables key 0. -/
def keyedCpu : Cpu smallMachine :=
  { Cpu.idle ⟨true, true, false, true, false, false, true, false, true, true, 0x1000#64, fun _ => 0⟩
      supervisorAlias with pkru := 1#32 }

/-- A supervisor read of a supervisor page faults on the key of a user page. -/
theorem supervisor_page_key_fault :
    ¬ ((∃ r s', (pageWalkForDtlbLongMode 0#64 false false false).run keyedCpu = .ok r s') ↔
      keyedCpu.Permitted 0#64 false false) := by
  have hentries : keyedCpu.pathEntries 0#64 =
      [(3, 0x2003#64), (2, 0x3003#64), (1, 0x4003#64), (0, 0x5007#64)] := by decide +kernel
  have huser : keyedCpu.userPath 0#64 = false := by
    decide
  have hleaf : keyedCpu.leafEntry 0#64 = 0x5007#64 := by
    rfl
  have hpermitted : keyedCpu.Permitted 0#64 false false := by
    refine ⟨⟨?_, by simp, by simp [huser]⟩, ?_⟩
    · intro e he
      rw [hentries] at he
      simp only [List.mem_cons, List.not_mem_nil, or_false] at he
      rcases he with rfl | rfl | rfl | rfl <;> exact ⟨by decide, by decide, by decide⟩
    · intro h
      cases h
  rw [longWalk_ok_iff, hleaf]
  intro h
  have hkey := (h.mpr hpermitted).2 (by decide)
  exact hkey.1 (by decide)

end RustyBox
