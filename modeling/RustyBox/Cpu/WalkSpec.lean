-- SUMMARY: One description of the data walks of all paging modes.
import RustyBox.Cpu.PageRights
import RustyBox.Cpu.Translate
import RustyBox.Lib.Wp

/-!
# What a data walk does

The three walks in one statement: a walk follows a path, and either everything permits the
access and the state differs by the path's accessed/dirty updates only, or it raises with
nothing written. A path belongs to a linear page, its entries are aligned words of memory,
and it leads to a physical page.
-/

namespace RustyBox

open Lib BitVec Cpu

variable {m : Machine}

/-! ## All modes at once -/

/-- PAE and long mode have 8-byte entries. -/
def Cpu.wide (s : Cpu m) : Bool := s.longMode || s.ctl.pae

/-- The descent of the current paging mode. -/
def Cpu.path (s : Cpu m) (laddr : BitVec 64) : Except (BitVec 32) Path :=
  if s.longMode then longPath s.ctl s.pageWalkReadQword laddr
  else if s.ctl.pae then paePath s.ctl s.pageWalkReadQword laddr
  else legacyPath s.ctl s.pageWalkReadDword laddr

/-- The A/D updates of the current paging mode. -/
def Cpu.setAd (s : Cpu m) (updates : List (BitVec 64 × BitVec 64)) : Cpu m :=
  if s.wide then s.updateAd pageWalkWriteQword updates
  else s.updateAd writeLegacyEntry updates

/-- Everything after the descent permits the access. -/
structure Cpu.WalkAllows (s : Cpu m) (p : Path) (user isWrite : Bool) : Prop where
  leaf : s.LeafAllows s.wide p user isWrite
  key : s.longMode → s.KeyAllows (Pte.pkey p.leaf) (Pte.us p.leaf) user isWrite

/-- What a walk along `p` returns. -/
def Cpu.walkResult (s : Cpu m) (p : Path) (laddr : BitVec 64) : WalkResult :=
  ⟨p.paddr laddr, p.rights, p.lpfMask, if s.longMode then s.keyOf p.leaf else 0#4⟩

/-- The two outcomes of a walk: all permits it, or it raises with nothing written. -/
def Cpu.WalkOutcome (s : Cpu m) (laddr : BitVec 64) (user isWrite : Bool)
    (res : EStateM.Result Fault (Cpu m) WalkResult) : Prop :=
  (∃ p, s.path laddr = .ok p ∧ s.WalkAllows p user isWrite ∧
    res = .ok (s.walkResult p laddr) (s.setAd (p.updates isWrite))) ∨
  ((∀ p, s.path laddr = .ok p → ¬ s.WalkAllows p user isWrite) ∧
    ∃ f, res = .error f { s with cr2 := laddr })

variable {laddr : BitVec 64} {s : Cpu m} {read : BitVec 64 → BitVec 64} {p : Path} {level : Nat}
  (c : Control)

theorem walkOutcome_fault {user isWrite : Bool} {fault : BitVec 32}
    (hp : s.path laddr = .error fault) {res : EStateM.Result Fault (Cpu m) WalkResult} {f : Fault}
    (hres : res = .error f { s with cr2 := laddr }) : s.WalkOutcome laddr user isWrite res := by
  refine .inr ⟨fun p hp' => ?_, f, hres⟩
  rw [hp] at hp'
  cases hp'

/-- A walk along a path whose key is settled. -/
theorem walkOutcome_of_finish (user isWrite : Bool) (hp : s.path laddr = .ok p)
    (hkey : s.longMode → s.KeyAllows (Pte.pkey p.leaf) (Pte.us p.leaf) user isWrite)
    {write : Cpu m → BitVec 64 → BitVec 64 → Cpu m}
    (hwrite : s.setAd (p.updates isWrite) = s.updateAd write (p.updates isWrite)) :
    s.WalkOutcome laddr user isWrite
      ((finishWalk s.wide write p (s.walkResult p laddr).pkey laddr user isWrite false).run s) := by
  rw [finishWalk_run]
  by_cases hleaf : s.LeafAllows s.wide p user isWrite
  · rw [if_pos hleaf]
    refine .inl ⟨p, hp, ⟨hleaf, hkey⟩, ?_⟩
    rw [hwrite]
    rfl
  · rw [if_neg hleaf]
    refine .inr ⟨?_, _, rfl⟩
    intro p' hp' h
    rw [hp] at hp'
    cases hp'
    exact hleaf h.leaf

theorem walkOutcome_longMode (hlong : s.longMode = true) (laddr : BitVec 64) (user isWrite : Bool) :
    s.WalkOutcome laddr user isWrite
      ((pageWalkForDtlbLongMode laddr user isWrite false).run s) := by
  have hwide : s.wide = true := by simp [wide, hlong]
  have hpath : s.path laddr = longPath s.ctl s.pageWalkReadQword laddr := by
    simp [path, hlong]
  cases hp : longPath s.ctl s.pageWalkReadQword laddr with
  | error fault => exact walkOutcome_fault (hpath.trans hp) (longWalk_run_fault hp user isWrite)
  | ok p =>
    rw [longWalk_run hp]
    by_cases hkey : s.KeyAllows (Pte.pkey p.leaf) (Pte.us p.leaf) user isWrite
    · have hwrite : s.setAd (p.updates isWrite) =
          s.updateAd pageWalkWriteQword (p.updates isWrite) := if_pos hwide
      have h := walkOutcome_of_finish user isWrite (hpath.trans hp) (fun _ => hkey) hwrite
      have hpkey : (s.walkResult p laddr).pkey = s.keyOf p.leaf := by
        simp [walkResult, hlong]
      rw [hwide, hpkey] at h
      rw [if_pos hkey]
      exact h
    · rw [if_neg hkey]
      refine .inr ⟨?_, _, rfl⟩
      intro p' hp' h
      rw [hpath, hp] at hp'
      cases hp'
      exact hkey (h.key hlong)

/-- A walk outside long mode. -/
theorem walkOutcome_unkeyed (hlong : s.longMode = false) {r : Except (BitVec 32) Path}
    (write : Cpu m → BitVec 64 → BitVec 64 → Cpu m)
    (hwrite : ∀ us, s.setAd us = s.updateAd write us) (user isWrite : Bool) :
    s.path laddr = r →
    s.WalkOutcome laddr user isWrite (EStateM.run (match r with
      | .error fault => pageFault fault laddr user isWrite
      | .ok p => finishWalk s.wide write p 0#4 laddr user isWrite false) s) := by
  intro hpath
  cases r with
  | error fault => exact walkOutcome_fault hpath (run_pageFault ..)
  | ok p =>
    have h := walkOutcome_of_finish user isWrite hpath (by simp [hlong]) (hwrite _)
    have hpkey : (s.walkResult p laddr).pkey = 0#4 := by simp [walkResult, hlong]
    rwa [hpkey] at h

theorem walkOutcome_pae (hlong : s.longMode = false) (hpae : s.ctl.pae = true) (laddr : BitVec 64)
    (user isWrite : Bool) :
    s.WalkOutcome laddr user isWrite ((pageWalkForDtlbPae laddr user isWrite false).run s) := by
  have hwide : s.wide = true := by simp [wide, hpae]
  have hpath : s.path laddr = paePath s.ctl s.pageWalkReadQword laddr := by
    simp [path, hlong, hpae]
  have hwrite (us : List (BitVec 64 × BitVec 64)) :
      s.setAd us = s.updateAd pageWalkWriteQword us := if_pos hwide
  unfold pageWalkForDtlbPae
  rw [run_get_bind]
  have h := walkOutcome_unkeyed hlong _ hwrite user isWrite hpath
  rw [hwide] at h
  exact h

theorem walkOutcome_legacy (hlong : s.longMode = false) (hpae : s.ctl.pae = false)
    (laddr : BitVec 64) (user isWrite : Bool) :
    s.WalkOutcome laddr user isWrite
      ((pageWalkForDtlbLegacy laddr user isWrite false).run s) := by
  have hwide : s.wide = false := by simp [wide, hlong, hpae]
  have hpath : s.path laddr = legacyPath s.ctl s.pageWalkReadDword laddr := by
    simp [path, hlong, hpae]
  have hwrite (us : List (BitVec 64 × BitVec 64)) :
      s.setAd us = s.updateAd writeLegacyEntry us := if_neg (by simp [hwide])
  unfold pageWalkForDtlbLegacy
  rw [run_get_bind]
  have h := walkOutcome_unkeyed hlong _ hwrite user isWrite hpath
  rw [hwide] at h
  exact h

/-- Every data walk has one of the two outcomes. -/
theorem walkOutcome (s : Cpu m) (laddr : BitVec 64) (user isWrite : Bool) :
    s.WalkOutcome laddr user isWrite ((pageWalkForDtlb laddr user isWrite false).run s) := by
  unfold pageWalkForDtlb
  rw [run_get_bind]
  cases hlong : s.longMode with
  | true => exact walkOutcome_longMode hlong laddr user isWrite
  | false =>
    cases hpae : s.ctl.pae with
    | true => exact walkOutcome_pae hlong hpae laddr user isWrite
    | false => exact walkOutcome_legacy hlong hpae laddr user isWrite

/-- What a data walk lets be written can be read, at the same physical address. -/
theorem writable_is_readable (s : Cpu m) (laddr : BitVec 64) (user : Bool) :
    wp (pageWalkForDtlb laddr user true false) s
      (fun r _ => ∃ s', (pageWalkForDtlb laddr user false false).run s = .ok r s')
      fun _ _ => True := by
  obtain ⟨p, hp, ⟨⟨hpriv, hsmap⟩, hkey⟩, hr⟩ | ⟨-, f, hf⟩ := walkOutcome s laddr user true
  · have hread : s.WalkAllows p user false := by
      refine ⟨⟨?_, hsmap⟩, fun hlong => ?_⟩
      · unfold Path.rights at hpriv ⊢
        rw [and_combinedAll, privCheck_eq] at hpriv ⊢
        grind
      · have := hkey hlong
        unfold KeyAllows at this ⊢
        grind
    refine .of_ok hr ?_
    obtain ⟨q, hq, -, hrun⟩ | ⟨hno, -⟩ := walkOutcome s laddr user false
    · cases hp.symm.trans hq
      exact ⟨_, hrun⟩
    · exact absurd hread (hno p hp)
  · exact .of_error hf trivial

/-! ## The entries of a path -/

/-- An entry as the walk of the current mode reads it, widened to 8 bytes. -/
def Cpu.readEntry (s : Cpu m) (addr : BitVec 64) : BitVec 64 :=
  if s.wide then s.pageWalkReadQword addr else (s.pageWalkReadDword addr).setWidth 64

/-- The size of an entry. -/
def Cpu.entryBytes (s : Cpu m) : Nat := if s.wide then 8 else 4

/-- The addresses of the entries of a path. -/
def Path.addrs (p : Path) : List (BitVec 64) := p.upper.map Prod.fst ++ [p.leafAddr]

/-- The entries are what memory holds at their addresses, these are aligned, and the path
leads to whole pages. -/
structure Path.Shape (read : BitVec 64 → BitVec 64) (bytes : Nat) (p : Path) : Prop where
  upper : ∀ e ∈ p.upper, e.2 = read e.1
  leaf : p.leaf = read p.leafAddr
  aligned : ∀ a ∈ p.addrs, a.toNat % bytes = 0
  ppf : lpfOf p.ppf = p.ppf
  lpfMask : p.lpfMask.setWidth 64 &&& 0xFFF#64 = 0xFFF#64

theorem lpfOf_and {mask : BitVec 64} (h : mask &&& lpfMask = mask) (x : BitVec 64) :
    lpfOf (x &&& mask) = x &&& mask := by
  unfold lpfOf
  rw [BitVec.and_assoc, h]

theorem toNat_mod_of_low {a : BitVec 64} {k : Nat} (h : ∀ i < k, a.getLsbD i = false) :
    a.toNat % 2 ^ k = 0 := by
  apply Nat.eq_of_testBit_eq
  intro i
  rw [Nat.testBit_mod_two_pow, Nat.zero_testBit, testBit_toNat]
  by_cases hi : i < k
  · rw [h i hi, Bool.and_false]
  · simp [hi]

/-- A mask without low bits leaves an aligned address. -/
theorem and_aligned {mask : BitVec 64} (hmask : ∀ i < 3, mask.getLsbD i = false) (x : BitVec 64) :
    (x &&& mask).toNat % 8 = 0 := by
  refine toNat_mod_of_low (k := 3) fun i hi => ?_
  rw [getLsbD_and, hmask i hi, Bool.and_false]

theorem shiftLeft_aligned (x : BitVec 64) : (x <<< 3).toNat % 8 = 0 :=
  toNat_mod_of_low (k := 3) fun i hi => by simp [getLsbD_shiftLeft, hi]

theorem add_aligned {x y : BitVec 64} (hx : x.toNat % 8 = 0) (hy : y.toNat % 8 = 0) :
    (x + y).toNat % 8 = 0 := by
  rw [toNat_add]
  omega

theorem entryAddr_aligned {ppf : BitVec 64} (h : ppf.toNat % 8 = 0) (laddr : BitVec 64)
    (level : Nat) : (entryAddr ppf laddr level).toNat % 8 = 0 :=
  add_aligned h (and_aligned (by decide) _)

theorem frame_aligned (e : BitVec 64) : (Pte.frame e).toNat % 8 = 0 := and_aligned (by decide) e

theorem legacyAddr_aligned (x y : BitVec 64) :
    ((x &&& 0xFFFFF000#64) ||| (y <<< 2)).toNat % 4 = 0 := by
  refine toNat_mod_of_low (k := 2) fun i hi => ?_
  have hmask : ∀ i < 2, (0xFFFFF000#64).getLsbD i = false := by decide
  rw [getLsbD_or, getLsbD_and, hmask i hi, getLsbD_shiftLeft]
  simp [hi]

theorem enterMask_succ (h : level + 1 ≤ 4) : enterMask (level + 1) >>> 9 = enterMask level := by
  have h' : level < 4 := by omega
  clear h
  decide +revert

/-- How entries are read and how large they are, mode by mode. -/
theorem entry_cases (s : Cpu m) {P : (BitVec 64 → BitVec 64) → Nat → Prop}
    (hlong : s.longMode = true → P s.pageWalkReadQword 8)
    (hpae : s.longMode = false → s.ctl.pae = true → P s.pageWalkReadQword 8)
    (hlegacy : s.longMode = false → s.ctl.pae = false →
      P (fun a => (s.pageWalkReadDword a).setWidth 64) 4) : P s.readEntry s.entryBytes := by
  unfold readEntry entryBytes wide
  cases hl : s.longMode with
  | true => exact hlong hl
  | false =>
    cases hp : s.ctl.pae with
    | true => exact hpae hl hp
    | false => exact hlegacy hl hp

theorem startLeaf_le : startLeaf c ≤ 4 := by
  unfold startLeaf
  split <;> decide

/-! ## Paths belong to pages -/

theorem getLsbD_lpfOf (laddr : BitVec 64) (i : Nat) :
    (lpfOf laddr).getLsbD i = (laddr.getLsbD i && decide (12 ≤ i)) := by
  have hmask : ∀ i < 64, lpfMask.getLsbD i = decide (12 ≤ i) := by decide
  rw [lpfOf, getLsbD_and]
  by_cases hi : i < 64
  · rw [hmask i hi]
  · rw [getLsbD_of_ge laddr i (by omega), Bool.false_and, Bool.false_and]

/-- A table index only looks at the page. -/
theorem index_lpfOf (n : Nat) (mask : BitVec 64) (h : ∀ i < 64, mask.getLsbD i → 12 ≤ n + i)
    (laddr : BitVec 64) : (lpfOf laddr >>> n) &&& mask = (laddr >>> n) &&& mask := by
  apply eq_of_getLsbD_eq
  intro i hi
  rw [getLsbD_and, getLsbD_and, getLsbD_ushiftRight, getLsbD_ushiftRight, getLsbD_lpfOf]
  cases hmask : mask.getLsbD i with
  | false => rw [Bool.and_false, Bool.and_false]
  | true => simp [h i hi hmask]

theorem entryAddr_lpfOf (ppf laddr : BitVec 64) (level : Nat) :
    entryAddr ppf (lpfOf laddr) level = entryAddr ppf laddr level := by
  have hmask : ∀ i < 64, (0xFF8#64).getLsbD i → 3 ≤ i := by decide
  unfold entryAddr
  rw [index_lpfOf]
  intro i hi h
  have := hmask i hi h
  omega

theorem longLoop_lpfOf (reserved : BitVec 64) (read : BitVec 64 → BitVec 64) (laddr : BitVec 64)
    (level : Nat) (ppf mask : BitVec 64) (combined : BitVec 32)
    (upper : List (BitVec 64 × BitVec 64)) :
    longLoop reserved read (lpfOf laddr) level ppf mask combined upper =
      longLoop reserved read laddr level ppf mask combined upper := by
  induction level generalizing ppf mask combined upper with
  | zero => simp only [longLoop, entryAddr_lpfOf]
  | succ level ih => simp only [longLoop, entryAddr_lpfOf, ih]

theorem paePath_lpfOf (read : BitVec 64 → BitVec 64) (laddr : BitVec 64) :
    paePath c read (lpfOf laddr) = paePath c read laddr := by
  have hpdpte : (lpfOf laddr).extractLsb' 30 2 = laddr.extractLsb' 30 2 := by
    apply eq_of_getLsbD_eq
    intro i hi
    simp [getLsbD_extractLsb', getLsbD_lpfOf, show 12 ≤ 30 + i by omega]
  have hpde := index_lpfOf 18 0xFF8#64 (by decide) laddr
  have hpte := index_lpfOf 12 0x1FF#64 (by decide) laddr
  simp only [paePath, hpdpte, hpde, hpte]

theorem legacyPath_lpfOf (read : BitVec 64 → BitVec 32) (laddr : BitVec 64) :
    legacyPath c read (lpfOf laddr) = legacyPath c read laddr := by
  have hpde : legacyPdeAddr c (lpfOf laddr) = legacyPdeAddr c laddr := by
    unfold legacyPdeAddr
    rw [index_lpfOf 22 0x3FF#64 (by decide)]
  have hpte (pde : BitVec 32) : legacyPteAddr pde (lpfOf laddr) = legacyPteAddr pde laddr := by
    unfold legacyPteAddr
    rw [index_lpfOf 12 0x3FF#64 (by decide)]
  unfold legacyPath
  rw [hpde]
  dsimp only
  rw [hpte]

theorem path_lpfOf (s : Cpu m) (laddr : BitVec 64) : s.path (lpfOf laddr) = s.path laddr := by
  unfold path longPath
  rw [longLoop_lpfOf, paePath_lpfOf, legacyPath_lpfOf]

/-- The physical page of a path, with the offset put back. -/
theorem paddr_page {bytes : Nat} (h : p.Shape read bytes) {laddr' : BitVec 64}
    (hpage : lpfOf laddr' = lpfOf laddr) :
    m.applyA20 (p.paddr laddr') = lpfOf (m.applyA20 (p.paddr laddr)) ||| pageOffset laddr' := by
  apply eq_of_getLsbD_eq
  intro i hi
  have hppf := congrArg (getLsbD · i) h.ppf
  have hmask := congrArg (getLsbD · i) h.lpfMask
  have haddr := congrArg (getLsbD · i) hpage
  have hoff : ∀ i < 64, (0xFFF#64).getLsbD i = decide (i < 12) := by decide
  have ha20 : i < 12 → m.a20Mask.getLsbD i = true := by
    have hon : ∀ i < 12, (0xFFFFFFFFFFFFFFFF#64).getLsbD i = true := by decide
    have hoff : ∀ i < 12, (0xFFFFFFFFFFEFFFFF#64).getLsbD i = true := by decide
    intro hi
    unfold Machine.a20Mask
    split
    · exact hon i hi
    · exact hoff i hi
  simp only [getLsbD_lpfOf, getLsbD_and, hoff i hi] at hppf hmask haddr
  simp only [Machine.applyA20, Path.paddr, pageOffset, getLsbD_lpfOf, getLsbD_and,
    getLsbD_or, hoff i hi]
  by_cases hlow : i < 12
  · simp_all [show ¬ 12 ≤ i by omega]
  · have hhigh : 12 ≤ i := by omega
    simp only [hlow, hhigh, decide_true, decide_false, Bool.and_true, Bool.and_false,
      Bool.or_false] at haddr ⊢
    rw [haddr]

/-! ## Translations -/

/-- The state after a miss at `laddr` whose walk went along `p`. -/
def Cpu.refill (s : Cpu m) (laddr : BitVec 64) (p : Path) (isWrite : Bool) : Cpu m :=
  ({ s with dtlb := s.dtlb.invalidateSlot laddr 0 }.setAd (p.updates isWrite)).fillDtlb laddr
    (s.walkResult p laddr) isWrite false

/-- What a data translation can do. -/
inductive Cpu.TranslateOutcome (s : Cpu m) (laddr : BitVec 64) (isWrite : Bool) :
    EStateM.Result Fault (Cpu m) (BitVec 64) → Prop
  | unpaged (hpg : s.ctl.pg = false) : TranslateOutcome s laddr isWrite (.ok (m.applyA20 laddr) s)
  | hit (hpg : s.ctl.pg = true) (hhit : s.DtlbHit laddr isWrite false) :
      TranslateOutcome s laddr isWrite (.ok ((s.dtlb.entryOf laddr 0).ppf ||| pageOffset laddr) s)
  | walk (hpg : s.ctl.pg = true) (hmiss : ¬ s.DtlbHit laddr isWrite false) (p : Path)
      (hpath : s.path laddr = .ok p) (hallows : s.WalkAllows p s.userPl isWrite) :
      TranslateOutcome s laddr isWrite (.ok (m.applyA20 (p.paddr laddr)) (s.refill laddr p isWrite))
  | fault (hpg : s.ctl.pg = true) (hmiss : ¬ s.DtlbHit laddr isWrite false)
      (hforbids : ∀ p, s.path laddr = .ok p → ¬ s.WalkAllows p s.userPl isWrite) (f : Fault) :
      TranslateOutcome s laddr isWrite
        (.error f { s with dtlb := s.dtlb.invalidateSlot laddr 0, cr2 := laddr })

theorem translateOutcome (s : Cpu m) (laddr : BitVec 64) (isWrite : Bool) :
    s.TranslateOutcome laddr isWrite ((translateMasked laddr isWrite false).run s) := by
  unfold translateMasked
  rw [run_get_bind]
  cases hpg : s.ctl.pg with
  | false => exact .unpaged hpg
  | true =>
    by_cases hhit : s.DtlbHit laddr isWrite false
    · simp only [not_true_eq_false, if_false, if_pos hhit]
      exact .hit hpg hhit
    · simp only [not_true_eq_false, if_false, if_neg hhit]
      rw [run_set_bind]
      rcases walkOutcome { s with dtlb := s.dtlb.invalidateSlot laddr 0 } laddr s.userPl isWrite
        with ⟨p, hpath, hallows, hrun⟩ | ⟨hforbids, f, hrun⟩
      · rw [run_bind_of_ok hrun, run_modify_bind]
        exact .walk hpg hhit p hpath ⟨hallows.leaf, hallows.key⟩
      · rw [run_bind_of_error hrun]
        exact .fault hpg hhit (fun p hp h => hforbids p hp ⟨h.leaf, h.key⟩) f

end RustyBox
