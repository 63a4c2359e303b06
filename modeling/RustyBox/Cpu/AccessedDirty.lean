-- SUMMARY: Accessed and dirty bits: what their updates leave alone and what they change in RAM.
import Mathlib.Data.List.Forall2
import RustyBox.Cpu.SystemWalk

/-!
# Accessed and dirty bits

`AdLe` is the order in which entries gain accessed and dirty bits; a path is the same, up
to that order, when its entries only grow in it. In RAM the updates of a walk are stores
of aligned words, each of which only adds such bits.
-/

namespace RustyBox

open Lib BitVec List Cpu Pte

variable {m : Machine}

/-! ## Accessed and dirty bits only grow -/

/-- `e'` is `e` with accessed or dirty bits added. -/
def AdLe {w : Nat} (e e' : BitVec w) : Prop :=
  ∀ i, if i = 5 ∨ i = 6 then e.getLsbD i → e'.getLsbD i else e'.getLsbD i = e.getLsbD i

namespace AdLe

variable {w : Nat} {e e' e'' : BitVec w}

theorem refl (e : BitVec w) : AdLe e e := by
  intro i
  split
  · exact id
  · rfl

section

variable (h : AdLe e e')
include h

theorem trans (h' : AdLe e' e'') : AdLe e e'' := by
  intro i
  have hi := h i
  have hi' := h' i
  split at hi
  case isTrue hc =>
    rw [if_pos hc] at hi' ⊢
    exact hi' ∘ hi
  case isFalse hc =>
    rw [if_neg hc] at hi' ⊢
    exact hi'.trans hi

theorem bit {i : Nat} (h5 : i ≠ 5) (h6 : i ≠ 6) : e'.getLsbD i = e.getLsbD i := by
  have hi := h i
  rwa [if_neg (by simp [h5, h6])] at hi

theorem accessed (ha : accessed e) : accessed e' := h 5 ha

theorem present : present e' = present e := h.bit (by decide) (by decide)

theorem us : us e' = us e := h.bit (by decide) (by decide)

theorem ps : ps e' = ps e := h.bit (by decide) (by decide)

/-- A mask without the two bits sees no difference. -/
theorem and_eq (mask : BitVec w) (h5 : mask.getLsbD 5 = false := by decide)
    (h6 : mask.getLsbD 6 = false := by decide) : e' &&& mask = e &&& mask := by
  apply eq_of_getLsbD_eq
  intro i _
  rw [getLsbD_and, getLsbD_and]
  by_cases hi5 : i = 5
  · simp only [hi5, h5, Bool.and_false]
  · by_cases hi6 : i = 6
    · simp only [hi6, h6, Bool.and_false]
    · rw [h.bit hi5 hi6]

theorem setWidth (n : Nat) : AdLe (e.setWidth n) (e'.setWidth n) := by
  intro i
  have hi := h i
  simp only [getLsbD_setWidth]
  split at hi
  case isTrue hc =>
    rw [if_pos hc]
    simpa using fun hlt he => ⟨hlt, hi he⟩
  case isFalse hc => rw [if_neg hc, hi]

end

/-- Adding bits within A and D. -/
theorem or {x : BitVec w} (hx : ∀ i, x.getLsbD i → i = 5 ∨ i = 6) : AdLe e (e ||| x) := by
  intro i
  rw [getLsbD_or]
  split
  case isTrue => simp_all
  case isFalse hc =>
    have hxi : x.getLsbD i = false := by
      by_contra h
      exact hc (hx i (by simpa using h))
    rw [hxi, Bool.or_false]

end AdLe

theorem AdLe.frame {e e' : BitVec 64} (h : AdLe e e') : frame e' = frame e := h.and_eq _

theorem AdLe.pkey {e e' : BitVec 64} (h : AdLe e e') : pkey e' = pkey e := by
  apply eq_of_getLsbD_eq
  intro i hi
  simp only [Pte.pkey, getLsbD_extractLsb']
  rw [h.bit (by omega) (by omega)]

theorem AdLe.rights {e e' : BitVec 64} (h : AdLe e e') (combined : BitVec 32) :
    combined &&& e'.setWidth 32 &&& combinedAll = combined &&& e.setWidth 32 &&& combinedAll := by
  rw [BitVec.and_assoc, BitVec.and_assoc, (h.setWidth 32).and_eq combinedAll]

/-- `p'` is `p` with accessed or dirty bits added to its entries. -/
structure PathLe (p p' : Path) : Prop where
  upper : Forall₂ (fun e e' => e'.1 = e.1 ∧ AdLe e.2 e'.2) p.upper p'.upper
  leafAddr : p'.leafAddr = p.leafAddr
  leaf : AdLe p.leaf p'.leaf
  combined : p'.combined &&& combinedAll = p.combined &&& combinedAll
  ppf : p'.ppf = p.ppf
  lpfMask : p'.lpfMask = p.lpfMask

theorem and_and_mask (a b mask : BitVec 32) : a &&& b &&& mask = (a &&& mask) &&& (b &&& mask) := by
  rw [BitVec.and_assoc, BitVec.and_assoc, ← BitVec.and_assoc mask, BitVec.and_comm mask,
    BitVec.and_assoc, BitVec.and_self]

variable {p p' : Path} {off : Nat}

theorem PathLe.of_mem_upper (h : PathLe p p') {e' : BitVec 64 × BitVec 64}
    (he' : e' ∈ p'.upper) : ∃ e ∈ p.upper, e'.1 = e.1 ∧ AdLe e.2 e'.2 := by
  have hupper := h.upper
  generalize p.upper = l at hupper ⊢
  generalize p'.upper = l' at hupper he'
  induction hupper with
  | nil => cases he'
  | @cons e e₁ l l' hle _ ih =>
    rcases List.mem_cons.mp he' with rfl | he'
    · exact ⟨e, mem_cons_self, hle⟩
    · obtain ⟨e₂, he₂, hle₂⟩ := ih he'
      exact ⟨e₂, mem_cons_of_mem e he₂, hle₂⟩

theorem PathLe.addrs (h : PathLe p p') : p'.addrs = p.addrs := by
  have hupper := h.upper
  unfold Path.addrs
  rw [h.leafAddr]
  congr 1
  generalize p.upper = l at hupper ⊢
  generalize p'.upper = l' at hupper ⊢
  induction hupper with
  | nil => rfl
  | cons hle _ ih => rw [map_cons, map_cons, hle.1, ih]

theorem PathLe.rights (h : PathLe p p') : p'.rights = p.rights := by
  unfold Path.rights
  rw [and_and_mask, h.combined, (h.leaf.setWidth 32).and_eq combinedAll, ← and_and_mask]

theorem PathLe.paddr (h : PathLe p p') (laddr : BitVec 64) : p'.paddr laddr = p.paddr laddr := by
  unfold Path.paddr
  rw [h.ppf, h.lpfMask]

variable {laddr : BitVec 64} {s : Cpu m} {us : List (BitVec 64 × BitVec 64)} {addr a : BitVec 64}

theorem longLoop_mono {reserved : BitVec 64} (h5 : reserved.getLsbD 5 = false)
    (h6 : reserved.getLsbD 6 = false) {read read' : BitVec 64 → BitVec 64} {level : Nat}
    {ppf mask : BitVec 64} {combined combined' : BitVec 32}
    {upper upper' : List (BitVec 64 × BitVec 64)}
    (h : longLoop reserved read laddr level ppf mask combined upper = .ok p)
    (hread : ∀ a ∈ p.addrs, AdLe (read a) (read' a))
    (hc : combined' &&& combinedAll = combined &&& combinedAll)
    (hu : Forall₂ (fun e e' => e'.1 = e.1 ∧ AdLe e.2 e'.2) upper upper') :
    ∃ p', longLoop reserved read' laddr level ppf mask combined' upper' = .ok p' ∧ PathLe p p' := by
  induction level generalizing ppf mask combined combined' upper upper' with
  | zero =>
    simp only [longLoop] at h ⊢
    split_ifs at h with hpres hres
    cases h
    have hle := hread _ (mem_append_right _ mem_cons_self)
    rw [hle.present, hle.and_eq reserved h5 h6, if_neg (not_not_intro hpres), if_neg hres]
    exact ⟨_, rfl, hu, rfl, hle, hc, hle.frame, rfl⟩
  | succ level ih =>
    simp only [longLoop] at h ⊢
    split_ifs at h with hpres hres hbad hps halign
    · cases h
      have hle := hread _ (mem_append_right _ mem_cons_self)
      rw [hle.present, hle.and_eq reserved h5 h6, hle.ps, hle.frame, if_neg (not_not_intro hpres),
        if_neg hres, if_neg hbad, if_pos hps, if_neg halign]
      exact ⟨_, rfl, hu, rfl, hle, hc, rfl, rfl⟩
    · obtain ⟨met, hupper, -⟩ := longLoop_path h
      have hmem := hupper ▸ mem_append_left met (mem_append_right upper mem_cons_self)
      have hle := hread _ (mem_append_left _ (mem_map_of_mem hmem))
      rw [hle.present, hle.and_eq reserved h5 h6, hle.ps, hle.frame, if_neg (not_not_intro hpres),
        if_neg hres, if_neg hbad, if_neg hps]
      refine ih h ?_ (rel_append hu (.cons ⟨rfl, hle⟩ .nil))
      rw [and_and_mask combined', and_and_mask combined, hc, (hle.setWidth 32).and_eq combinedAll]

theorem paePath_mono {c : Control} {read read' : BitVec 64 → BitVec 64}
    (h : paePath c read laddr = .ok p) (hread : ∀ a ∈ p.addrs, AdLe (read a) (read' a)) :
    ∃ p', paePath c read' laddr = .ok p' ∧ PathLe p p' := by
  obtain ⟨reserved, hreserved⟩ :
    ∃ r, r = legacyPaeReserved ||| (if c.nxe then 0#64 else nxBit) := ⟨_, rfl⟩
  have hmask {e e' : BitVec 64} (hle : AdLe e e') : e' &&& reserved = e &&& reserved := by
    rw [hreserved]
    refine hle.and_eq _ ?_ ?_ <;> cases c.nxe <;> decide
  simp only [paePath, ← hreserved] at h ⊢
  split_ifs at h with hpres hres hpres1 hres1 hps hres2 hpres2 hres3
  · cases h
    have hle := hread _ (mem_append_right _ mem_cons_self)
    rw [if_neg (not_not_intro hpres), if_neg hres, hle.present, hmask hle, hle.ps,
      hle.and_eq pde2mReserved, if_neg (not_not_intro hpres1), if_neg hres1, if_pos hps,
      if_neg hres2]
    exact ⟨_, rfl, .nil, rfl, hle, rfl, hle.and_eq _, rfl⟩
  · cases h
    have hle := hread _ (mem_append_left _ (mem_map_of_mem mem_cons_self))
    have hle' := hread _ (mem_append_right _ mem_cons_self)
    rw [if_neg (not_not_intro hpres), if_neg hres, hle.present, hmask hle, hle.ps, hle.frame,
      if_neg (not_not_intro hpres1), if_neg hres1, if_neg hps, hle'.present, hmask hle',
      if_neg (not_not_intro hpres2), if_neg hres3]
    refine ⟨_, rfl, .cons ⟨rfl, hle⟩ .nil, rfl, hle', ?_, hle'.frame, rfl⟩
    exact hle.rights combinedAll

theorem legacyPath_mono {c : Control} {read read' : BitVec 64 → BitVec 32}
    (h : legacyPath c read laddr = .ok p) (hread : ∀ a ∈ p.addrs, AdLe (read a) (read' a)) :
    ∃ p', legacyPath c read' laddr = .ok p' ∧ PathLe p p' := by
  simp only [legacyPath] at h ⊢
  split_ifs at h with hpres hps hres hpres1
  · cases h
    have hle := hread _ (mem_append_right _ mem_cons_self)
    rw [hle.present, hle.ps, hle.and_eq pde4mReserved, if_neg (not_not_intro hpres), if_pos hps,
      if_neg hres]
    exact ⟨_, rfl, .nil, rfl, hle.setWidth 64, rfl, (hle.setWidth 64).and_eq _, rfl⟩
  · cases h
    have hle := hread _ (mem_append_left _ (mem_map_of_mem mem_cons_self))
    have hle' := hread _ (mem_append_right _ mem_cons_self)
    have hpte : legacyPteAddr (read' (legacyPdeAddr c laddr)) laddr =
        legacyPteAddr (read (legacyPdeAddr c laddr)) laddr := by
      unfold legacyPteAddr
      rw [(hle.setWidth 64).and_eq 0xFFFFF000#64]
    rw [hle.present, hle.ps, if_neg (not_not_intro hpres), if_neg hps, hpte, hle'.present,
      if_neg (not_not_intro hpres1)]
    refine ⟨_, rfl, .cons ⟨rfl, hle.setWidth 64⟩ .nil, rfl, hle'.setWidth 64, ?_,
      (hle'.setWidth 64).and_eq _, rfl⟩
    rw [hle.and_eq combinedAll]

/-- A path stays when its entries only gain accessed and dirty bits. -/
theorem path_mono {s' : Cpu m} (hctl : s'.ctl = s.ctl) (h : s.path laddr = .ok p)
    (hread : ∀ a ∈ p.addrs, AdLe (s.readEntry a) (s'.readEntry a)) :
    ∃ p', s'.path laddr = .ok p' ∧ PathLe p p' := by
  simp only [path, readEntry, wide, longMode, hctl] at h hread ⊢
  cases hlong : s.ctl.lma with
  | true =>
    simp only [hlong, Bool.true_or, if_true] at h hread ⊢
    refine longLoop_mono ?_ ?_ h hread rfl .nil <;>
      · unfold longReserved
        cases s.ctl.nxe <;> decide
  | false =>
    cases hpae : s.ctl.pae with
    | true =>
      simp only [hlong, hpae, Bool.false_or, Bool.false_eq_true, if_true, if_false] at h hread ⊢
      exact paePath_mono h hread
    | false =>
      simp only [hlong, hpae, Bool.false_or, Bool.false_eq_true, if_false] at h hread ⊢
      refine legacyPath_mono h fun a ha => ?_
      have hle := (hread a ha).setWidth 32
      rwa [setWidth_setWidth_of_le, setWidth_setWidth_of_le,
        setWidth_eq, setWidth_eq] at hle <;> decide

/-! ## The updates in memory -/

/-- Nothing but the devices noticed. -/
def Cpu.OnlyDevices (s s' : Cpu m) : Prop := ∃ log, s' = { s with deviceLog := log }

theorem Cpu.OnlyDevices.trans {s' s'' : Cpu m} (h : s.OnlyDevices s')
    (h' : s'.OnlyDevices s'') : s.OnlyDevices s'' := by
  obtain ⟨log, rfl⟩ := h
  obtain ⟨log', rfl⟩ := h'
  exact ⟨log', rfl⟩

theorem memWriteByte_onlyDevices (s : Cpu m) (v : BitVec 8)
    (h : m.directRamOffset addr 1 = none) : s.OnlyDevices (s.memWriteByte .walk addr v) := by
  unfold memWriteByte
  rw [h]
  exact ⟨_, rfl⟩

theorem memWriteBytes_onlyDevices (s : Cpu m) {w : Nat} (v : BitVec w) {n : Nat}
    (h : ∀ i < n, m.directRamOffset (addr + BitVec.ofNat 64 i) 1 = none) :
    s.OnlyDevices (s.memWriteBytes .walk addr v n) := by
  unfold memWriteBytes
  induction n with
  | zero => exact ⟨_, rfl⟩
  | succ n ih =>
    rw [range_succ, foldl_append]
    exact (ih fun i hi => h i (by omega)).trans (memWriteByte_onlyDevices _ _ (h n (by omega)))

theorem memWriteWord_onlyDevices (s : Cpu m) (v : BitVec 16) (h : ∀ i len, 0 < len → i + len ≤ 2 →
      m.directRamOffset (addr + BitVec.ofNat 64 i) len = none) :
    s.OnlyDevices (s.memWriteWord .walk addr v) := by
  have hbytes : s.OnlyDevices (s.memWriteBytes .walk addr v 2) :=
    memWriteBytes_onlyDevices s v fun i hi => h i 1 (by omega) (by omega)
  have hword := h 0 2 (by omega) (by omega)
  rw [show addr + BitVec.ofNat 64 0 = addr from BitVec.add_zero addr] at hword
  unfold memWriteWord
  split
  · exact hbytes
  · rw [hword]
    dsimp only
    split
    · exact ⟨_, rfl⟩
    · exact hbytes

theorem memWriteDword_onlyDevices (s : Cpu m) (v : BitVec 32) (h : ∀ i len, 0 < len → i + len ≤ 4 →
      m.directRamOffset (addr + BitVec.ofNat 64 i) len = none) :
    s.OnlyDevices (s.memWriteDword .walk addr v) := by
  have hdword := h 0 4 (by omega) (by omega)
  rw [show addr + BitVec.ofNat 64 0 = addr from BitVec.add_zero addr] at hdword
  unfold memWriteDword
  rw [hdword]
  dsimp only
  split
  · exact ⟨_, rfl⟩
  · refine (memWriteWord_onlyDevices s _ fun i len hlen hi => h i len hlen (by omega)).trans
      (memWriteWord_onlyDevices _ _ fun i len hlen hi => ?_)
    have hnext := h (2 + i) len hlen (by omega)
    rwa [BitVec.ofNat_add, ← BitVec.add_assoc] at hnext

/-- Where an entry sits in RAM. -/
def Cpu.entryOffset (s : Cpu m) (addr : BitVec 64) : Option Nat :=
  m.walkRamOffset addr s.entryBytes

/-- RAM after an entry was written. -/
def Cpu.entryRam (s : Cpu m) (addr v : BitVec 64) : Nat → BitVec 8 :=
  match s.entryOffset addr with
  | some off => store s.ram off s.entryBytes v
  | none => s.ram

theorem pageWalkWriteQword_eq (hwide : s.wide = true) (h : addr.toNat % 8 = 0) (v : BitVec 64) :
    ∃ log, s.pageWalkWriteQword addr v = { s with ram := s.entryRam addr v, deviceLog := log } := by
  have hbytes : s.entryBytes = 8 := by simp [entryBytes, hwide]
  unfold pageWalkWriteQword entryRam entryOffset
  rw [hbytes]
  cases hoff : m.walkRamOffset addr 8 with
  | some off => exact ⟨s.deviceLog, rfl⟩
  | none =>
    exact memWriteBytes_onlyDevices s v fun i hi =>
      Machine.directRamOffset_of_walkRamOffset_none (.inr rfl) h Nat.one_pos hi hoff

theorem writeLegacyEntry_eq (hwide : s.wide = false) (h : addr.toNat % 4 = 0) (v : BitVec 64) :
    ∃ log, s.writeLegacyEntry addr v = { s with ram := s.entryRam addr v, deviceLog := log } := by
  have hbytes : s.entryBytes = 4 := by simp [entryBytes, hwide]
  unfold writeLegacyEntry pageWalkWriteDword entryRam entryOffset
  rw [hbytes]
  cases hoff : m.walkRamOffset addr 4 with
  | some off =>
    dsimp only
    rw [← store_setWidth s.ram off 4 v]
    exact ⟨s.deviceLog, rfl⟩
  | none =>
    exact memWriteDword_onlyDevices s _ fun i len hlen hi =>
      Machine.directRamOffset_of_walkRamOffset_none (.inl rfl) h hlen hi hoff

/-- The updates that reach RAM. -/
def Cpu.ramUpdates (s : Cpu m) (us : List (BitVec 64 × BitVec 64)) :
    List (Nat × BitVec (8 * s.entryBytes)) :=
  us.filterMap fun u => (s.entryOffset u.1).map fun off => (off, u.2.setWidth (8 * s.entryBytes))

theorem storeAll_ramUpdates_cons (s : Cpu m) (u : BitVec 64 × BitVec 64)
    (us : List (BitVec 64 × BitVec 64)) :
    storeAll (s.entryRam u.1 u.2) s.entryBytes (s.ramUpdates us) =
      storeAll s.ram s.entryBytes (s.ramUpdates (u :: us)) := by
  unfold entryRam ramUpdates
  rw [filterMap_cons]
  cases s.entryOffset u.1 with
  | none => rfl
  | some off =>
    dsimp only
    rw [← store_setWidth s.ram off s.entryBytes u.2]
    rfl

theorem updateAd_eq {write : Cpu m → BitVec 64 → BitVec 64 → Cpu m} (s : Cpu m)
    (hwrite : ∀ (s' : Cpu m) (a v : BitVec 64), s'.ctl = s.ctl → a.toNat % s.entryBytes = 0 →
      ∃ log, write s' a v = { s' with ram := s'.entryRam a v, deviceLog := log })
    (h : ∀ u ∈ us, u.1.toNat % s.entryBytes = 0) :
    ∃ log, s.updateAd write us =
      { s with ram := storeAll s.ram s.entryBytes (s.ramUpdates us), deviceLog := log } := by
  induction us generalizing s with
  | nil => exact ⟨s.deviceLog, rfl⟩
  | cons u us ih =>
    obtain ⟨log, hu⟩ := hwrite s u.1 u.2 rfl (h u mem_cons_self)
    obtain ⟨log', hus⟩ := ih { s with ram := s.entryRam u.1 u.2, deviceLog := log } hwrite
      fun u' hu' => h u' (mem_cons_of_mem u hu')
    refine ⟨log', ?_⟩
    calc s.updateAd write (u :: us) = (write s u.1 u.2).updateAd write us := rfl
      _ = { s with
            ram := storeAll (s.entryRam u.1 u.2) s.entryBytes (s.ramUpdates us)
            deviceLog := log' } := by
        rw [hu]
        exact hus
      _ = _ := by rw [storeAll_ramUpdates_cons]

/-- The updates of a walk are stores of aligned words. -/
theorem setAd_eq (s : Cpu m) (h : ∀ u ∈ us, u.1.toNat % s.entryBytes = 0) :
    ∃ log, s.setAd us =
      { s with ram := storeAll s.ram s.entryBytes (s.ramUpdates us), deviceLog := log } := by
  unfold setAd
  cases hwide : s.wide with
  | true =>
    have hbytes : s.entryBytes = 8 := by simp [entryBytes, hwide]
    refine updateAd_eq s (fun s' a v hctl ha => pageWalkWriteQword_eq ?_ (hbytes ▸ ha) v) h
    rw [← hwide, wide, longMode, hctl]
    rfl
  | false =>
    have hbytes : s.entryBytes = 4 := by simp [entryBytes, hwide]
    refine updateAd_eq s (fun s' a v hctl ha => writeLegacyEntry_eq ?_ (hbytes ▸ ha) v) h
    rw [← hwide, wide, longMode, hctl]
    rfl

/-! ## Reading entries after the updates -/

theorem readEntry_eq_load (h : s.entryOffset a = some off) :
    s.readEntry a = (load s.ram off s.entryBytes).setWidth 64 := by
  unfold entryOffset entryBytes at h
  unfold readEntry entryBytes
  cases hwide : s.wide with
  | true =>
    simp only [hwide, if_true] at h ⊢
    simp only [pageWalkReadQword, h]
    exact (setWidth_eq _).symm
  | false =>
    simp only [hwide, Bool.false_eq_true, if_false] at h ⊢
    simp only [pageWalkReadDword, h]
    rfl

theorem entryOffset_aligned (ha : a.toNat % s.entryBytes = 0) (h : s.entryOffset a = some off) :
    off % s.entryBytes = 0 := by
  unfold entryOffset at h
  rw [Machine.walkRamOffset_eq_some, Machine.guestRamSpan_eq_some, Machine.toNat_applyA20] at h
  obtain ⟨-, -, -, -, rfl⟩ := h
  unfold translateGpaToLinear pciHoleEnd pciHoleSize
  unfold entryBytes at ha ⊢
  split_ifs at ha ⊢ <;> omega

theorem entryBytes_le (s : Cpu m) : 4 ≤ s.entryBytes ∧ s.entryBytes ≤ 8 := by
  unfold entryBytes
  split <;> decide

/-- An entry in RAM holds one of the values written to it, or what it held. -/
theorem readEntry_setAd_cases (hus : ∀ u ∈ us, u.1.toNat % s.entryBytes = 0)
    (ha : a.toNat % s.entryBytes = 0) (hoff : s.entryOffset a = some off) :
    (∃ u ∈ us, s.entryOffset u.1 = some off ∧
      (s.setAd us).readEntry a = (u.2.setWidth (8 * s.entryBytes)).setWidth 64) ∨
    (∀ u ∈ us, s.entryOffset u.1 ≠ some off) ∧ (s.setAd us).readEntry a = s.readEntry a := by
  obtain ⟨log, h⟩ := setAd_eq s hus
  rw [h, readEntry_eq_load hoff, readEntry_eq_load (s := { s with ram := _, deviceLog := log }) hoff]
  have haligned : ∀ u ∈ s.ramUpdates us, u.1 % s.entryBytes = 0 := by
    intro u hu
    obtain ⟨u', hu', hmap⟩ := List.mem_filterMap.mp hu
    obtain ⟨off', hoff', rfl⟩ := Option.map_eq_some_iff.mp hmap
    exact entryOffset_aligned (hus u' hu') hoff'
  rcases load_storeAll (entryOffset_aligned ha hoff) (s.ramUpdates us) haligned s.ram with
    ⟨u, hu, huoff, hload⟩ | ⟨hnone, hload⟩
  · obtain ⟨u', hu', hmap⟩ := List.mem_filterMap.mp hu
    obtain ⟨off', hoff', rfl⟩ := Option.map_eq_some_iff.mp hmap
    refine .inl ⟨u', hu', hoff'.trans (congrArg some huoff), ?_⟩
    exact congrArg (setWidth 64) hload
  · refine .inr ⟨fun u hu huoff => ?_, congrArg (setWidth 64) hload⟩
    exact hnone (off, _) (List.mem_filterMap.mpr ⟨u, hu, by rw [huoff]; rfl⟩) rfl

/-- Updates that only add accessed and dirty bits leave every entry in RAM above what it
was. -/
theorem readEntry_setAd_le (hus : ∀ u ∈ us, u.1.toNat % s.entryBytes = 0)
    (hle : ∀ u ∈ us, AdLe (s.readEntry u.1) u.2) (ha : a.toNat % s.entryBytes = 0)
    (hoff : s.entryOffset a = some off) : AdLe (s.readEntry a) ((s.setAd us).readEntry a) := by
  rcases readEntry_setAd_cases hus ha hoff with ⟨u, hu, huoff, hval⟩ | ⟨-, hval⟩
  · have h := ((hle u hu).setWidth (8 * s.entryBytes)).setWidth 64
    have hback (x : BitVec (8 * s.entryBytes)) :
        (x.setWidth 64).setWidth (8 * s.entryBytes) = x := by
      have hbytes := entryBytes_le s
      rw [setWidth_setWidth_of_le x (by omega), setWidth_eq]
    rw [readEntry_eq_load huoff, hback] at h
    rw [hval, readEntry_eq_load hoff]
    exact h
  · rw [hval]
    exact .refl _

/-! ## The updates of a walk -/

/-- All entries of a path are in RAM. -/
def Cpu.Resident (s : Cpu m) (p : Path) : Prop := ∀ a ∈ p.addrs, ∃ off, s.entryOffset a = some off

theorem leafNeeded_iff (e : BitVec 64) (isWrite : Bool) :
    e &&& leafNeeded isWrite = leafNeeded isWrite ↔ accessed e ∧ (isWrite → dirty e) := by
  have hbits : ∀ i < 64, (leafNeeded isWrite).getLsbD i =
      (decide (i = 5) || (decide (i = 6) && isWrite)) := by
    cases isWrite <;> decide
  constructor
  · intro h
    have h5 := congrArg (getLsbD · 5) h
    have h6 := congrArg (getLsbD · 6) h
    simp only [getLsbD_and, hbits 5 (by decide), hbits 6 (by decide)] at h5 h6
    refine ⟨by simpa [accessed] using h5, fun hw => ?_⟩
    simpa [dirty, hw] using h6
  · rintro ⟨ha, hd⟩
    apply eq_of_getLsbD_eq
    intro i hi
    rw [getLsbD_and, hbits i hi]
    by_cases h5 : i = 5
    · subst h5
      simpa [accessed] using ha
    · by_cases h6 : i = 6
      · subst h6
        simpa [dirty] using hd
      · simp [h5, h6]

theorem updates_eq_nil_iff (p : Path) (isWrite : Bool) :
    p.updates isWrite = [] ↔
      (∀ e ∈ p.upper, accessed e.2) ∧ accessed p.leaf ∧ (isWrite → dirty p.leaf) := by
  unfold Path.updates
  rw [append_eq_nil_iff, map_eq_nil_iff, filter_eq_nil_iff, ← leafNeeded_iff]
  simp

/-- A path above one without updates has none. -/
theorem PathLe.updates_nil (h : PathLe p p') {isWrite : Bool}
    (hnil : p.updates isWrite = []) : p'.updates isWrite = [] := by
  rw [updates_eq_nil_iff] at hnil ⊢
  refine ⟨fun e' he' => ?_, h.leaf.accessed hnil.2.1, fun hw => h.leaf 6 (hnil.2.2 hw)⟩
  obtain ⟨e, he, -, hle⟩ := h.of_mem_upper he'
  exact hle.accessed (hnil.1 e he)

/-- The bits a walk adds to an entry. -/
theorem adLe_or_bits (e : BitVec 64) {bits : BitVec 64} (h : bits = 0x20#64 ∨ bits = 0x60#64) :
    AdLe e (e ||| bits) ∧ accessed (e ||| bits) := by
  refine ⟨AdLe.or fun i hi => ?_, ?_⟩
  · have hlt := lt_of_getLsbD hi
    rcases h with rfl | rfl <;> decide +revert
  · rcases h with rfl | rfl <;> simp [accessed]

/-- Every update is one of an entry of the path. -/
theorem of_mem_updates {isWrite : Bool} {u : BitVec 64 × BitVec 64} (hu : u ∈ p.updates isWrite) :
    ∃ e ∈ p.toSystem.entries, u.1 = e.1 ∧ AdLe e.2 u.2 ∧ accessed u.2 := by
  rcases List.mem_append.mp hu with hu | hu
  · obtain ⟨e, he, rfl⟩ := List.mem_map.mp hu
    exact ⟨e, mem_append_left _ (List.mem_filter.mp he).1, rfl, adLe_or_bits _ (.inl rfl)⟩
  · split at hu
    · cases hu
    · rw [List.mem_singleton.mp hu]
      refine ⟨_, mem_append_right _ mem_cons_self, rfl, adLe_or_bits _ ?_⟩
      cases isWrite
      · exact .inl rfl
      · exact .inr rfl

theorem updates_spec (h : s.path laddr = .ok p) {isWrite : Bool} {u : BitVec 64 × BitVec 64}
    (hu : u ∈ p.updates isWrite) :
    u.1 ∈ p.addrs ∧ AdLe (s.readEntry u.1) u.2 ∧ accessed u.2 := by
  obtain ⟨e, he, haddr, hle⟩ := of_mem_updates hu
  have hsystem := ((systemPath_iff s false laddr p.toSystem).mpr ⟨p, h, rfl⟩).1
  rw [haddr, ← ((systemPath_shape hsystem).entries e he).1]
  refine ⟨?_, hle⟩
  simpa [Path.addrs, SystemPath.entries, Path.toSystem] using mem_map_of_mem (f := Prod.fst) he

theorem updates_aligned (h : s.path laddr = .ok p)
    (isWrite : Bool) : ∀ u ∈ p.updates isWrite, u.1.toNat % s.entryBytes = 0 :=
  fun _ hu => (path_shape h).aligned _ (updates_spec h hu).1

/-- Updating a path only adds accessed and dirty bits. -/
theorem readEntry_updates_le (h : s.path laddr = .ok p) (isWrite : Bool)
    (ha : a.toNat % s.entryBytes = 0) (hoff : s.entryOffset a = some off) :
    AdLe (s.readEntry a) ((s.setAd (p.updates isWrite)).readEntry a) :=
  readEntry_setAd_le (updates_aligned h isWrite) (fun _ hu => (updates_spec h hu).2.1) ha hoff

theorem setAd_ctl (h : ∀ u ∈ us, u.1.toNat % s.entryBytes = 0) : (s.setAd us).ctl = s.ctl := by
  obtain ⟨log, h⟩ := setAd_eq s h
  rw [h]

section

variable (h : s.path laddr = .ok p) (hres : s.Resident p) (isWrite : Bool)
include h hres

/-- An entry of the path that needed its accessed bit has it afterwards. -/
theorem accessed_updates {e : BitVec 64 × BitVec 64} (he : e ∈ p.upper) :
    accessed ((s.setAd (p.updates isWrite)).readEntry e.1) := by
  have hmem : e.1 ∈ p.addrs := mem_append_left _ (mem_map_of_mem he)
  have hshape := path_shape h
  obtain ⟨off, hoff⟩ := hres e.1 hmem
  by_cases hacc : accessed e.2
  · rw [hshape.upper e he] at hacc
    exact (readEntry_updates_le h isWrite (hshape.aligned _ hmem) hoff).accessed hacc
  · have hu : (e.1, e.2 ||| 0x20#64) ∈ p.updates isWrite :=
      mem_append_left _ (List.mem_map.mpr ⟨e, List.mem_filter.mpr ⟨he, by simpa using hacc⟩, rfl⟩)
    rcases readEntry_setAd_cases (updates_aligned h isWrite) (hshape.aligned _ hmem) hoff with
      ⟨u, hu', -, hval⟩ | ⟨hnone, -⟩
    · have hacc' := (updates_spec h hu').2.2
      have hbytes := entryBytes_le s
      rw [hval]
      unfold accessed at hacc' ⊢
      rw [getLsbD_setWidth, getLsbD_setWidth, hacc']
      simp [show 5 < 8 * s.entryBytes by omega]
    · exact absurd hoff (hnone (e.1, e.2 ||| 0x20#64) hu)

/-- The leaf has the bits the access needs afterwards. -/
theorem leaf_updates :
    (s.setAd (p.updates isWrite)).readEntry p.leafAddr &&& leafNeeded isWrite =
      leafNeeded isWrite := by
  have hmem : p.leafAddr ∈ p.addrs := mem_append_right _ mem_cons_self
  have hshape := path_shape h
  obtain ⟨off, hoff⟩ := hres p.leafAddr hmem
  by_cases hleaf : p.leaf &&& leafNeeded isWrite = leafNeeded isWrite
  · have hle := readEntry_updates_le h isWrite (hshape.aligned _ hmem) hoff
    rw [hshape.leaf, leafNeeded_iff] at hleaf
    rw [leafNeeded_iff]
    exact ⟨hle.accessed hleaf.1, fun hw => hle 6 (hleaf.2 hw)⟩
  · -- the leaf is written last, so nothing overwrites it
    obtain ⟨log, hset⟩ := setAd_eq s (updates_aligned h isWrite)
    obtain ⟨us, hus⟩ : ∃ us, p.updates isWrite = us ++ [(p.leafAddr, p.leaf ||| leafNeeded isWrite)] :=
      ⟨_, by rw [Path.updates, if_neg hleaf]⟩
    have hram : s.ramUpdates (p.updates isWrite) = s.ramUpdates us ++
        [(off, (p.leaf ||| leafNeeded isWrite).setWidth (8 * s.entryBytes))] := by
      rw [hus]
      unfold ramUpdates
      rw [filterMap_append]
      simp [hoff]
    have hload : load (storeAll s.ram s.entryBytes (s.ramUpdates (p.updates isWrite))) off
        s.entryBytes = (p.leaf ||| leafNeeded isWrite).setWidth (8 * s.entryBytes) := by
      rw [hram, storeAll, foldl_append]
      exact load_store_self ..
    have hread : (s.setAd (p.updates isWrite)).readEntry p.leafAddr =
        ((p.leaf ||| leafNeeded isWrite).setWidth (8 * s.entryBytes)).setWidth 64 := by
      rw [hset, readEntry_eq_load (s := { s with ram := _, deviceLog := log }) hoff]
      exact congrArg (setWidth 64) hload
    have hbytes := entryBytes_le s
    rw [hread, leafNeeded_iff]
    unfold accessed dirty
    rw [getLsbD_setWidth, getLsbD_setWidth, getLsbD_setWidth, getLsbD_setWidth]
    cases isWrite <;>
      simp [leafNeeded, show 5 < 8 * s.entryBytes by omega, show 6 < 8 * s.entryBytes by omega]

/-- After a walk its path needs no more updates. -/
theorem path_updates :
    ∃ p', (s.setAd (p.updates isWrite)).path laddr = .ok p' ∧ PathLe p p' ∧
      p'.updates isWrite = [] := by
  have hshape := path_shape h
  have hctl := setAd_ctl (updates_aligned h isWrite)
  obtain ⟨p', hp', hle⟩ := path_mono hctl h fun a ha => by
    obtain ⟨off, hoff⟩ := hres a ha
    exact readEntry_updates_le h isWrite (hshape.aligned a ha) hoff
  have hshape' := path_shape hp'
  refine ⟨p', hp', hle, (updates_eq_nil_iff p' isWrite).mpr ⟨fun e he => ?_, ?_⟩⟩
  · obtain ⟨e₀, he₀, haddr, -⟩ := hle.of_mem_upper he
    rw [hshape'.upper e he, haddr]
    exact accessed_updates h hres isWrite he₀
  · rw [hshape'.leaf, hle.leafAddr, ← leafNeeded_iff]
    exact leaf_updates h hres isWrite

end

/-- A miss changes RAM by the updates of the walk and one slot of the TLB. -/
theorem refill_eq (hpath : s.path laddr = .ok p) (isWrite : Bool) :
    ∃ log dtlb, s.refill laddr p isWrite =
        { s with
          dtlb := dtlb
          ram := storeAll s.ram s.entryBytes (s.ramUpdates (p.updates isWrite))
          deviceLog := log } ∧
      ∀ i, dtlb.entries i = if i = dtlbIndexOf laddr 0 then
        filledEntry s laddr (m.applyA20 (p.paddr laddr)) (s.walkResult p laddr) isWrite false
        else s.dtlb.entries i := by
  obtain ⟨log, hset⟩ := setAd_eq { s with dtlb := s.dtlb.invalidateSlot laddr 0 }
    (updates_aligned hpath isWrite)
  unfold refill
  rw [hset]
  refine ⟨log, _, rfl, fun i => ?_⟩
  dsimp only [fillDtlb, Dtlb.setEntry, Dtlb.invalidateSlot]
  split
  case isTrue hi =>
    rw [hi, Function.update_self]
    rfl
  case isFalse hi => rw [Function.update_of_ne hi, Function.update_of_ne hi]

end RustyBox
