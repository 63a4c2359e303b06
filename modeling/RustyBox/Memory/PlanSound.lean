-- SUMMARY: The windows of a derived memory plan name the bytes the router goes to, but for three exceptions.
import RustyBox.Memory.Plan
import RustyBox.Memory.RouteAgreement

/-!
# Soundness of the memory plan

A derived plan never names a byte twice, never covers a registered region and is always made
of whole pages. The host byte it names for an address is the one the router reads, except in
the ROM area when PCI is off, under an option ROM that lies outside RAM, and in every
megabyte but the first of a BIOS window: there the window goes on through the ROM images,
while the router shows the last megabyte of the image again.
-/

namespace RustyBox

open List Nat Board CarveOuts Candidate MemoryPlan

namespace HostMemory

variable (m : HostMemory)

/-- The byte at an offset of the allocation. -/
def hostCell (offset : Nat) : Cell :=
  if offset < m.residentLen then .ram offset else .rom (offset - m.residentLen)

/-- The route of one byte that a processor reads or writes. -/
def ReadsByte (a : Nat) (c : Cell) : Prop :=
  ∀ p : CpuMemoryPolicy, p.cpuContext = true →
    m.board.readPhysicalPage p (BitVec.ofNat 64 a) 1 = .cells [c]

def WritesByte (a : Nat) (c : Cell) : Prop :=
  ∀ p : CpuMemoryPolicy, p.cpuContext = true →
    m.board.writePhysicalPage p (BitVec.ofNat 64 a) 1 = .cells [c]

/-- A window that an engine can install. -/
structure SoundWindow (w : GpaWindow) : Prop where
  aligned : w.gpa % guestPage = 0 ∧ w.len % guestPage = 0 ∧ w.host % guestPage = 0
  allocated : w.host + w.len ≤ m.allocLen
  unregistered : ∀ a, w.covers a = true → m.board.mmio.covers a = false
  reads : ∀ a, w.covers a = true → m.ReadsByte a (m.hostCell (w.named a))
  writes : w.perms.write = true → ∀ a, w.covers a = true → m.WritesByte a (m.hostCell (w.named a))

/-- A sound plan: sound windows, no two of which cover the same address. -/
structure SoundPlan (ws : List GpaWindow) : Prop where
  window : ∀ w ∈ ws, m.SoundWindow w
  apart : ws.Pairwise fun w other => ∀ a, ¬ (w.covers a = true ∧ other.covers a = true)

/-- One byte of guest RAM is at the address. -/
def InRam (a : Nat) : Prop := (guestRamSpan (BitVec.ofNat 64 a) 1 m.guestLen).isSome = true

/-- Where a window names the byte the router goes to: in a BIOS window the first megabyte,
outside RAM and SMRAM; in the ROM area RAM with PCI on, or the BIOS image outside RAM. -/
def NamedRight (a : Nat) : Prop :=
  if m.board.biosRomAddr ≤ a ∧ a < 2 ^ 32 then
    a / 2 ^ 20 = m.board.biosRomAddr / 2 ^ 20 ∧ inSmramWindow a = false ∧ ¬ m.InRam a
  else if 0xC0000 ≤ a ∧ a < 0x100000 ∧
      ¬ (m.board.pciEnabled = true ∧ m.board.memoryType (shadowArea a) false = true) then
    if a < m.guestLen then m.board.pciEnabled = true else 0xE0000 ≤ a
  else True

/-- The plan of the machine, if it has one, is sound. -/
def DerivesSound : Prop := ∀ ws, m.derive = .ok ws → m.SoundPlan ws

/-- If the machine has a plan, every address that no carve-out takes from it is named right. -/
def DerivesRight : Prop :=
  (∃ ws, m.derive = .ok ws) → ∀ a, ¬ Carved m.carveOuts a → m.NamedRight a

variable {m}

/-! ## The carve-outs -/

section CarveOuts

/-- The loop over the registered regions, from the carve-outs it starts with. -/
theorem carveRegions (rs : List MappedRegion) {ranges : List (Nat × Nat)} (hord : Ordered ranges)
    (hroom : ranges.length + rs.length ≤ maxPlanWindows) :
    let out := rs.foldl
      (fun ranges r => add ranges r.first (min (r.last + 1) (2 ^ 64 - 1))) ranges
    Ordered out ∧ ∀ a < 3 * 2 ^ 62, Carved ranges a ∨ (∃ r ∈ rs, r.contains a = true) →
      Carved out a := by
  induction rs generalizing ranges with
  | nil =>
    refine ⟨hord, fun a _ h => h.resolve_right ?_⟩
    rintro ⟨r, hr, -⟩
    cases hr
  | cons r rs ih =>
    have hlen : ranges.length + (rs.length + 1) ≤ maxPlanWindows := hroom
    have hnext := length_add_le ranges r.first (min (r.last + 1) (2 ^ 64 - 1))
    obtain ⟨hordered, hcarved⟩ := ih (hord.add r.first (min (r.last + 1) (2 ^ 64 - 1))) (by omega)
    refine ⟨hordered, fun a ha h => hcarved a ha ?_⟩
    rcases h with h | ⟨r', hr', hcontains⟩
    · exact .inl (h.add _ _)
    · rcases List.mem_cons.mp hr' with rfl | hr'
      · have hcontains : r'.first ≤ a ∧ a ≤ r'.last := by
          simpa [MappedRegion.contains] using hcontains
        exact .inl (carved_add (by omega) hcontains.1 (by omega) ha)
      · exact .inr ⟨r', hr', hcontains⟩

theorem length_regions_le (map : MmioMap) : map.regions.length ≤ 16 := by
  exact (length_filterMap_le _ _).trans (by simp)

theorem carveOuts_spec :
    Ordered m.carveOuts ∧ ∀ a < 3 * 2 ^ 62,
      (m.smramIsOpen = false ∧ inSmramWindow a = true) ∨ m.board.mmio.covers a = true →
        Carved m.carveOuts a := by
  have hlen := length_regions_le m.board.mmio
  have hstart : ∃ ranges, ranges = (if m.smramIsOpen then [] else add [] 0xA0000 0xC0000) ∧
      Ordered ranges ∧ ranges.length ≤ 1 ∧ ∀ a < 3 * 2 ^ 62,
        m.smramIsOpen = false ∧ inSmramWindow a = true → Carved ranges a := by
    refine ⟨_, rfl, ?_⟩
    cases m.smramIsOpen with
    | true => exact ⟨.nil, by simp, by simp⟩
    | false =>
      refine ⟨Ordered.nil.add 0xA0000 0xC0000, length_add_le [] 0xA0000 0xC0000, fun a ha h => ?_⟩
      have hroom : ([] : List (Nat × Nat)).length < maxPlanWindows := by decide
      have hwindow : 0xA0000 ≤ a ∧ a < 0xC0000 := by simpa [inSmramWindow] using h.2
      exact carved_add hroom hwindow.1 hwindow.2 ha
  obtain ⟨ranges, heq, hord, hlength, hvideo⟩ := hstart
  have hroom : ranges.length + m.board.mmio.regions.length ≤ maxPlanWindows := by
    unfold maxPlanWindows
    omega
  have h := carveRegions m.board.mmio.regions hord hroom
  unfold carveOuts
  rw [← heq]
  refine ⟨h.1, fun a ha hcase => h.2 a ha ?_⟩
  rcases hcase with hwindow | hcovers
  · exact .inl (hvideo a ha hwindow)
  · refine .inr ?_
    obtain ⟨r, hfind⟩ := Option.isSome_iff_exists.mp hcovers
    unfold MmioMap.find at hfind
    split at hfind
    · have hcontains := List.find?_some (p := fun r : MappedRegion => r.contains a) hfind
      exact ⟨r, List.mem_of_find?_eq_some hfind, hcontains⟩
    · cases hfind

end CarveOuts

/-! ## The candidates -/

/-- The candidates there are, empty ones included. -/
inductive IsCandidate (m : HostMemory) : Candidate → Prop
  | lowRam : IsCandidate m m.lowRam
  | pam {base : Nat} {c : Candidate} (hbase : base ∈ pamBases)
      (h : m.pamCandidate base = some c) : IsCandidate m c
  | highRam (h : 0x100000 < min m.guestLen pciHoleStart) : IsCandidate m m.highRam
  | aboveHole {c : Candidate} (h : ramAboveTheHole m.guestLen = some c) : IsCandidate m c
  | bios : IsCandidate m m.biosCandidate

theorem mem_pamBases {base : Nat} : base ∈ pamBases ↔ ∃ i < 13, base = 0xC0000 + i * 0x4000 := by
  simp [pamBases, eq_comm]

variable {c : Candidate} {a : Nat} {cs : List Candidate} {ws : List GpaWindow}

theorem mem_planCandidates
    (h : m.planCandidates = .ok cs) : c ∈ cs ↔ m.IsCandidate c ∧ c.gpa < c.top := by
  unfold planCandidates at h
  split at h
  · cases h
    rw [take_of_length_le, mem_filter, decide_eq_true_eq]
    · refine and_congr_left fun _ => ?_
      simp only [mem_append, mem_singleton, mem_filterMap, Option.mem_toList, if_pos m.bios_lt]
      constructor
      · rintro ((((rfl | ⟨base, hbase, hc⟩) | hc) | hc) | rfl)
        · exact .lowRam
        · exact .pam hbase hc
        · split at hc
          next hhigh =>
            rw [mem_singleton.mp hc]
            exact .highRam hhigh
          · cases hc
        · exact .aboveHole hc
        · exact .bios
      · rintro (_ | ⟨hbase, hc⟩ | hhigh | hc | _)
        · exact .inl (.inl (.inl (.inl rfl)))
        · exact .inl (.inl (.inl (.inr ⟨_, hbase, hc⟩)))
        · exact .inl (.inl (.inr (by rw [if_pos hhigh]; exact mem_singleton_self _)))
        · exact .inl (.inr hc)
        · exact .inr rfl
    · refine (length_filter_le _ _).trans ?_
      have hpam : (pamBases.filterMap m.pamCandidate).length ≤ 13 := length_filterMap_le _ _
      have habove : (ramAboveTheHole m.guestLen).toList.length ≤ 1 := by
        cases ramAboveTheHole m.guestLen <;> simp
      simp only [length_append, length_singleton, apply_ite length, length_nil]
      unfold maxPlanWindows
      split_ifs <;> omega
  · cases h

theorem resident_of_planCandidates (h : m.planCandidates = .ok cs) :
    m.guestLen ≤ m.residentLen := by
  unfold planCandidates at h
  split at h
  next hidentity => exact m.resident hidentity
  · cases h

/-! ### Where they lie in the allocation -/

theorem romImageOffset_le (addr : Nat) : romImageOffset addr ≤ 0x420000 := by
  unfold romImageOffset
  rw [biosMapLast128k_eq, exRomSize, biosRomSize]
  split <;> omega

theorem residentLen_lt : m.residentLen < 2 ^ 62 + 2 ^ 62 := by
  have := m.alloc_lt
  omega

theorem hostOf_ramBetween {gpa top x : Nat} (hx : x < 2 ^ 64) :
    (ramBetween gpa top 0).hostOf x = x := mod_eq_of_lt hx

theorem hostOf_romCandidate {gpa top offset x : Nat} (hoffset : offset ≤ 0x420000)
    (hgpa : gpa ≤ x) (hx : x ≤ 2 ^ 32) :
    (m.romCandidate gpa top offset).hostOf x = m.residentLen + offset + (x - gpa) := by
  have := m.residentLen_lt
  show (x + (m.residentLen + offset + (2 ^ 64 - gpa)) % 2 ^ 64) % 2 ^ 64 = _
  omega

theorem affine_romCandidate {gpa top offset : Nat} (hoffset : offset ≤ 0x420000)
    (htop : top ≤ 2 ^ 32) : (m.romCandidate gpa top offset).Affine := by
  intro x k hx hk
  have hx : gpa ≤ x := hx
  have hk : x + k < top := hk
  rw [hostOf_romCandidate hoffset (by omega) (by omega), hostOf_romCandidate hoffset hx (by omega)]
  omega

theorem affine_ramBetween {gpa top : Nat} (htop : top ≤ m.residentLen) :
    top ≤ 3 * 2 ^ 62 ∧ (ramBetween gpa top 0).Affine := by
  have := m.residentLen_lt
  refine ⟨by omega, fun x k hx hk => ?_⟩
  have hk : x + k < top := hk
  rw [hostOf_ramBetween (by omega), hostOf_ramBetween (by omega)]

/-! ### The candidates of the PAM areas -/

section Pam

variable {base a : Nat} {c : Candidate}

/-- Reads of the ROM area go to the RAM under it. -/
abbrev Shadowed (m : HostMemory) (a : Nat) : Prop :=
  m.board.pciEnabled = true ∧ m.board.memoryType (shadowArea a) false = true

/-- A PAM area shows RAM, if all of it is there, or the ROM image. -/
theorem pamCandidate_eq_some :
    m.pamCandidate base = some c ↔
      if m.Shadowed base then
        base + pamAreaLen base ≤ m.guestLen ∧
          c = ⟨base, base + pamAreaLen base, 0,
            if m.board.memoryType (shadowArea base) true then .rwx else .rx⟩
      else c = m.romCandidate base (base + pamAreaLen base) (romImageOffset base) := by
  unfold pamCandidate
  dsimp only
  split
  · split
    next htop =>
      exact ⟨fun h => ⟨htop, (Option.some.inj h).symm⟩, fun h => congrArg some h.2.symm⟩
    next htop => exact ⟨nofun, fun h => absurd h.1 htop⟩
  · exact ⟨fun h => (Option.some.inj h).symm, fun h => congrArg some h.symm⟩

/-- An address of a PAM area. -/
structure InPamArea (base a : Nat) : Prop where
  base_mem : base ∈ pamBases
  le : base ≤ a
  lt : a < base + pamAreaLen base

namespace InPamArea

variable (h : InPamArea base a)
include h

theorem bounds : 0xC0000 ≤ base ∧ base % 0x4000 = 0 ∧ base ≤ a ∧ a < base + pamAreaLen base ∧
    (base = 0xF0000 ∧ pamAreaLen base = 0x10000 ∨ base < 0xF0000 ∧ pamAreaLen base = 0x4000) := by
  obtain ⟨i, hi, hbase⟩ := mem_pamBases.mp h.base_mem
  refine ⟨by omega, by omega, h.le, h.lt, ?_⟩
  unfold pamAreaLen
  split <;> omega

theorem range : 0xC0000 ≤ a ∧ a < 0x100000 := by
  have := h.bounds
  omega

theorem top_le : base + pamAreaLen base ≤ 0x100000 := by
  have := h.bounds
  omega

theorem shadowArea_eq : shadowArea a = shadowArea base := by
  have := h.bounds
  unfold shadowArea
  omega

theorem romImageOffset_eq : romImageOffset a = romImageOffset base + (a - base) := by
  have := h.bounds
  unfold romImageOffset
  rw [biosMapLast128k_eq, biosMapLast128k_eq, exRomSize]
  split_ifs <;> omega

end InPamArea

/-- Every address of the ROM area is in a PAM area. -/
theorem exists_inPamArea (hlow : 0xC0000 ≤ a) (hhigh : a < 0x100000) :
    ∃ base, InPamArea base a := by
  by_cases hlast : 0xF0000 ≤ a
  · exact ⟨0xF0000, mem_pamBases.mpr ⟨12, by decide, rfl⟩, hlast, by
      rw [pamAreaLen]; exact hhigh⟩
  · refine ⟨0xC0000 + (a - 0xC0000) / 0x4000 * 0x4000,
      mem_pamBases.mpr ⟨(a - 0xC0000) / 0x4000, by omega, rfl⟩, by omega, ?_⟩
    rw [pamAreaLen, if_neg (by omega)]
    omega

end Pam

/-! ### What all candidates have in common -/

theorem ramAboveTheHole_eq_some :
    ramAboveTheHole m.guestLen = some c ↔
      pciHoleStart < m.guestLen ∧
        c = ⟨pciHoleEnd, pciHoleEnd + (m.guestLen - pciHoleStart), 2 ^ 64 - pciHoleSize, .rwx⟩ := by
  unfold ramAboveTheHole
  split
  · simp; omega
  next h => simp [Nat.lt_of_not_le h, eq_comm]

theorem hostOf_aboveHole (h : ramAboveTheHole m.guestLen = some c) {x : Nat} (hx : pciHoleEnd ≤ x)
    (htop : x < 2 ^ 64) : c.hostOf x = x - pciHoleSize := by
  obtain ⟨-, rfl⟩ := ramAboveTheHole_eq_some.mp h
  show (x + (2 ^ 64 - pciHoleSize)) % 2 ^ 64 = _
  unfold pciHoleEnd at hx
  unfold pciHoleSize
  omega

theorem IsCandidate.affine (hres : m.guestLen ≤ m.residentLen)
    (h : m.IsCandidate c) : c.top ≤ 3 * 2 ^ 62 ∧ c.Affine := by
  have hlt := m.residentLen_lt
  cases h with
  | lowRam => exact affine_ramBetween ((min_le_left _ _).trans hres)
  | @pam base _ hbase hc =>
    have harea : InPamArea base base := ⟨hbase, le_refl _, by unfold pamAreaLen; split <;> omega⟩
    have htop := harea.top_le
    rw [pamCandidate_eq_some] at hc
    split at hc
    · obtain ⟨-, rfl⟩ := hc
      refine ⟨by dsimp only; omega, fun x k hx hk => ?_⟩
      have hk : x + k < base + pamAreaLen base := hk
      show (x + k + 0) % 2 ^ 64 = (x + 0) % 2 ^ 64 + k
      omega
    · subst hc
      exact ⟨by show base + pamAreaLen base ≤ _; omega,
        affine_romCandidate (romImageOffset_le _) (by omega)⟩
  | highRam _ => exact affine_ramBetween ((min_le_left _ _).trans hres)
  | aboveHole hc =>
    have htop : c.top ≤ 2 ^ 63 + 2 ^ 32 := by
      obtain ⟨-, rfl⟩ := ramAboveTheHole_eq_some.mp hc
      show pciHoleEnd + (m.guestLen - pciHoleStart) ≤ _
      unfold pciHoleEnd pciHoleStart
      omega
    refine ⟨by omega, fun x k hx hk => ?_⟩
    have hgpa : pciHoleEnd ≤ x := by
      obtain ⟨-, rfl⟩ := ramAboveTheHole_eq_some.mp hc
      exact hx
    rw [hostOf_aboveHole hc (by omega) (by omega), hostOf_aboveHole hc hgpa (by omega)]
    unfold pciHoleEnd at hgpa
    unfold pciHoleSize
    omega
  | bios =>
    exact ⟨by show 2 ^ 32 ≤ _; omega,
      affine_romCandidate (by rw [biosMapLast128k_eq]; omega) (le_refl _)⟩

theorem affine_of_mem (hcs : m.planCandidates = .ok cs) (hc : c ∈ cs) :
    c.top ≤ 3 * 2 ^ 62 ∧ c.Affine :=
  ((mem_planCandidates hcs).mp hc).1.affine (resident_of_planCandidates hcs)

/-- What is not cut out is in no registered region, and in SMRAM only while that is open. -/
theorem of_not_carved (ha : a < 3 * 2 ^ 62) (hcut : ¬ Carved m.carveOuts a) :
    m.board.mmio.covers a = false ∧ (inSmramWindow a = true → m.smramIsOpen = true) := by
  constructor
  · by_contra h
    exact hcut (carveOuts_spec.2 a ha (.inr (by simpa using h)))
  · intro hwindow
    by_contra h
    exact hcut (carveOuts_spec.2 a ha (.inl ⟨by simpa using h, hwindow⟩))

/-! ## The derived windows -/

/-- What `derive` went through when it gave a plan. -/
theorem derive_eq_ok (h : m.derive = .ok ws) :
    ∃ cs, m.planCandidates = .ok cs ∧ GpaPlan.new ws = .ok () ∧
      ws = mergeAdjacent (cs.flatMap (split m.carveOuts)) := by
  obtain ⟨cs, hcs, h⟩ := Lib.bind_eq_ok.mp h
  obtain ⟨_, _, h⟩ := Lib.bind_eq_ok.mp h
  obtain ⟨_, hnew, h⟩ := Lib.bind_eq_ok.mp h
  cases h
  refine ⟨cs, hcs, ?_, rfl⟩
  unfold Except.mapError at hnew
  split at hnew
  · cases hnew
  next hok => exact hok

section Derived

variable {ws : List GpaWindow} {cs : List Candidate} {a : Nat}

/-- The pieces of all candidates cover an address as often as the candidates do, unless it
is cut out. -/
theorem countP_pieces (haffine : ∀ c ∈ cs, c.top ≤ 3 * 2 ^ 62)
    (ha : ¬ Carved m.carveOuts a) :
    (cs.flatMap (split m.carveOuts)).countP (·.covers a) = cs.countP (·.covers a) := by
  induction cs with
  | nil => rfl
  | cons c cs ih =>
    rw [flatMap_cons, countP_append, ih fun c' hc' => haffine c' (.tail _ hc'),
      countP_split carveOuts_spec.1 (haffine c (.head _)), countP_cons]
    simp only [ha, not_false_eq_true, and_true]
    omega

/-- No two candidates cover an address that a plan serves. -/
theorem candidate_unique (hcs : m.planCandidates = .ok cs)
    (hnew : GpaPlan.new (mergeAdjacent (cs.flatMap (split m.carveOuts))) = .ok ())
    (ha : ¬ Carved m.carveOuts a) {c c' : Candidate} (hc : c ∈ cs) (hc' : c' ∈ cs)
    (hcover : c.covers a = true) (hcover' : c'.covers a = true) : c = c' := by
  have hcount := GpaPlan.countP_covers_le_one a (GpaPlan.new_eq_ok hnew).2
  rw [countP_mergeAdjacent, countP_pieces (fun c hc => (affine_of_mem hcs hc).1) ha,
    countP_eq_length_filter] at hcount
  have hmem : c ∈ cs.filter (·.covers a) := mem_filter.mpr ⟨hc, hcover⟩
  have hmem' : c' ∈ cs.filter (·.covers a) := mem_filter.mpr ⟨hc', hcover'⟩
  obtain ⟨d, hd⟩ := length_eq_one_iff.mp (hcount.antisymm (length_pos_of_mem hmem))
  rw [hd] at hmem hmem'
  exact (mem_singleton.mp hmem).trans (mem_singleton.mp hmem').symm

/-- A candidate is behind each address of the window: it lies where the candidate says, with
the candidate's permissions, and it is not cut out. -/
def Serves (m : HostMemory) (cs : List Candidate) (w : GpaWindow) : Prop :=
  ∀ a, w.covers a = true → ∃ c ∈ cs, c.covers a = true ∧ ¬ Carved m.carveOuts a ∧
    w.named a = c.hostOf a ∧ w.perms = c.perms

theorem Serves.piece {c : Candidate} {w : GpaWindow} (hc : c ∈ cs) (htop : c.top ≤ 3 * 2 ^ 62)
    (haffine : c.Affine) (hw : w ∈ split m.carveOuts c) : m.Serves cs w := by
  intro a ha
  have hcount : 0 < (split m.carveOuts c).countP (·.covers a) := List.countP_pos_iff.mpr ⟨w, hw, ha⟩
  rw [countP_split carveOuts_spec.1 htop] at hcount
  split at hcount
  next h =>
    refine ⟨c, hc, h.1, h.2, ?_, ?_⟩
    · obtain ⟨gpa, top, rfl, hgpa, hlt, hle⟩ := mem_splitFrom (le_refl _) hw
      rw [covers_windowOf] at ha
      have := haffine gpa (a - gpa) hgpa (by omega)
      rw [Nat.add_sub_cancel' ha.1] at this
      exact this.symm
    · obtain ⟨gpa, top, rfl, -⟩ := mem_splitFrom (le_refl _) hw
      rfl
  · cases hcount

theorem Serves.join {previous w : GpaWindow} (hjoin : joins previous w = true)
    (h : m.Serves cs previous) (h' : m.Serves cs w) :
    m.Serves cs { previous with len := previous.len + w.len } := by
  simp only [joins, decide_eq_true_eq] at hjoin
  obtain ⟨-, hgpa, -, hhost, hperms⟩ := hjoin
  intro a ha
  rw [GpaWindow.covers_iff] at ha
  dsimp only at ha
  by_cases hfirst : a < previous.gpa + previous.len
  · exact h a (GpaWindow.covers_iff.mpr ⟨ha.1, hfirst⟩)
  · obtain ⟨c, hc, hcover, hcut, hnamed, hp⟩ := h' a (GpaWindow.covers_iff.mpr (by omega))
    refine ⟨c, hc, hcover, hcut, ?_, hperms.trans hp⟩
    rw [← hnamed]
    show previous.host + (a - previous.gpa) = w.host + (a - w.gpa)
    omega

theorem serves_mergeAdjacent (hcs : m.planCandidates = .ok cs) :
    ∀ w ∈ mergeAdjacent (cs.flatMap (split m.carveOuts)), m.Serves cs w := by
  refine forall_mergeAdjacent (fun _ _ hjoin h h' => h.join hjoin h') fun w hw => ?_
  obtain ⟨c, hc, hw⟩ := List.mem_flatMap.mp hw
  obtain ⟨htop, haffine⟩ := affine_of_mem hcs hc
  exact .piece hc htop haffine hw

end Derived

/-! ## The router, byte by byte -/

section Routed

variable {a : Nat} {p : CpuMemoryPolicy} {legacy : Nat → Cell} {outside : Nat → List Cell}

theorem a20Addr_eq (addr : BitVec 64) : m.board.a20Addr addr = addr := by
  unfold a20Addr Machine.applyA20 Machine.a20Mask
  rw [if_pos m.a20_open]
  exact BitVec.and_allOnes

theorem lookup_eq_none (h : m.board.mmio.covers a = false) : m.board.mmio.lookup a = none := by
  simpa [MmioMap.covers, MmioMap.lookup] using h

theorem toNat_address (ha : a < 2 ^ 64) : (BitVec.ofNat 64 a).toNat = a := by
  rw [BitVec.toNat_ofNat, mod_eq_of_lt ha]

variable (hmmio : m.board.mmio.covers a = false)

include hmmio in
/-- The single byte of an access outside the registered regions. -/
theorem physicalPage_byte (ha : a < 2 ^ 64) :
    m.board.physicalPage p (BitVec.ofNat 64 a) 1 legacy outside =
      .cells (if m.board.smramHit p a then m.board.stubCells (BitVec.ofNat 64 a) 1
        else if (guestRamSpan (BitVec.ofNat 64 a) 1 m.guestLen).isSome then
          if 0xA0000 ≤ a ∧ a < 0x100000 then [legacy a]
          else m.board.stubCells (BitVec.ofNat 64 a) 1
        else outside a) := by
  have htoNat := toNat_address ha
  unfold physicalPage
  dsimp only
  rw [m.a20Addr_eq, htoNat, if_neg (by omega), lookup_eq_none hmmio]
  dsimp only
  split
  · rfl
  · unfold guestLen
    split
    · split
      · simp
      · rfl
    · rfl

theorem smramHit_of_open (hp : p.cpuContext = true) (hopen : m.smramIsOpen = true)
    (hwindow : inSmramWindow a = true) : m.board.smramHit p a = true := by
  simp only [smramIsOpen, Bool.and_eq_true] at hopen
  simp [smramHit, hp, hwindow, hopen]

theorem smramHit_of_outside (hwindow : inSmramWindow a = false) : m.board.smramHit p a = false := by
  simp [smramHit, hwindow]

include hmmio

/-- A byte of RAM outside the ROM area, or under SMRAM, is reached as such. -/
theorem physicalPage_ram {off : Nat}
    (hspan : guestRamSpan (BitVec.ofNat 64 a) 1 m.guestLen = some off) (ha : a < 2 ^ 64)
    (hp : p.cpuContext = true)
    (harea : (a < 0xA0000 ∨ 0x100000 ≤ a) ∨ m.smramIsOpen = true ∧ inSmramWindow a = true) :
    m.board.physicalPage p (BitVec.ofNat 64 a) 1 legacy outside = .cells [.ram off] := by
  have hstub : m.board.stubCells (BitVec.ofNat 64 a) 1 = [.ram off] :=
    stubCells_of_span one_pos hspan
  rw [physicalPage_byte hmmio ha, hstub, hspan]
  rcases harea with hplain | ⟨hopen, hwindow⟩
  · rw [smramHit_of_outside (by simp [inSmramWindow]; omega), if_neg (by simp),
      if_pos Option.isSome_some, if_neg (by omega)]
  · rw [smramHit_of_open hp hopen hwindow, if_pos rfl]

/-- A byte of RAM in the ROM area. -/
theorem physicalPage_legacy (hlow : 0xC0000 ≤ a) (hhigh : a < 0x100000) (hram : a < m.guestLen) :
    m.board.physicalPage p (BitVec.ofNat 64 a) 1 legacy outside = .cells [legacy a] := by
  have htoNat := toNat_address (show a < 2 ^ 64 by omega)
  have hspan : (guestRamSpan (BitVec.ofNat 64 a) 1 m.board.guestLen).isSome = true :=
    (guestRamSpan_legacy (by omega)).mpr (by rw [htoNat]; exact hram)
  rw [physicalPage_byte hmmio (by omega), smramHit_of_outside (by simp [inSmramWindow]; omega),
    if_neg (by simp)]
  unfold guestLen
  rw [if_pos hspan, if_pos (by omega)]

/-- A byte that is not RAM. -/
theorem physicalPage_outside (ha : a < 2 ^ 64) (hram : ¬ m.InRam a)
    (hwindow : inSmramWindow a = false) :
    m.board.physicalPage p (BitVec.ofNat 64 a) 1 legacy outside = .cells (outside a) := by
  rw [physicalPage_byte hmmio ha, smramHit_of_outside hwindow]
  exact congrArg Route.cells (if_neg hram)

/-- SMRAM without RAM under it answers like an empty bus. -/
theorem physicalPage_smram (hram : ¬ m.InRam a) (hp : p.cpuContext = true)
    (hopen : m.smramIsOpen = true) (hwindow : inSmramWindow a = true) :
    m.board.physicalPage p (BitVec.ofNat 64 a) 1 legacy outside = .cells [.blank 0xFF#8] := by
  have hrange : 0xA0000 ≤ a ∧ a < 0xC0000 := by simpa [inSmramWindow] using hwindow
  have hnone : guestRamSpan (BitVec.ofNat 64 a) 1 m.board.guestLen = none := by
    simpa [InRam, guestLen] using hram
  rw [physicalPage_byte hmmio (by omega), smramHit_of_open hp hopen hwindow]
  unfold stubCells
  rw [hnone]
  simp

end Routed

/-! ## Candidate by candidate -/

/-- A byte that is known to be routed somewhere is named right exactly if that is where. -/
theorem readsByte_iff {c c' : Cell} (h : m.ReadsByte a c') : m.ReadsByte a c ↔ c = c' := by
  constructor
  · intro hc
    have hp := (hc (.outsideSmm false) rfl).symm.trans (h (.outsideSmm false) rfl)
    simpa using hp
  · rintro rfl
    exact h

/-- What a candidate offers at an address is the router's byte exactly where the address is
named right; it is then in the allocation. What it offers for writing is always the
router's. -/
structure Places (m : HostMemory) (c : Candidate) (a : Nat) : Prop where
  reads_iff : m.ReadsByte a (m.hostCell (c.hostOf a)) ↔ m.NamedRight a
  writes : c.perms.write = true → m.WritesByte a (m.hostCell (c.hostOf a))
  allocated : m.NamedRight a → c.hostOf a < m.allocLen

section Places

variable {a : Nat} {c : Candidate}

theorem hostCell_rom (offset : Nat) : m.hostCell (m.residentLen + offset) = .rom offset := by
  unfold hostCell
  rw [if_neg (by omega), Nat.add_sub_cancel_left]

section NotBios

variable (hmmio : m.board.mmio.covers a = false)
  (hbios : ¬ (m.board.biosRomAddr ≤ a ∧ a < 2 ^ 32))
include hmmio hbios

/-- Plain RAM. -/
theorem places_ram {off : Nat} (hres : m.guestLen ≤ m.residentLen) (ha : a < 2 ^ 64 - 1)
    (hside : pciHoleEnd ≤ a ∨ a < pciHoleStart) (hoff : off = translateGpaToLinear a)
    (hram : off < m.guestLen) (hhost : c.hostOf a = off)
    (harea : (a < 0xA0000 ∨ 0x100000 ≤ a) ∨ m.smramIsOpen = true ∧ inSmramWindow a = true) :
    m.Places c a := by
  have hspan : guestRamSpan (BitVec.ofNat 64 a) 1 m.guestLen = some off := by
    rw [Machine.guestRamSpan_eq_some, toNat_address (by omega)]
    exact ⟨by omega, by omega, by omega, hoff⟩
  have hcell : m.hostCell (c.hostOf a) = .ram off := by
    rw [hhost]
    exact if_pos (by omega)
  have hright : m.NamedRight a := by
    have hout : ¬ (0xC0000 ≤ a ∧ a < 0x100000) := by
      rcases harea with h | ⟨_, h⟩
      · omega
      · simp [inSmramWindow] at h
        omega
    unfold NamedRight
    rw [if_neg hbios, if_neg fun h => hout ⟨h.1, h.2.1⟩]
    trivial
  refine ⟨iff_of_true (fun p hp => ?_) hright, fun _ p hp => ?_, fun _ => ?_⟩
  · rw [hcell]
    exact physicalPage_ram hmmio hspan (by omega) hp harea
  · rw [hcell]
    exact physicalPage_ram hmmio hspan (by omega) hp harea
  · rw [hhost]
    exact lt_of_lt_of_le (lt_of_lt_of_le hram hres) (le_add_right _ _)

/-- Shadow RAM. -/
theorem places_shadow {base : Nat} (hres : m.guestLen ≤ m.residentLen) (harea : InPamArea base a)
    (hshadow : m.Shadowed base) (hram : base + pamAreaLen base ≤ m.guestLen) :
    m.Places ⟨base, base + pamAreaLen base, 0,
      if m.board.memoryType (shadowArea base) true then .rwx else .rx⟩ a := by
  obtain ⟨hlow, hhigh⟩ := harea.range
  have hlt := harea.lt
  have hhost : hostOf ⟨base, base + pamAreaLen base, 0,
      if m.board.memoryType (shadowArea base) true then .rwx else .rx⟩ a = a :=
    mod_eq_of_lt (by show a + 0 < 2 ^ 64; omega)
  have hlinear : translateGpaToLinear a = a := if_neg (by unfold pciHoleEnd; omega)
  have hright : m.NamedRight a := by
    unfold NamedRight
    rw [if_neg hbios, harea.shadowArea_eq, if_neg fun h => h.2.2 hshadow]
    trivial
  have hcell : m.hostCell a = .ram a := if_pos (by omega)
  refine ⟨iff_of_true (fun p hp => ?_) hright, fun hwrite p hp => ?_, fun _ => ?_⟩
  · rw [hhost, hcell]
    refine (physicalPage_legacy hmmio hlow hhigh (by omega)).trans ?_
    unfold legacyReadCell
    rw [if_neg (by omega), if_pos hshadow.1, harea.shadowArea_eq, if_pos hshadow.2, hlinear]
  · have hwrite : m.board.memoryType (shadowArea base) true = true := by
      by_contra hno
      rw [if_neg hno] at hwrite
      cases hwrite
    rw [hhost, hcell]
    refine (physicalPage_legacy hmmio hlow hhigh (by omega)).trans ?_
    unfold legacyWriteCell
    rw [if_neg (by omega), if_pos hshadow.1, harea.shadowArea_eq, if_pos hwrite, hlinear]
  · unfold allocLen
    omega

omit hmmio hbios in
theorem romCell_eq_romImageOffset (a : Nat) : romCell a = .rom (romImageOffset a) := by
  unfold romCell romImageOffset
  split <;> rfl

/-- The ROM image under a PAM area. -/
theorem places_pamRom {base : Nat} (harea : InPamArea base a) (hrom : ¬ m.Shadowed base) :
    m.Places (m.romCandidate base (base + pamAreaLen base) (romImageOffset base)) a := by
  obtain ⟨hlow, hhigh⟩ := harea.range
  have hoffset := romImageOffset_le a
  have hhost : (m.romCandidate base (base + pamAreaLen base) (romImageOffset base)).hostOf a =
      m.residentLen + romImageOffset a := by
    rw [hostOf_romCandidate (romImageOffset_le base) harea.le (by omega), harea.romImageOffset_eq]
    omega
  have hright : m.NamedRight a ↔
      if a < m.guestLen then m.board.pciEnabled = true else 0xE0000 ≤ a := by
    unfold NamedRight
    rw [if_neg hbios, harea.shadowArea_eq, if_pos ⟨hlow, hhigh, hrom⟩]
  refine ⟨?_, (by cases ·), fun _ => ?_⟩
  · rw [hhost, hostCell_rom, hright]
    split
    next hram =>
      have hroute : m.ReadsByte a (m.board.legacyReadCell a) := fun p _ =>
        physicalPage_legacy hmmio hlow hhigh hram
      rw [readsByte_iff hroute]
      unfold legacyReadCell
      rw [if_neg (by omega), harea.shadowArea_eq, romCell_eq_romImageOffset]
      by_cases hpci : m.board.pciEnabled = true
      · rw [if_pos hpci, if_neg fun h => hrom ⟨hpci, h⟩]
        exact iff_of_true rfl hpci
      · rw [if_neg hpci]
        exact iff_of_false (by simp) hpci
    next hram =>
      have hout : ¬ m.InRam a := by
        intro h
        have htoNat := toNat_address (show a < 2 ^ 64 by omega)
        have := (guestRamSpan_legacy (b := m.board) (by omega)).mp h
        unfold guestLen at hram
        omega
      have hroute : m.ReadsByte a
          (if m.board.isBios a then .rom (biosMapLast128k a) else .blank 0xFF#8) := by
        intro p _
        refine (physicalPage_outside hmmio (by omega) hout (by simp [inSmramWindow]; omega)).trans ?_
        split <;> rfl
      rw [readsByte_iff hroute]
      by_cases hbig : 0xE0000 ≤ a
      · rw [if_pos (by simp [isBios]; omega), romImageOffset, if_pos (by omega)]
        exact iff_of_true rfl hbig
      · rw [if_neg (by simp [isBios]; omega)]
        exact iff_of_false (by simp) hbig
  · unfold allocLen auxLen biosRomSize exRomSize
    omega

end NotBios

/-- The BIOS window. RAM can lie under it only where the ROM area shows RAM. -/
theorem places_bios (hmmio : m.board.mmio.covers a = false)
    (hopen : inSmramWindow a = true → m.smramIsOpen = true) (hle : m.board.biosRomAddr ≤ a)
    (hlt : a < 2 ^ 32)
    (hram : m.InRam a → (0xC0000 ≤ a ∧ a < 0x100000 ∧ a < m.guestLen) ∧ m.Shadowed a) :
    m.Places m.biosCandidate a := by
  have hbase := biosMapLast128k_eq m.board.biosRomAddr
  have hhost : m.biosCandidate.hostOf a =
      m.residentLen + (biosMapLast128k m.board.biosRomAddr + (a - m.board.biosRomAddr)) := by
    unfold biosCandidate
    rw [hostOf_romCandidate (by omega) hle (by omega)]
    omega
  have hright : m.NamedRight a ↔ a / 2 ^ 20 = m.board.biosRomAddr / 2 ^ 20 ∧
      inSmramWindow a = false ∧ ¬ m.InRam a := by
    unfold NamedRight
    rw [if_pos ⟨hle, hlt⟩]
  refine ⟨?_, nofun, fun h => ?_⟩
  · rw [hhost, hostCell_rom, hright]
    by_cases hin : m.InRam a
    · obtain ⟨⟨hlow, hhigh, hguest⟩, hpci, hshadow⟩ := hram hin
      have hroute : m.ReadsByte a (.ram (translateGpaToLinear a)) := by
        intro p _
        refine (physicalPage_legacy hmmio hlow hhigh hguest).trans ?_
        unfold legacyReadCell
        rw [if_neg (by omega), if_pos hpci, if_pos hshadow]
      rw [readsByte_iff hroute]
      exact iff_of_false nofun fun h => h.2.2 hin
    · cases hwindow : inSmramWindow a with
      | true =>
        have hroute : m.ReadsByte a (.blank 0xFF#8) := fun p hp =>
          physicalPage_smram hmmio hin hp (hopen hwindow) hwindow
        rw [readsByte_iff hroute]
        exact iff_of_false nofun fun h => nomatch h.2.1
      | false =>
        have hroute : m.ReadsByte a (.rom (biosMapLast128k a)) := by
          intro p _
          refine (physicalPage_outside hmmio (by omega) hin hwindow).trans ?_
          rw [if_pos (by simp [isBios]; omega)]
          rfl
        rw [readsByte_iff hroute, Cell.rom.injEq, biosMapLast128k_eq a]
        simp only [hin, not_false_eq_true, and_true]
        omega
  · obtain ⟨hmegabyte, -, -⟩ := hright.mp h
    unfold allocLen auxLen biosRomSize exRomSize
    omega

end Places

/-- A byte of RAM below 4 GiB. -/
theorem lt_of_inRam (ha : a < 2 ^ 32) (h : m.InRam a) : a < pciHoleStart ∧ a < m.guestLen := by
  obtain ⟨off, hspan⟩ := Option.isSome_iff_exists.mp h
  have htoNat := toNat_address (show a < 2 ^ 64 by omega)
  rw [Machine.guestRamSpan_eq_some, htoNat] at hspan
  have hlinear : translateGpaToLinear a = a := if_neg (by unfold pciHoleEnd; omega)
  have hend : pciHoleEnd = 0x100000000 := rfl
  omega

/-- The ROM image of an area that shows no RAM is a candidate. -/
theorem exists_romCandidate (hlow : 0xC0000 ≤ a) (hhigh : a < 0x100000) (hrom : ¬ m.Shadowed a) :
    ∃ c, m.IsCandidate c ∧ c.covers a = true ∧ c.top ≤ 0x100000 := by
  obtain ⟨base, harea⟩ := exists_inPamArea hlow hhigh
  refine ⟨m.romCandidate base (base + pamAreaLen base) (romImageOffset base),
    .pam harea.base_mem (pamCandidate_eq_some.mpr ?_),
    covers_iff.mpr ⟨harea.le, harea.lt⟩, harea.top_le⟩
  rw [Shadowed, harea.shadowArea_eq] at hrom
  rw [if_neg hrom]

/-- Plain RAM and unshadowed ROM below 4 GiB are in a candidate that is not the BIOS
window. -/
theorem exists_covering (hopen : inSmramWindow a = true → m.smramIsOpen = true)
    (ha : a < pciHoleStart) (hguest : a < m.guestLen)
    (hshadow : ¬ ((0xC0000 ≤ a ∧ a < 0x100000) ∧ m.Shadowed a)) :
    ∃ c, m.IsCandidate c ∧ c.covers a = true ∧ c.top ≤ pciHoleStart := by
  have hstart : pciHoleStart = 0xC0000000 := rfl
  by_cases hlow : a < 0xC0000
  · refine ⟨m.lowRam, .lowRam, covers_iff.mpr ⟨zero_le _, ?_⟩, ?_⟩
    · show a < min m.guestLen (if m.smramIsOpen = true then 0xC0000 else 0xA0000)
      by_cases hvideo : a < 0xA0000
      · split <;> omega
      · rw [if_pos (hopen (by simp [inSmramWindow]; omega))]
        omega
    · show min m.guestLen (if m.smramIsOpen = true then 0xC0000 else 0xA0000) ≤ _
      split <;> omega
  · by_cases hhigh : a < 0x100000
    · obtain ⟨c, hc, hcovers, htop⟩ := exists_romCandidate (Nat.le_of_not_lt hlow) hhigh
        fun h => hshadow ⟨by omega, h⟩
      exact ⟨c, hc, hcovers, by omega⟩
    · refine ⟨m.highRam, .highRam (by omega), covers_iff.mpr ⟨?_, ?_⟩, ?_⟩
      · exact Nat.le_of_not_lt hhigh
      · show a < min m.guestLen pciHoleStart
        omega
      · show min m.guestLen pciHoleStart ≤ _
        omega

/-- What a candidate of a derived plan offers at an address that is not cut out. -/
theorem places_of_mem (hcs : m.planCandidates = .ok cs)
    (huniq : ∀ c ∈ cs, ∀ c' ∈ cs, c.covers a = true → c'.covers a = true → c = c')
    (hcut : ¬ Carved m.carveOuts a) (hc : c ∈ cs)
    (hcover : c.covers a = true) : m.Places c a := by
  have hres := resident_of_planCandidates hcs
  obtain ⟨hkind, hnonempty⟩ := (mem_planCandidates hcs).mp hc
  have htop := (hkind.affine hres).1
  obtain ⟨hgpa, hlt⟩ := covers_iff.mp hcover
  obtain ⟨hmmio, hopen⟩ := of_not_carved (by omega) hcut
  have hbiosMem : m.biosCandidate ∈ cs := (mem_planCandidates hcs).mpr ⟨.bios, m.bios_lt⟩
  -- Any other candidate that covers the address keeps the BIOS window away from it.
  have hbios : c.top ≠ 2 ^ 32 → ¬ (m.board.biosRomAddr ≤ a ∧ a < 2 ^ 32) := by
    rintro hne ⟨hle, hlt'⟩
    have := huniq c hc _ hbiosMem hcover (covers_iff.mpr ⟨hle, hlt'⟩)
    exact hne (congrArg top this)
  have hstart : pciHoleStart = 0xC0000000 := rfl
  have hend : pciHoleEnd = 0x100000000 := rfl
  cases hkind with
  | lowRam =>
    have hlt : a < min m.guestLen (if m.smramIsOpen = true then 0xC0000 else 0xA0000) := hlt
    have hne : m.lowRam.top ≠ 2 ^ 32 := by
      show min m.guestLen (if m.smramIsOpen = true then 0xC0000 else 0xA0000) ≠ _
      split <;> omega
    refine places_ram hmmio (hbios hne) hres (by omega) (.inr ?_) (if_neg ?_).symm (by omega)
      (hostOf_ramBetween (by omega)) ?_
    · split at hlt <;> omega
    · split at hlt <;> omega
    · by_cases hvideo : a < 0xA0000
      · exact .inl (.inl hvideo)
      · split at hlt
        next hisopen => exact .inr ⟨hisopen, by simp [inSmramWindow]; omega⟩
        · omega
  | @pam base _ hbase hpam =>
    rw [pamCandidate_eq_some] at hpam
    split at hpam
    next hshadow =>
      obtain ⟨hram, rfl⟩ := hpam
      have harea : InPamArea base a := ⟨hbase, hgpa, hlt⟩
      have := harea.top_le
      exact places_shadow hmmio (hbios (by dsimp only; omega)) hres harea hshadow hram
    next hrom =>
      subst hpam
      have harea : InPamArea base a := ⟨hbase, hgpa, hlt⟩
      have := harea.top_le
      exact places_pamRom hmmio (hbios (by show base + pamAreaLen base ≠ _; omega)) harea hrom
  | highRam _ =>
    have hlow : 0x100000 ≤ a := hgpa
    have hlt : a < min m.guestLen pciHoleStart := hlt
    have hne : m.highRam.top ≠ 2 ^ 32 := by
      show min m.guestLen pciHoleStart ≠ _
      omega
    exact places_ram hmmio (hbios hne) hres (by omega) (.inr (by omega))
      (if_neg (by omega)).symm (by omega) (hostOf_ramBetween (by omega)) (.inl (.inr hlow))
  | aboveHole habove =>
    have hhost : pciHoleEnd ≤ a → a < 2 ^ 64 → c.hostOf a = a - pciHoleSize :=
      hostOf_aboveHole habove
    obtain ⟨hmore, rfl⟩ := ramAboveTheHole_eq_some.mp habove
    have hlow : pciHoleEnd ≤ a := hgpa
    have hlt : a < pciHoleEnd + (m.guestLen - pciHoleStart) := hlt
    have hsize : pciHoleSize = 0x40000000 := rfl
    exact places_ram hmmio (by omega) hres (by omega) (.inl hlow) (if_pos hlow).symm (by omega)
      (hhost hlow (by omega)) (.inl (.inr (by omega)))
  | bios =>
    refine places_bios hmmio hopen hgpa hlt fun hin => ?_
    obtain ⟨hhole, hguest⟩ := lt_of_inRam hlt hin
    by_contra hshadow
    obtain ⟨c, hkind, hcovers, htop⟩ := exists_covering hopen hhole hguest
      fun h => hshadow ⟨⟨h.1.1, h.1.2, hguest⟩, h.2⟩
    have hrange := covers_iff.mp hcovers
    have hmem := (mem_planCandidates hcs).mpr ⟨hkind, by omega⟩
    have htop' := congrArg top (huniq c hmem _ hbiosMem hcovers hcover)
    have hbiosTop : m.biosCandidate.top = 2 ^ 32 := rfl
    omega

/-! ## The plan -/

/-- Every address of a derived window is in no carve-out, and a candidate places the byte its
window names. -/
theorem derive_places (h : m.derive = .ok ws) {w : GpaWindow} (hw : w ∈ ws)
    (ha : w.covers a = true) :
    ∃ c, m.Places c a ∧ w.named a = c.hostOf a ∧ w.perms = c.perms ∧
      ¬ Carved m.carveOuts a ∧ m.board.mmio.covers a = false := by
  obtain ⟨cs, hcs, hnew, rfl⟩ := derive_eq_ok h
  obtain ⟨c, hc, hcover, hcut, hnamed, hperms⟩ := serves_mergeAdjacent hcs w hw a ha
  refine ⟨c, places_of_mem hcs ?_ hcut hc hcover, hnamed, hperms, hcut, ?_⟩
  · intro c hc c' hc' hcover hcover'
    exact candidate_unique hcs hnew hcut hc hc' hcover hcover'
  · have htop := (affine_of_mem hcs hc).1
    have hlt := (covers_iff.mp hcover).2
    exact (of_not_carved (by omega) hcut).1

/-- What a candidate covers is in a window, unless it is cut out. -/
theorem exists_window (h : m.derive = .ok ws) (hc : m.IsCandidate c) (hcover : c.covers a = true)
    (hcut : ¬ Carved m.carveOuts a) : ∃ w ∈ ws, w.covers a = true := by
  obtain ⟨cs, hcs, -, rfl⟩ := derive_eq_ok h
  have hrange := covers_iff.mp hcover
  have hmem : c ∈ cs := (mem_planCandidates hcs).mpr ⟨hc, by omega⟩
  rw [← List.countP_pos_iff, countP_mergeAdjacent,
    countP_pieces (fun c hc => (affine_of_mem hcs hc).1) hcut]
  exact List.countP_pos_iff.mpr ⟨c, hmem, hcover⟩

/-- An address that could be named wrong is in the BIOS window or in the ROM area. -/
theorem exists_candidate (hwrong : ¬ m.NamedRight a) :
    ∃ c, m.IsCandidate c ∧ c.covers a = true := by
  unfold NamedRight at hwrong
  split at hwrong
  next hbios => exact ⟨m.biosCandidate, .bios, covers_iff.mpr hbios⟩
  · split at hwrong
    next hrom =>
      obtain ⟨c, hc, hcovers, -⟩ := exists_romCandidate hrom.1 hrom.2.1 hrom.2.2
      exact ⟨c, hc, hcovers⟩
    · exact absurd trivial hwrong

theorem SoundWindow.of_right (h : m.derive = .ok ws) {w : GpaWindow} (hw : w ∈ ws)
    (hshape : w.isPageShaped = true)
    (hright : ∀ a, w.covers a = true → m.NamedRight a) : m.SoundWindow w := by
  have hshape : w.len ≠ 0 ∧ w.gpa % guestPage = 0 ∧ w.len % guestPage = 0 ∧
      w.host % guestPage = 0 := by
    simpa [GpaWindow.isPageShaped] using hshape
  refine ⟨hshape.2, ?_, fun a ha => ?_, fun a ha => ?_, fun hwrite a ha => ?_⟩
  · -- The last byte of the window is in the allocation.
    have hlast : w.covers (w.gpa + (w.len - 1)) = true := GpaWindow.covers_iff.mpr (by omega)
    obtain ⟨c, hplaces, hnamed, -⟩ := derive_places h hw hlast
    have hbound := hplaces.allocated (hright _ hlast)
    rw [← hnamed, GpaWindow.named] at hbound
    omega
  · obtain ⟨c, -, -, -, -, hmmio⟩ := derive_places h hw ha
    exact hmmio
  · obtain ⟨c, hplaces, hnamed, -⟩ := derive_places h hw ha
    rw [hnamed]
    exact hplaces.reads_iff.mpr (hright a ha)
  · obtain ⟨c, hplaces, hnamed, hperms, -⟩ := derive_places h hw ha
    rw [hnamed]
    exact hplaces.writes (hperms ▸ hwrite)

/-- The plan of a machine is sound exactly if the carve-outs take what it would name wrongly:
in the ROM area with PCI off over RAM, under an option ROM outside RAM, and in a BIOS window
beyond the megabyte it starts in, or over RAM or SMRAM. -/
theorem plan_sound_iff (m : HostMemory) : m.DerivesSound ↔ m.DerivesRight := by
  constructor
  · rintro hsound ⟨ws, h⟩ a hcut
    by_contra hwrong
    obtain ⟨c, hc, hcover⟩ := exists_candidate hwrong
    obtain ⟨w, hw, ha⟩ := exists_window h hc hcover hcut
    obtain ⟨c, hplaces, hnamed, -⟩ := derive_places h hw ha
    have hreads := ((hsound ws h).window w hw).reads a ha
    rw [hnamed] at hreads
    exact hwrong (hplaces.reads_iff.mp hreads)
  · intro hright ws h
    obtain ⟨cs, -, hnew, -⟩ := derive_eq_ok h
    obtain ⟨hshapes, hapart⟩ := GpaPlan.new_eq_ok hnew
    refine ⟨fun w hw => .of_right h hw (hshapes w hw) fun a ha => ?_, hapart.imp ?_⟩
    · obtain ⟨c, -, -, -, hcut, -⟩ := derive_places h hw ha
      exact hright ⟨ws, h⟩ a hcut
    rintro w other hno a ⟨ha, ha'⟩
    rw [GpaWindow.overlaps_of_covers ha ha'] at hno
    cases hno

/-- Two megabytes of RAM, PCI on or off and nothing shadowed, with a BIOS at an address. -/
def twoMegabytes (pciEnabled : Bool) (biosRomAddr : Nat) (hbios : biosRomAddr < 2 ^ 32) :
    HostMemory where
  board := {
    host := Board.lowBiosBoard.host
    guestLen := 0x200000
    pciEnabled := pciEnabled
    biosRomAddr := biosRomAddr
    biosWriteEnabled := false
    memoryType := fun _ _ => false
    smramAvailable := false
    smramEnable := false
    smramRestricted := false
    mmio := ⟨fun _ => none⟩
    pciConf := fun _ => 0#8
    pamPending := false
    smramPending := false
    ram := fun _ => 0#8
    rom := fun _ => 0xFF#8 }
  residentLen := 0x200000
  identityMap := true
  resident := fun _ => le_refl _
  alloc_lt := by decide
  bios_lt := hbios
  a20_open := rfl

/-- The plan with a BIOS of two megabytes. -/
def wideBiosPlan : List GpaWindow :=
  [⟨0, 0xA0000, 0, .rwx⟩, ⟨0xC0000, 0x20000, 0x600000, .rx⟩, ⟨0xE0000, 0x20000, 0x5E0000, .rx⟩,
    ⟨0x100000, 0x100000, 0x100000, .rwx⟩, ⟨0xFFE00000, 0x200000, 0x500000, .rx⟩]

/-- The plan with a BIOS of 64 KiB and PCI off. -/
def pciOffPlan : List GpaWindow :=
  [⟨0, 0xA0000, 0, .rwx⟩, ⟨0xC0000, 0x20000, 0x600000, .rx⟩, ⟨0xE0000, 0x20000, 0x5E0000, .rx⟩,
    ⟨0x100000, 0x100000, 0x100000, .rwx⟩, ⟨0xFFFF0000, 0x10000, 0x5F0000, .rx⟩]

/-- The window of a BIOS of two megabytes runs past the end of the allocation; with PCI off
the window at `0xC0000` shows the option ROM, which the router does not read. -/
theorem wideBios_plan_unsound :
    ¬ (twoMegabytes true 0xFFE00000 (by decide)).DerivesSound ∧
      ¬ (twoMegabytes false 0xFFFF0000 (by decide)).DerivesSound := by
  constructor
  · intro hsound
    have hderive : (twoMegabytes true 0xFFE00000 (by decide)).derive = .ok wideBiosPlan := by
      decide +kernel
    have hwindow := (hsound _ hderive).window ⟨0xFFE00000, 0x200000, 0x500000, .rx⟩ (by decide)
    exact absurd hwindow.allocated (by decide)
  · intro hsound
    have hderive : (twoMegabytes false 0xFFFF0000 (by decide)).derive = .ok pciOffPlan := by
      decide +kernel
    have hwindow := (hsound _ hderive).window ⟨0xC0000, 0x20000, 0x600000, .rx⟩ (by decide)
    have hread := hwindow.reads 0xC0000 (by decide) (.outsideSmm false) rfl
    revert hread
    decide +kernel

end HostMemory

end RustyBox
