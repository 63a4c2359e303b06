-- SUMMARY: The page walks of implicit system accesses, and where they part from the data walks.
import RustyBox.Cpu.WalkSpec

/-!
# System walks

`translate_linear_system_write` and `translate_linear_system_read`, the walks behind
descriptor-table, TSS and stack-switch accesses, with nested paging off. They follow the
paging structures like the data walks and set the same accessed and dirty bits, but check
less on the way: `Cpu.EntriesLegal` lists the reserved-bit and page-size checks they leave
out, and the write walk does not look at R/W at all.
-/

namespace RustyBox

open Lib List Pte

variable {m : Machine}

/-! ## The walks -/

/-- A completed descent: the entries above the leaf with their addresses, root first, the
leaf, and the frame with the mask of the offset in it. -/
structure SystemPath where
  upper : List (BitVec 64 × BitVec 64)
  leafAddr : BitVec 64
  leaf : BitVec 64
  ppf : BitVec 64
  offsetMask : BitVec 64
  deriving DecidableEq

namespace SystemPath

variable (q : SystemPath)

/-- All entries, with their addresses. -/
def entries : List (BitVec 64 × BitVec 64) := q.upper ++ [(q.leafAddr, q.leaf)]

/-- The A/D updates of a write, in the order it makes them. -/
def updates : List (BitVec 64 × BitVec 64) :=
  (q.upper.filter fun e => ¬ accessed e.2).map (fun e => (e.1, e.2 ||| 0x20#64)) ++
    if q.leaf &&& 0x60#64 = 0x60#64 then [] else [(q.leafAddr, q.leaf ||| 0x60#64)]

def paddr (laddr : BitVec 64) : BitVec 64 := q.ppf ||| (laddr &&& q.offsetMask)

end SystemPath

variable (isWrite : Bool) (c : Control) (read : BitVec 64 → BitVec 64)

/-- The legacy walk; only the write walk checks the reserved bit of a 4 MB page. -/
def systemLegacyPath (read : BitVec 64 → BitVec 32)
    (laddr : BitVec 64) : Except (BitVec 32) SystemPath :=
  let pdeAddr := legacyPdeAddr c laddr
  let pde := read pdeAddr
  if ¬ present pde then .error errNotPresent
  else if ps pde ∧ c.pse then
    if isWrite ∧ pde &&& pde4mReserved ≠ 0#32 then .error (errReserved ||| errProtection)
    else .ok ⟨[], pdeAddr, pde.setWidth 64, pde.setWidth 64 &&& 0xFFC00000#64, 0x3FFFFF#64⟩
  else
    let pteAddr := legacyPteAddr pde laddr
    let pte := read pteAddr
    if ¬ present pte then .error errNotPresent
    else .ok ⟨[(pdeAddr, pde.setWidth 64)], pteAddr, pte.setWidth 64,
      pte.setWidth 64 &&& 0xFFFFF000#64, 0xFFF#64⟩

/-- `translate_linear_system_write_pae` and `translate_linear_system_read_pae`; only the
write walk checks the reserved bits of a 2 MB page. -/
def systemPaePath (laddr : BitVec 64) : Except (BitVec 32) SystemPath :=
  let pdpte := c.pdptrcache (laddr.extractLsb' 30 2).toFin
  if ¬ present pdpte then .error errNotPresent
  else
    let pdeAddr := frame pdpte + (((laddr >>> 21) &&& 0x1FF#64) <<< 3)
    let pde := read pdeAddr
    if ¬ present pde then .error errNotPresent
    else if ps pde then
      if isWrite ∧ pde &&& pde2mReserved ≠ 0#64 then .error (errReserved ||| errProtection)
      else .ok ⟨[], pdeAddr, pde, pde &&& 0x000FFFFFFFE00000#64, 0x1FFFFF#64⟩
    else
      let pteAddr := frame pde + (((laddr >>> 12) &&& 0x1FF#64) <<< 3)
      let pte := read pteAddr
      if ¬ present pte then .error errNotPresent
      else .ok ⟨[(pdeAddr, pde)], pteAddr, pte, frame pte, 0xFFF#64⟩

/-- The loop of `translate_linear_system_write_long_mode` and of
`translate_linear_system_read_long_mode`; only the write walk checks that a large page is
aligned. -/
def systemLongLoop (isWrite : Bool) (read : BitVec 64 → BitVec 64) (laddr : BitVec 64) :
    (level : Nat) → (ppf offsetMask : BitVec 64) → (upper : List (BitVec 64 × BitVec 64)) →
    Except (BitVec 32) SystemPath
  | 0, ppf, offsetMask, upper =>
    let addr := entryAddr ppf laddr 0
    let entry := read addr
    if ¬ present entry then .error errNotPresent
    else .ok ⟨upper, addr, entry, frame entry, offsetMask >>> 9⟩
  | level + 1, ppf, offsetMask, upper =>
    let addr := entryAddr ppf laddr (level + 1)
    let entry := read addr
    let offsetMask := offsetMask >>> 9
    if ¬ present entry then .error errNotPresent
    else if ps entry then
      let ppf := frame entry &&& 0x000FFFFFFFFFE000#64
      if isWrite ∧ ppf &&& offsetMask ≠ 0#64 then .error (errReserved ||| errProtection)
      else .ok ⟨upper, addr, entry, ppf, offsetMask⟩
    else systemLongLoop isWrite read laddr level (frame entry) offsetMask (upper ++ [(addr, entry)])

def systemLongPath (laddr : BitVec 64) : Except (BitVec 32) SystemPath :=
  systemLongLoop isWrite read laddr (startLeaf c) (c.cr3 &&& 0x000FFFFFFFFFF000#64)
    ((1#64 <<< c.linaddrWidth) - 1#64) []

/-- The descent of the current paging mode. -/
def Cpu.systemPath (s : Cpu m) (isWrite : Bool) (laddr : BitVec 64) :
    Except (BitVec 32) SystemPath :=
  if s.longMode then systemLongPath isWrite s.ctl s.pageWalkReadQword laddr
  else if s.ctl.pae then systemPaePath isWrite s.ctl s.pageWalkReadQword laddr
  else systemLegacyPath isWrite s.ctl s.pageWalkReadDword laddr

/-- `translate_linear_system_write`. -/
def translateLinearSystemWrite (laddr : BitVec 64) : CpuM m (BitVec 64) := do
  let s ← get
  let laddr := s.maskLaddr laddr
  if ¬ s.ctl.pg then return m.applyA20 laddr
  else match s.systemPath true laddr with
    | .error fault => pageFault fault laddr false true
    | .ok q =>
      modify fun s => s.setAd q.updates
      return m.applyA20 (q.paddr laddr)

/-- `translate_linear_system_read`; a failure names the fault for the caller to raise. -/
def Cpu.translateLinearSystemRead (s : Cpu m) (laddr : BitVec 64) :
    Except (BitVec 32) (BitVec 64) :=
  let laddr := s.maskLaddr laddr
  if ¬ s.ctl.pg then .ok (m.applyA20 laddr)
  else (s.systemPath false laddr).map fun q => m.applyA20 (q.paddr laddr)

/-- The supervisor data walk of an address, as the system walks would use it: the
A20-masked physical address, with the address itself when paging is off. -/
def supervisorDataWalk (laddr : BitVec 64) (isWrite : Bool) : CpuM m (BitVec 64) := do
  let s ← get
  let laddr := s.maskLaddr laddr
  if ¬ s.ctl.pg then return m.applyA20 laddr
  else
    let r ← pageWalkForDtlb laddr false isWrite false
    return m.applyA20 r.paddr

/-! ## The checks left out -/

/-- What the data walks require of the entries and the system walks do not. -/
def Cpu.EntriesLegal (s : Cpu m) (laddr : BitVec 64) (q : SystemPath) : Prop :=
  if s.longMode then
    (∀ e ∈ q.entries, e.2 &&& longReserved s.ctl = 0#64) ∧
      startLeaf s.ctl ≤ 2 + q.upper.length ∧ q.ppf &&& q.offsetMask = 0#64
  else if s.ctl.pae then
    s.ctl.pdptrcache (laddr.extractLsb' 30 2).toFin &&& pdpteReserved = 0#64 ∧
      (∀ e ∈ q.entries,
        e.2 &&& (legacyPaeReserved ||| if s.ctl.nxe then 0#64 else nxBit) = 0#64) ∧
      (q.offsetMask = 0x1FFFFF#64 → q.leaf &&& pde2mReserved = 0#64)
  else q.offsetMask = 0x3FFFFF#64 → q.leaf &&& pde4mReserved.setWidth 64 = 0#64

/-- A path of a data walk, as the system walks describe it. -/
def Path.toSystem (p : Path) : SystemPath :=
  ⟨p.upper, p.leafAddr, p.leaf, p.ppf, p.lpfMask.setWidth 64⟩

/-! ### Legacy paging -/

theorem setWidth_and_eq_zero (x y : BitVec 32) :
    x.setWidth 64 &&& y.setWidth 64 = 0#64 ↔ x &&& y = 0#32 := by
  rw [← BitVec.setWidth_and, ← BitVec.toNat_inj, ← BitVec.toNat_inj,
    BitVec.toNat_setWidth_of_le (by decide)]
  rfl

theorem systemLegacyPath_iff (read : BitVec 64 → BitVec 32) (laddr : BitVec 64) (q : SystemPath) :
    (systemLegacyPath isWrite c read laddr = .ok q ∧
      (q.offsetMask = 0x3FFFFF#64 → q.leaf &&& pde4mReserved.setWidth 64 = 0#64)) ↔
    ∃ p, legacyPath c read laddr = .ok p ∧ p.toSystem = q := by
  simp only [systemLegacyPath, legacyPath, check_eq_ok, not_not]
  generalize read (legacyPdeAddr c laddr) = pde
  by_cases hlarge : ps pde ∧ c.pse
  · simp only [if_pos hlarge, check_eq_ok, not_and, not_not, Except.ok.injEq]
    constructor
    · rintro ⟨⟨hpres, -, rfl⟩, hres⟩
      exact ⟨_, ⟨hpres, (setWidth_and_eq_zero ..).mp (hres rfl), rfl⟩, rfl⟩
    · rintro ⟨_, ⟨hpres, hres, rfl⟩, rfl⟩
      exact ⟨⟨hpres, fun _ => hres, rfl⟩, fun _ => (setWidth_and_eq_zero ..).mpr hres⟩
  · simp only [if_neg hlarge, check_eq_ok, not_not, Except.ok.injEq]
    constructor
    · rintro ⟨⟨hpres, hpte, rfl⟩, -⟩
      exact ⟨_, ⟨hpres, hpte, rfl⟩, rfl⟩
    · rintro ⟨_, ⟨hpres, hpte, rfl⟩, rfl⟩
      exact ⟨⟨hpres, hpte, rfl⟩, nofun⟩

/-! ### PAE paging -/

theorem pdeIndex_eq (laddr : BitVec 64) :
    ((laddr >>> 21) &&& 0x1FF#64) <<< 3 = (laddr >>> 18) &&& 0xFF8#64 := by
  apply BitVec.eq_of_getLsbD_eq
  intro i hi
  interval_cases i <;> simp

theorem systemPaePath_iff (laddr : BitVec 64) (q : SystemPath) :
    (systemPaePath isWrite c read laddr = .ok q ∧
      c.pdptrcache (laddr.extractLsb' 30 2).toFin &&& pdpteReserved = 0#64 ∧
      (∀ e ∈ q.entries, e.2 &&& (legacyPaeReserved ||| if c.nxe then 0#64 else nxBit) = 0#64) ∧
      (q.offsetMask = 0x1FFFFF#64 → q.leaf &&& pde2mReserved = 0#64)) ↔
    ∃ p, paePath c read laddr = .ok p ∧ p.toSystem = q := by
  simp only [systemPaePath, paePath, check_eq_ok, not_not, pdeIndex_eq]
  generalize c.pdptrcache _ = pdpte
  generalize frame pdpte + _ = pdeAddr
  generalize read pdeAddr = pde
  by_cases hps : ps pde
  · simp only [if_pos hps, check_eq_ok, not_and, not_not, Except.ok.injEq]
    constructor
    · rintro ⟨⟨hpdpte, hpde, -, rfl⟩, hpdpteRes, hentries, h2m⟩
      exact ⟨_, ⟨hpdpte, hpdpteRes, hpde, hentries (pdeAddr, pde) mem_cons_self, h2m rfl, rfl⟩,
        rfl⟩
    · rintro ⟨_, ⟨hpdpte, hpdpteRes, hpde, hpdeRes, h2m, rfl⟩, rfl⟩
      exact ⟨⟨hpdpte, hpde, fun _ => h2m, rfl⟩, hpdpteRes, forall_mem_singleton.mpr hpdeRes,
        fun _ => h2m⟩
  · generalize frame pde + _ = pteAddr
    generalize read pteAddr = pte
    simp only [if_neg hps, check_eq_ok, not_not, Except.ok.injEq]
    constructor
    · rintro ⟨⟨hpdpte, hpde, hpte, rfl⟩, hpdpteRes, hentries, -⟩
      obtain ⟨hpdeRes, hpteRes⟩ := forall_mem_cons.mp hentries
      exact ⟨_, ⟨hpdpte, hpdpteRes, hpde, hpdeRes, hpte, hpteRes _ mem_cons_self, rfl⟩, rfl⟩
    · rintro ⟨_, ⟨hpdpte, hpdpteRes, hpde, hpdeRes, hpte, hpteRes, rfl⟩, rfl⟩
      exact ⟨⟨hpdpte, hpde, hpte, rfl⟩, hpdpteRes,
        forall_mem_cons.mpr ⟨hpdeRes, forall_mem_singleton.mpr hpteRes⟩,
        fun hmask => by cases hmask⟩

/-! ### Long mode -/

variable {level : Nat}

theorem enterMask_large (h : level ≤ 2) :
    ((enterMask level >>> 9).setWidth 32).setWidth 64 = enterMask level >>> 9 := by
  decide +revert

variable {laddr : BitVec 64} {upper : List (BitVec 64 × BitVec 64)} {s : Cpu m} {p : Path}

theorem systemLongLoop_entries {isWrite : Bool} {read : BitVec 64 → BitVec 64}
    {ppf mask : BitVec 64} {q : SystemPath}
    (h : systemLongLoop isWrite read laddr level ppf mask upper = .ok q) {e : BitVec 64 × BitVec 64}
    (he : e ∈ upper) : e ∈ q.entries := by
  induction level generalizing ppf mask upper with
  | zero =>
    simp only [systemLongLoop] at h
    split_ifs at h
    cases h
    exact mem_append_left _ he
  | succ level ih =>
    simp only [systemLongLoop] at h
    split_ifs at h
    · cases h
      exact mem_append_left _ he
    · exact ih h (mem_append_left _ he)

/-- The two loops side by side; the entries already passed are legal. -/
theorem systemLongLoop_iff (reserved : BitVec 64) (read : BitVec 64 → BitVec 64) (laddr : BitVec 64)
    (hl : level ≤ 4) (ppf : BitVec 64) (combined : BitVec 32)
    (hupper : ∀ e ∈ upper, e.2 &&& reserved = 0#64) (q : SystemPath) :
    (systemLongLoop isWrite read laddr level ppf (enterMask level) upper = .ok q ∧
      (∀ e ∈ q.entries, e.2 &&& reserved = 0#64) ∧
      level + upper.length ≤ 2 + q.upper.length ∧ q.ppf &&& q.offsetMask = 0#64) ↔
    ∃ p, longLoop reserved read laddr level ppf (enterMask level) combined upper = .ok p ∧
      p.toSystem = q := by
  induction level generalizing ppf combined upper with
  | zero =>
    have hmask : enterMask 0 >>> 9 = 0xFFF#64 := by decide
    have hframe (e : BitVec 64) : frame e &&& 0xFFF#64 = 0#64 := by
      rw [frame, BitVec.and_assoc, show 0x000FFFFFFFFFF000#64 &&& 0xFFF#64 = 0#64 by decide,
        BitVec.and_zero]
    simp only [systemLongLoop, longLoop, hmask, check_eq_ok, not_not, Except.ok.injEq]
    generalize entryAddr ppf laddr 0 = addr
    constructor
    · rintro ⟨⟨hpres, rfl⟩, hentries, -⟩
      exact ⟨_, ⟨hpres, (forall_mem_append.mp hentries).2 _ mem_cons_self, rfl⟩, rfl⟩
    · rintro ⟨_, ⟨hpres, hres, rfl⟩, rfl⟩
      refine ⟨⟨hpres, rfl⟩, ?_, by simp [Path.toSystem], hframe (read addr)⟩
      exact forall_mem_append.mpr ⟨hupper, forall_mem_singleton.mpr hres⟩
  | succ level ih =>
    simp only [systemLongLoop, longLoop, check_eq_ok, not_not]
    generalize entryAddr ppf laddr (level + 1) = addr
    generalize read addr = entry
    by_cases hps : ps entry
    · -- a large page: both loops end here
      simp only [if_pos hps, check_eq_ok, not_and, not_not, Nat.not_lt, Except.ok.injEq]
      constructor
      · rintro ⟨⟨hpres, -, rfl⟩, hentries, hlevel, halign⟩
        have hlevel : level + 1 ≤ 2 := by simpa using hlevel
        refine ⟨_, ⟨hpres, (forall_mem_append.mp hentries).2 _ mem_cons_self,
          fun _ => hlevel, halign, rfl⟩, ?_⟩
        simp [Path.toSystem, enterMask_large hlevel]
      · rintro ⟨_, ⟨hpres, hres, hlevel, halign, rfl⟩, rfl⟩
        have hlevel := hlevel hps
        simp only [Path.toSystem, enterMask_large hlevel]
        refine ⟨⟨hpres, fun _ => halign, trivial⟩, ?_, by omega, halign⟩
        exact forall_mem_append.mpr ⟨hupper, forall_mem_singleton.mpr hres⟩
    · have hsmall : ¬ (ps entry = true ∧ 2 < level + 1) := fun h => hps h.1
      simp only [if_neg hps, hsmall, not_false_eq_true, true_and, enterMask_succ hl]
      by_cases hres : entry &&& reserved = 0#64
      · have hupper' : ∀ e ∈ upper ++ [(addr, entry)], e.2 &&& reserved = 0#64 :=
          forall_mem_append.mpr ⟨hupper, forall_mem_singleton.mpr hres⟩
        have hrest := ih (by omega) (frame entry) (combined &&& entry.setWidth 32) hupper'
        rw [length_append, length_singleton,
          show level + (upper.length + 1) = level + 1 + upper.length by omega] at hrest
        simp only [hres, true_and, and_assoc, exists_and_left, ← hrest]
      · constructor
        · rintro ⟨⟨-, hq⟩, hentries, -⟩
          exact absurd (hentries (addr, entry) (systemLongLoop_entries hq (by simp))) hres
        · rintro ⟨p, ⟨-, h, -⟩, -⟩
          exact absurd h hres

/-! ### All modes -/

/-- A data walk has a path exactly when the system walk has one with legal entries, and
then it is the same. -/
theorem systemPath_iff (s : Cpu m) (isWrite : Bool) (laddr : BitVec 64) (q : SystemPath) :
    (s.systemPath isWrite laddr = .ok q ∧ s.EntriesLegal laddr q) ↔
      ∃ p, s.path laddr = .ok p ∧ p.toSystem = q := by
  unfold Cpu.systemPath Cpu.EntriesLegal Cpu.path
  cases hlong : s.longMode with
  | true =>
    simp only [if_true, systemLongPath, longPath, enterMask_start]
    rw [← systemLongLoop_iff isWrite _ _ _ (startLeaf_le _) _ _ (forall_mem_nil _), length_nil,
      Nat.add_zero]
  | false =>
    cases hpae : s.ctl.pae with
    | true =>
      exact systemPaePath_iff ..
    | false =>
      exact systemLegacyPath_iff ..

/-! ## The entries of a path -/

/-- The entries are what memory holds at their addresses, these are aligned, and the path
leads to whole pages. -/
structure SystemPath.Shape (read : BitVec 64 → BitVec 64) (bytes : Nat) (q : SystemPath) : Prop where
  entries : ∀ e ∈ q.entries, e.2 = read e.1 ∧ e.1.toNat % bytes = 0
  ppf : lpfOf q.ppf = q.ppf
  offsetMask : q.offsetMask &&& 0xFFF#64 = 0xFFF#64

theorem shape_entries (read : BitVec 64 → BitVec 64) {bytes : Nat}
    {upper : List (BitVec 64 × BitVec 64)} {leafAddr leaf : BitVec 64}
    (hupper : ∀ e ∈ upper, e.2 = read e.1 ∧ e.1.toNat % bytes = 0) (hleaf : leaf = read leafAddr)
    (haligned : leafAddr.toNat % bytes = 0) :
    ∀ e ∈ upper ++ [(leafAddr, leaf)], e.2 = read e.1 ∧ e.1.toNat % bytes = 0 :=
  forall_mem_append.mpr ⟨hupper, forall_mem_singleton.mpr ⟨hleaf, haligned⟩⟩

theorem enterMask_low64 {level : Nat} (h : level ≤ 4) :
    (enterMask level >>> 9) &&& 0xFFF#64 = 0xFFF#64 := by
  decide +revert

section Shape

variable {isWrite} {q : SystemPath}

theorem systemLongLoop_shape {read : BitVec 64 → BitVec 64} (hl : level ≤ 4)
    {ppf : BitVec 64} (hppf : ppf.toNat % 8 = 0)
    (hupper : ∀ e ∈ upper, e.2 = read e.1 ∧ e.1.toNat % 8 = 0)
    (h : systemLongLoop isWrite read laddr level ppf (enterMask level) upper = .ok q) :
    q.Shape read 8 := by
  have haddr := entryAddr_aligned hppf laddr level
  induction level generalizing ppf upper with
  | zero =>
    simp only [systemLongLoop] at h
    split_ifs at h
    cases h
    exact ⟨shape_entries read hupper rfl haddr, lpfOf_and (by decide) _, enterMask_low64 hl⟩
  | succ level ih =>
    simp only [systemLongLoop] at h
    split_ifs at h
    · cases h
      refine ⟨shape_entries read hupper rfl haddr, ?_, enterMask_low64 hl⟩
      unfold frame
      exact lpfOf_and (by decide) _
    · rw [enterMask_succ hl] at h
      have hframe := frame_aligned (read (entryAddr ppf laddr (level + 1)))
      refine ih (by omega) hframe ?_ h (entryAddr_aligned hframe laddr level)
      exact forall_mem_append.mpr ⟨hupper, forall_mem_singleton.mpr ⟨rfl, haddr⟩⟩

theorem systemPaePath_shape {c : Control} {read : BitVec 64 → BitVec 64}
    (h : systemPaePath isWrite c read laddr = .ok q) : q.Shape read 8 := by
  have haligned (e x : BitVec 64) : (frame e + (x <<< 3)).toNat % 8 = 0 :=
    add_aligned (frame_aligned e) (shiftLeft_aligned x)
  simp only [systemPaePath] at h
  split_ifs at h
  · cases h
    exact ⟨shape_entries read (forall_mem_nil _) rfl (haligned _ _), lpfOf_and (by decide) _,
      by simp⟩
  · cases h
    exact ⟨shape_entries read (forall_mem_singleton.mpr ⟨rfl, haligned _ _⟩) rfl (haligned _ _),
      lpfOf_and (by decide) _, by simp⟩

theorem systemLegacyPath_shape {c : Control} {read : BitVec 64 → BitVec 32}
    (h : systemLegacyPath isWrite c read laddr = .ok q) :
    q.Shape (fun a => (read a).setWidth 64) 4 := by
  simp only [systemLegacyPath] at h
  split_ifs at h
  · cases h
    exact ⟨shape_entries (fun a => (read a).setWidth 64) (forall_mem_nil _) rfl
      (legacyAddr_aligned _ _), lpfOf_and (by decide) _, by simp⟩
  · cases h
    exact ⟨shape_entries (fun a => (read a).setWidth 64)
      (forall_mem_singleton.mpr ⟨rfl, legacyAddr_aligned _ _⟩) rfl (legacyAddr_aligned _ _),
      lpfOf_and (by decide) _, by simp⟩

theorem systemPath_shape
    (h : s.systemPath isWrite laddr = .ok q) : q.Shape s.readEntry s.entryBytes := by
  unfold Cpu.systemPath at h
  refine entry_cases s (P := q.Shape) (fun hlong => ?_) (fun hlong hpae => ?_) fun hlong hpae => ?_
  · rw [if_pos hlong, systemLongPath, enterMask_start] at h
    exact systemLongLoop_shape (startLeaf_le _) (frame_aligned s.ctl.cr3) (forall_mem_nil _) h
  · rw [if_neg (by simp [hlong]), if_pos hpae] at h
    exact systemPaePath_shape h
  · rw [if_neg (by simp [hlong]), if_neg (by simp [hpae])] at h
    exact systemLegacyPath_shape h

/-- The entries of a data walk are those of the system walk that goes along with it. -/
theorem path_shape (h : s.path laddr = .ok p) : p.Shape s.readEntry s.entryBytes := by
  have hsystem := ((systemPath_iff s false laddr p.toSystem).mpr ⟨p, h, rfl⟩).1
  obtain ⟨hentries, hppf, hmask⟩ := systemPath_shape hsystem
  have hupper (e) (he : e ∈ p.upper) := hentries e (mem_append_left _ he)
  have hleaf := hentries (p.leafAddr, p.leaf) (mem_append_right _ mem_cons_self)
  refine ⟨fun e he => (hupper e he).1, hleaf.1, fun a ha => ?_, hppf, hmask⟩
  rcases mem_append.mp ha with ha | ha
  · obtain ⟨e, he, rfl⟩ := mem_map.mp ha
    exact (hupper e he).2
  · rw [mem_singleton.mp ha]
    exact hleaf.2

end Shape

/-! ## Rights -/

theorem path_combined (h : s.path laddr = .ok p) :
    p.combined.getLsbD 1 = p.upper.all fun e => e.2.getLsbD 1 := by
  have hall : combinedAll.getLsbD 1 = true := by decide
  unfold Cpu.path at h
  split_ifs at h
  · obtain ⟨met, hupper, -, hbits⟩ := longLoop_path h
    rw [hupper, hbits 1 (by decide), hall]
    rfl
  · simp only [paePath] at h
    generalize legacyPaeReserved ||| _ = reserved at h
    split_ifs at h
    · cases h
      exact hall
    · cases h
      simp [hall]
  · simp only [legacyPath] at h
    split_ifs at h
    · cases h
      exact hall
    · cases h
      simp [hall]

theorem rights_write (h : s.path laddr = .ok p) :
    p.rights.getLsbD 1 = true ↔ ∀ e ∈ p.toSystem.entries, Pte.rw e.2 = true := by
  have hall : combinedAll.getLsbD 1 = true := by decide
  unfold Path.rights
  rw [BitVec.getLsbD_and, BitVec.getLsbD_and, path_combined h, hall, BitVec.getLsbD_setWidth]
  simp [SystemPath.entries, Path.toSystem, Pte.rw, or_imp, forall_and]

/-- With SMAP and the protection keys off, a supervisor access is only ever refused for
writing a read-only page under WP. -/
theorem walkAllows_supervisor (hsmap : s.ctl.smap = false) (hpke : s.ctl.pke = false)
    (hpks : s.ctl.pks = false) (hp : s.path laddr = .ok p) (isWrite : Bool) :
    s.WalkAllows p false isWrite ↔
      (isWrite → s.ctl.wp → ∀ e ∈ p.toSystem.entries, Pte.rw e.2 = true) := by
  have hkey : s.KeyAllows (pkey p.leaf) (us p.leaf) false isWrite := by
    unfold Cpu.KeyAllows
    split
    · simp [hpke]
    · simp [hpks]
  have hpriv : privCheck s.ctl.wp false p.rights isWrite = true ↔
      (isWrite → s.ctl.wp → p.rights.getLsbD 1 = true) := by
    have hbits := and_combinedAll (p.combined &&& p.leaf.setWidth 32)
    have hbit : p.rights.getLsbD 1 = (p.combined &&& p.leaf.setWidth 32).getLsbD 1 := by
      rw [Path.rights, BitVec.getLsbD_and, show combinedAll.getLsbD 1 = true by decide,
        Bool.and_true]
    rw [hbit, Path.rights, hbits, privCheck_eq]
    cases isWrite <;> cases s.ctl.wp <;> simp
  rw [rights_write hp] at hpriv
  constructor
  · intro h
    exact hpriv.mp h.leaf.1
  · intro h
    exact ⟨⟨hpriv.mpr h, by simp [hsmap]⟩, fun _ => hkey⟩

/-! ## Agreement -/

theorem systemWrite_run_ok (hpg : s.ctl.pg = true) {q : SystemPath}
    (hq : s.systemPath true (s.maskLaddr laddr) = .ok q) :
    (translateLinearSystemWrite laddr).run s =
      .ok (m.applyA20 (q.paddr (s.maskLaddr laddr))) (s.setAd q.updates) := by
  unfold translateLinearSystemWrite
  rw [run_get_bind]
  rw [if_neg (not_not_intro hpg), hq]
  rfl

theorem systemWrite_run_error (hpg : s.ctl.pg = true) {fault : BitVec 32}
    (hq : s.systemPath true (s.maskLaddr laddr) = .error fault) :
    (translateLinearSystemWrite laddr).run s =
      .error ⟨.pf, pfCode fault false true⟩ { s with cr2 := s.maskLaddr laddr } := by
  unfold translateLinearSystemWrite
  rw [run_get_bind]
  rw [if_neg (not_not_intro hpg), hq]
  exact run_pageFault ..

theorem supervisorDataWalk_unpaged (hpg : s.ctl.pg = false) (isWrite : Bool) :
    (supervisorDataWalk laddr isWrite).run s = .ok (m.applyA20 (s.maskLaddr laddr)) s := by
  unfold supervisorDataWalk
  rw [run_get_bind]
  rw [if_pos (by simp [hpg])]
  rfl

/-- The data walk succeeds exactly along a path that allows the access. -/
theorem supervisorDataWalk_ok_iff (hpg : s.ctl.pg = true) (isWrite : Bool) (pa : BitVec 64)
    (s' : Cpu m) :
    (supervisorDataWalk laddr isWrite).run s = .ok pa s' ↔
      ∃ p, s.path (s.maskLaddr laddr) = .ok p ∧ s.WalkAllows p false isWrite ∧
        pa = m.applyA20 (p.paddr (s.maskLaddr laddr)) ∧ s' = s.setAd (p.updates isWrite) := by
  unfold supervisorDataWalk
  rw [run_get_bind]
  rw [if_neg (not_not_intro hpg)]
  rcases walkOutcome s (s.maskLaddr laddr) false isWrite with
    ⟨p, hpath, hallows, hrun⟩ | ⟨hforbids, f, hrun⟩
  · rw [run_bind_of_ok hrun]
    constructor
    · intro h
      cases h
      exact ⟨p, hpath, hallows, rfl, rfl⟩
    · rintro ⟨p', hpath', -, rfl, rfl⟩
      rw [hpath] at hpath'
      cases hpath'
      rfl
  · rw [run_bind_of_error hrun]
    constructor
    · intro h
      cases h
    · rintro ⟨p, hpath, hallows, -⟩
      exact absurd hallows (hforbids p hpath)

/-- The system write of an address goes through exactly when the supervisor data write
does, with the same physical address and the same accessed/dirty updates. -/
def Cpu.SystemWriteAgrees (s : Cpu m) (laddr : BitVec 64) : Prop :=
  ∀ pa s', (translateLinearSystemWrite laddr).run s = .ok pa s' ↔
    (supervisorDataWalk laddr true).run s = .ok pa s'

/-- The system read of an address goes through exactly when the supervisor data read does,
with the same physical address. -/
def Cpu.SystemReadAgrees (s : Cpu m) (laddr : BitVec 64) : Prop :=
  ∀ pa, s.translateLinearSystemRead laddr = .ok pa ↔
    ∃ s', (supervisorDataWalk laddr false).run s = .ok pa s'

/-- Every entry the write walk uses is legal and, under WP, writable. -/
def Cpu.WriteEntriesOk (s : Cpu m) (laddr : BitVec 64) : Prop :=
  s.ctl.pg → ∀ q, s.systemPath true (s.maskLaddr laddr) = .ok q →
    s.EntriesLegal (s.maskLaddr laddr) q ∧ (s.ctl.wp → ∀ e ∈ q.entries, Pte.rw e.2 = true)

/-- Every entry the read walk uses is legal. -/
def Cpu.ReadEntriesOk (s : Cpu m) (laddr : BitVec 64) : Prop :=
  s.ctl.pg → ∀ q, s.systemPath false (s.maskLaddr laddr) = .ok q →
    s.EntriesLegal (s.maskLaddr laddr) q

section Agreement

variable {s : Cpu m} (hsmap : s.ctl.smap = false) (hpke : s.ctl.pke = false)
  (hpks : s.ctl.pks = false) (laddr : BitVec 64)
include hsmap hpke hpks

theorem systemWriteAgrees_iff : s.SystemWriteAgrees laddr ↔ s.WriteEntriesOk laddr := by
  constructor
  · intro hagree hpg q hq
    have hdata := (hagree _ _).mp (systemWrite_run_ok hpg hq)
    obtain ⟨p, hp, hallows, -⟩ := (supervisorDataWalk_ok_iff hpg true _ _).mp hdata
    obtain ⟨hq', hlegal⟩ := (systemPath_iff s true _ p.toSystem).mpr ⟨p, hp, rfl⟩
    rw [hq] at hq'
    cases hq'
    exact ⟨hlegal, (walkAllows_supervisor hsmap hpke hpks hp true).mp hallows rfl⟩
  · intro hok pa s'
    cases hpg : s.ctl.pg with
    | false =>
      rw [supervisorDataWalk_unpaged hpg]
      unfold translateLinearSystemWrite
      rw [run_get_bind]
      rw [if_pos (by simp [hpg])]
      rfl
    | true =>
      rw [supervisorDataWalk_ok_iff hpg]
      constructor
      · intro h
        cases hq : s.systemPath true (s.maskLaddr laddr) with
        | error fault =>
          rw [systemWrite_run_error hpg hq] at h
          cases h
        | ok q =>
          obtain ⟨hlegal, hrw⟩ := hok hpg q hq
          obtain ⟨p, hp, rfl⟩ := (systemPath_iff s true _ q).mp ⟨hq, hlegal⟩
          rw [systemWrite_run_ok hpg hq] at h
          cases h
          exact ⟨p, hp, (walkAllows_supervisor hsmap hpke hpks hp true).mpr fun _ => hrw, rfl, rfl⟩
      · rintro ⟨p, hp, -, rfl, rfl⟩
        obtain ⟨hq, -⟩ := (systemPath_iff s true _ p.toSystem).mpr ⟨p, hp, rfl⟩
        exact systemWrite_run_ok hpg hq

theorem systemReadAgrees_iff : s.SystemReadAgrees laddr ↔ s.ReadEntriesOk laddr := by
  have hallows {p : Path} (hp : s.path (s.maskLaddr laddr) = .ok p) : s.WalkAllows p false false :=
    (walkAllows_supervisor hsmap hpke hpks hp false).mpr fun h => absurd h (by simp)
  have hread (hpg : s.ctl.pg = true) : s.translateLinearSystemRead laddr =
      (s.systemPath false (s.maskLaddr laddr)).map
        fun q => m.applyA20 (q.paddr (s.maskLaddr laddr)) := by
    unfold Cpu.translateLinearSystemRead
    rw [if_neg (not_not_intro hpg)]
  constructor
  · intro hagree hpg q hq
    have hok : s.translateLinearSystemRead laddr =
        .ok (m.applyA20 (q.paddr (s.maskLaddr laddr))) := by
      rw [hread hpg, hq]
      rfl
    obtain ⟨s', hdata⟩ := (hagree _).mp hok
    obtain ⟨p, hp, -⟩ := (supervisorDataWalk_ok_iff hpg false _ _).mp hdata
    obtain ⟨hq', hlegal⟩ := (systemPath_iff s false _ p.toSystem).mpr ⟨p, hp, rfl⟩
    rw [hq] at hq'
    cases hq'
    exact hlegal
  · intro hok pa
    cases hpg : s.ctl.pg with
    | false =>
      rw [supervisorDataWalk_unpaged hpg]
      simp [Cpu.translateLinearSystemRead, hpg, eq_comm]
    | true =>
      simp only [supervisorDataWalk_ok_iff hpg, hread hpg]
      constructor
      · intro h
        cases hq : s.systemPath false (s.maskLaddr laddr) with
        | error fault =>
          rw [hq] at h
          cases h
        | ok q =>
          obtain ⟨p, hp, rfl⟩ := (systemPath_iff s false _ q).mp ⟨hq, hok hpg q hq⟩
          rw [hq] at h
          cases h
          exact ⟨_, p, hp, hallows hp, rfl, rfl⟩
      · rintro ⟨s', p, hp, -, rfl, -⟩
        obtain ⟨hq, -⟩ := (systemPath_iff s false _ p.toSystem).mpr ⟨p, hp, rfl⟩
        rw [hq]
        rfl

theorem systemWalks_agree_iff :
    (s.SystemWriteAgrees laddr ↔ s.WriteEntriesOk laddr) ∧
      (s.longMode = false → (s.SystemReadAgrees laddr ↔ s.ReadEntriesOk laddr)) :=
  ⟨systemWriteAgrees_iff hsmap hpke hpks laddr,
    fun _ => systemReadAgrees_iff hsmap hpke hpks laddr⟩

end Agreement

/-! ## A read-only page -/

/-- Legacy tables that map page 0, read-only for `flags = 5`. -/
def onePageTables (flags : BitVec 32) : Nat → BitVec 8 :=
  store (store (fun _ => 0) 0x1000 4 0x2007#32) 0x2000 4 (0x3000#32 ||| flags)

/-- Legacy paging with CR0.WP set. -/
def onePageCpu (flags : BitVec 32) : Cpu smallMachine :=
  Cpu.idle ⟨true, true, false, false, false, false, false, false, false, false, 0x1000#64,
    fun _ => 0⟩ (onePageTables flags)

theorem onePage_system_walks :
    (onePageCpu 7#32).SystemWriteAgrees 0#64 ∧ (onePageCpu 7#32).SystemReadAgrees 0#64 := by
  obtain ⟨hwrite, hread⟩ := systemWalks_agree_iff (s := onePageCpu 7#32) rfl rfl rfl 0#64
  have hpath (isWrite : Bool) : (onePageCpu 7#32).systemPath isWrite 0#64 =
      .ok ⟨[(0x1000#64, 0x2007#64)], 0x2000#64, 0x3007#64, 0x3000#64, 0xFFF#64⟩ := by
    cases isWrite <;> decide +kernel
  refine ⟨hwrite.mpr fun _ q hq => ?_, (hread rfl).mpr fun _ q hq => ?_⟩
  · cases (hpath true).symm.trans hq
    exact ⟨fun h => absurd h (by decide), fun _ => by simp [SystemPath.entries, Pte.rw]⟩
  · cases (hpath false).symm.trans hq
    exact fun h => absurd h (by decide)

/-- With WP set, a system write to a read-only page goes through; the data write faults. -/
theorem system_write_read_only_page :
    ¬ (onePageCpu 5#32).SystemWriteAgrees 0#64 ∧
      ∃ pa s', (translateLinearSystemWrite 0#64).run (onePageCpu 5#32) = .ok pa s' := by
  have hpath : (onePageCpu 5#32).systemPath true 0#64 =
      .ok ⟨[(0x1000#64, 0x2007#64)], 0x2000#64, 0x3005#64, 0x3000#64, 0xFFF#64⟩ := by
    decide +kernel
  have hrun : (translateLinearSystemWrite 0#64).run (onePageCpu 5#32) = _ :=
    systemWrite_run_ok rfl hpath
  refine ⟨fun h => ?_, _, _, hrun⟩
  obtain ⟨-, hrw⟩ := (systemWriteAgrees_iff rfl rfl rfl 0#64).mp h rfl _ hpath
  exact absurd (hrw rfl (0x2000#64, 0x3005#64) (by decide)) (by decide)

end RustyBox
