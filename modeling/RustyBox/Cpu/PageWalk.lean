-- SUMMARY: The page walks that fill the data TLB: legacy, PAE and long mode.
import RustyBox.Cpu.PhysMem
import RustyBox.Lib.ExceptRules

/-!
# Page walks

`page_walk_for_dtlb` and what it calls, with nested paging off. Every walk first follows
the paging structures down to a leaf (`legacyPath`, `paePath`, `longPath`: the first entry
that cannot be used ends it with the fault bits to raise), then checks the leaf's rights,
then sets accessed and dirty bits, root first. No walk writes before its last check.
-/

namespace RustyBox

open Lib

variable {m : Machine}

/-- `b as u32`. -/
def bit32 (b : Bool) : BitVec 32 := if b then 1#32 else 0#32

/-! ## Paging-structure entries -/

namespace Pte

variable {w : Nat}

def present (e : BitVec w) : Bool := e.getLsbD 0
def rw (e : BitVec w) : Bool := e.getLsbD 1
def us (e : BitVec w) : Bool := e.getLsbD 2
def accessed (e : BitVec w) : Bool := e.getLsbD 5
def dirty (e : BitVec w) : Bool := e.getLsbD 6
def ps (e : BitVec w) : Bool := e.getLsbD 7

/-- Bits 51:12, `0x000F_FFFF_FFFF_F000`. -/
def frame (e : BitVec 64) : BitVec 64 := e &&& 0x000FFFFFFFFFF000#64

/-- The protection key, bits 62:59. -/
def pkey (e : BitVec 64) : BitVec 4 := e.extractLsb' 59 4

end Pte

/-- `PageFaultError`. -/
def errNotPresent : BitVec 32 := 0x00#32
def errProtection : BitVec 32 := 0x01#32
def errReserved : BitVec 32 := 0x08#32
def errPkey : BitVec 32 := 0x20#32
def errShadowStack : BitVec 32 := 0x40#32

/-- `CombinedAccess`. -/
def combinedWrite : BitVec 32 := 0x2#32
def combinedUser : BitVec 32 := 0x4#32
def combinedAll : BitVec 32 := 0x6#32

def nxBit : BitVec 64 := 0x8000000000000000#64
def pde4mReserved : BitVec 32 := 0x200000#32
/-- `PAGING_PAE_PHY_RESERVED_BITS`: bits 51:40. -/
def phyReserved : BitVec 64 := 0x000FFF0000000000#64
def legacyPaeReserved : BitVec 64 := phyReserved ||| 0x7FF0000000000000#64
def pde2mReserved : BitVec 64 := phyReserved ||| 0x001FE000#64
def pdpteReserved : BitVec 64 := phyReserved ||| 0xFFF00000000001E6#64

/-- `PRIV_CHECK`, indexed `|wp|us|us|rw|rw|`. -/
def privCheckTable : List Nat :=
  [1, 1, 1, 1, 1, 1, 1, 1,
   0, 0, 0, 0, 1, 0, 1, 1,
   1, 0, 1, 1, 1, 0, 1, 1,
   0, 0, 0, 0, 1, 0, 1, 1]

/-- `PRIV_CHECK[priv_index] != 0`. -/
def privCheck (wp user : Bool) (combined : BitVec 32) (isWrite : Bool) : Bool :=
  let index := (bit32 wp <<< 4) ||| (bit32 user <<< 3) ||| combined ||| bit32 isWrite
  privCheckTable.getD index.toNat 0 ≠ 0

/-! ## Following the structures -/

/-- A completed descent. `upper` holds the entries above the leaf with their addresses,
root first; `combined` is R/W and U/S ANDed over them. -/
structure Path where
  upper : List (BitVec 64 × BitVec 64)
  leafAddr : BitVec 64
  leaf : BitVec 64
  combined : BitVec 32
  ppf : BitVec 64
  lpfMask : BitVec 32
  deriving DecidableEq

variable (laddr : BitVec 64) (c : Control) (p : Path)

/-- The PDE address of legacy paging. -/
def legacyPdeAddr (laddr : BitVec 64) : BitVec 64 :=
  (c.cr3 &&& 0xFFFFF000#64) ||| (((laddr >>> 22) &&& 0x3FF#64) <<< 2)

/-- The PTE address below a legacy PDE. -/
def legacyPteAddr (pde : BitVec 32) (laddr : BitVec 64) : BitVec 64 :=
  (pde.setWidth 64 &&& 0xFFFFF000#64) ||| (((laddr >>> 12) &&& 0x3FF#64) <<< 2)

/-- The two levels of `page_walk_for_dtlb_legacy`. -/
def legacyPath (read : BitVec 64 → BitVec 32) (laddr : BitVec 64) : Except (BitVec 32) Path :=
  let pdeAddr := legacyPdeAddr c laddr
  let pde := read pdeAddr
  if ¬ Pte.present pde then .error errNotPresent
  else if Pte.ps pde ∧ c.pse then
    if pde &&& pde4mReserved ≠ 0#32 then .error (errReserved ||| errProtection)
    else .ok ⟨[], pdeAddr, pde.setWidth 64, combinedAll, pde.setWidth 64 &&& 0xFFC00000#64, 0x3FFFFF#32⟩
  else
    let pteAddr := legacyPteAddr pde laddr
    let pte := read pteAddr
    if ¬ Pte.present pte then .error errNotPresent
    else .ok ⟨[(pdeAddr, pde.setWidth 64)], pteAddr, pte.setWidth 64, pde &&& combinedAll,
      pte.setWidth 64 &&& 0xFFFFF000#64, 0xFFF#32⟩

/-- The three levels of `page_walk_for_dtlb_pae`; the PDPTE comes from the cache. -/
def paePath (read : BitVec 64 → BitVec 64) (laddr : BitVec 64) : Except (BitVec 32) Path :=
  let reserved := legacyPaeReserved ||| (if c.nxe then 0#64 else nxBit)
  let pdpte := c.pdptrcache (laddr.extractLsb' 30 2).toFin
  if ¬ Pte.present pdpte then .error errNotPresent
  else if pdpte &&& pdpteReserved ≠ 0#64 then .error (errReserved ||| errProtection)
  else
    let pdeAddr := Pte.frame pdpte + ((laddr >>> 18) &&& 0xFF8#64)
    let pde := read pdeAddr
    if ¬ Pte.present pde then .error errNotPresent
    else if pde &&& reserved ≠ 0#64 then .error (errReserved ||| errProtection)
    else if Pte.ps pde then
      if pde &&& pde2mReserved ≠ 0#64 then .error (errReserved ||| errProtection)
      else .ok ⟨[], pdeAddr, pde, combinedAll, pde &&& 0x000FFFFFFFE00000#64, 0x1FFFFF#32⟩
    else
      let pteAddr := Pte.frame pde + (((laddr >>> 12) &&& 0x1FF#64) <<< 3)
      let pte := read pteAddr
      if ¬ Pte.present pte then .error errNotPresent
      else if pte &&& reserved ≠ 0#64 then .error (errReserved ||| errProtection)
      else .ok ⟨[(pdeAddr, pde)], pteAddr, pte, combinedAll &&& pde.setWidth 32, Pte.frame pte,
        0xFFF#32⟩

/-- `reserved` of the long-mode walk. -/
def longReserved : BitVec 64 := phyReserved ||| (if c.nxe then 0#64 else nxBit)

/-- The address of the entry that selects `laddr` in the table at `ppf`. -/
def entryAddr (ppf laddr : BitVec 64) (level : Nat) : BitVec 64 :=
  ppf + ((laddr >>> (9 + 9 * level)) &&& 0xFF8#64)

/-- The loop of `page_walk_for_dtlb_long_mode`, from `level` down. Levels 0 to 4 are PTE,
PDE, PDPTE, PML4 and PML5. -/
def longLoop (reserved : BitVec 64) (read : BitVec 64 → BitVec 64) (laddr : BitVec 64) :
    (level : Nat) → (ppf offsetMask : BitVec 64) → (combined : BitVec 32) →
    (upper : List (BitVec 64 × BitVec 64)) → Except (BitVec 32) Path
  | 0, ppf, _, combined, upper =>
    let addr := entryAddr ppf laddr 0
    let entry := read addr
    if ¬ Pte.present entry then .error errNotPresent
    else if entry &&& reserved ≠ 0#64 then .error (errReserved ||| errProtection)
    else .ok ⟨upper, addr, entry, combined, Pte.frame entry, 0xFFF#32⟩
  | level + 1, ppf, offsetMask, combined, upper =>
    let addr := entryAddr ppf laddr (level + 1)
    let entry := read addr
    let offsetMask := offsetMask >>> 9
    if ¬ Pte.present entry then .error errNotPresent
    else if entry &&& reserved ≠ 0#64 then .error (errReserved ||| errProtection)
    else if Pte.ps entry ∧ 2 < level + 1 then .error (errReserved ||| errProtection)
    else if Pte.ps entry then
      -- bit 12 of a large page's entry is PAT, not part of the frame
      let ppf := Pte.frame entry &&& 0x000FFFFFFFFFE000#64
      if ppf &&& offsetMask ≠ 0#64 then .error (errReserved ||| errProtection)
      else .ok ⟨upper, addr, entry, combined, ppf, offsetMask.setWidth 32⟩
    else
      longLoop reserved read laddr level (Pte.frame entry) offsetMask
        (combined &&& entry.setWidth 32) (upper ++ [(addr, entry)])

/-- `start_leaf`. -/
def startLeaf : Nat := if c.la57 then 4 else 3

/-- The four or five levels of `page_walk_for_dtlb_long_mode`. -/
def longPath (read : BitVec 64 → BitVec 64) (laddr : BitVec 64) : Except (BitVec 32) Path :=
  longLoop (longReserved c) read laddr (startLeaf c) (c.cr3 &&& 0x000FFFFFFFFFF000#64)
    ((1#64 <<< c.linaddrWidth) - 1#64) combinedAll []

/-! ## Rights of the leaf -/

/-- The error code of a #PF. -/
def pfCode (fault : BitVec 32) (user isWrite : Bool) : BitVec 16 :=
  (fault ||| (bit32 user <<< 2) ||| (bit32 isWrite <<< 1)).setWidth 16

/-- `page_fault`. -/
def pageFault {α : Type} (fault : BitVec 32) (laddr : BitVec 64) (user isWrite : Bool) :
    CpuM m α := do
  modify fun s => { s with cr2 := laddr }
  exception .pf (pfCode fault user isWrite)

/-- `check_shadow_stack_leaf`. -/
def checkShadowStackLeaf (leafEntry : BitVec 64) (combined : BitVec 32) (laddr : BitVec 64)
    (user isWrite : Bool) : CpuM m (BitVec 32) :=
  let err := errProtection ||| errShadowStack ||| (bit32 isWrite <<< 1) ||| (bit32 user <<< 2)
  let shadowStackPage :=
    combined &&& combinedWrite ≠ 0#32 ∧ Pte.dirty leafEntry ∧ ¬ Pte.rw leafEntry
  let combined' := combined &&& leafEntry.setWidth 32
  if ¬ shadowStackPage then pageFault err laddr user isWrite
  else if (combined' &&& combinedUser) ^^^ (bit32 user <<< 2) ≠ 0#32 then
    pageFault err laddr user isWrite
  else return combined'

/-- The rights ANDed over the whole path. -/
def Path.rights : BitVec 32 := p.combined &&& p.leaf.setWidth 32 &&& combinedAll

/-- The leaf permission check. Only the PAE and long-mode walks look at SMAP. -/
def checkLeaf (smapChecked : Bool) (p : Path) (laddr : BitVec 64) (user isWrite : Bool)
    (isShadowStack : Bool) : CpuM m (BitVec 32) := do
  if isShadowStack then checkShadowStackLeaf p.leaf p.combined laddr user isWrite
  else
    let s ← get
    if ¬ privCheck s.ctl.wp user p.rights isWrite then
      pageFault errProtection laddr user isWrite
    else if smapChecked ∧ s.ctl.smap ∧ ¬ user ∧ p.rights &&& combinedUser ≠ 0#32 ∧ ¬ s.ac then
      pageFault errProtection laddr user isWrite
    else return p.rights

/-- `handle_pkeys`: the key of the leaf, or a fault when PKRU (user pages) or PKRS
(supervisor pages) forbids the access. -/
def handlePkeys (leafEntry : BitVec 64) (user userPage isWrite : Bool) : CpuM m (BitVec 4) := do
  let s ← get
  let pkey := Pte.pkey leafEntry
  if s.ctl.pke ∧ userPage then
    if s.pkru.getLsbD (pkey.toNat * 2) then
      pageFault (errProtection ||| errPkey) laddr user isWrite
    else if s.pkru.getLsbD (pkey.toNat * 2 + 1) ∧ isWrite ∧ (user ∨ s.ctl.wp) then
      pageFault (errProtection ||| errPkey) laddr user isWrite
    else return pkey
  else if s.ctl.pks ∧ ¬ userPage then
    if s.pkrs.getLsbD (pkey.toNat * 2) then
      pageFault (errProtection ||| errPkey) laddr user isWrite
    else if s.pkrs.getLsbD (pkey.toNat * 2 + 1) ∧ isWrite ∧ s.ctl.wp then
      pageFault (errProtection ||| errPkey) laddr user isWrite
    else return pkey
  else return 0#4

/-! ## Accessed and dirty bits -/

/-- The bits an access needs in the leaf: A, and D for a write. -/
def leafNeeded (isWrite : Bool) : BitVec 64 := if isWrite then 0x60#64 else 0x20#64

/-- The entries an access has to update, with their new values, in the order of the
writes. -/
def Path.updates (isWrite : Bool) : List (BitVec 64 × BitVec 64) :=
  (p.upper.filter fun e => ¬ Pte.accessed e.2).map (fun e => (e.1, e.2 ||| 0x20#64)) ++
    if p.leaf &&& leafNeeded isWrite = leafNeeded isWrite then []
    else [(p.leafAddr, p.leaf ||| leafNeeded isWrite)]

/-- The A/D updates of a walk, each written with `write`. -/
def Cpu.updateAd (s : Cpu m) (write : Cpu m → BitVec 64 → BitVec 64 → Cpu m)
    (updates : List (BitVec 64 × BitVec 64)) : Cpu m :=
  updates.foldl (fun s e => write s e.1 e.2) s

/-! ## The walks -/

/-- What a walk returns: the physical address before A20, the combined rights, the page
size mask and the protection key. -/
structure WalkResult where
  paddr : BitVec 64
  combined : BitVec 32
  lpfMask : BitVec 32
  pkey : BitVec 4
  deriving DecidableEq

/-- The physical address of `laddr` on the page a path leads to. -/
def Path.paddr (laddr : BitVec 64) : BitVec 64 :=
  p.ppf ||| (laddr &&& p.lpfMask.setWidth 64)

/-- How every walk ends once the descent and the protection key are settled: check the
leaf, set accessed and dirty bits, return. -/
def finishWalk (smapChecked : Bool) (write : Cpu m → BitVec 64 → BitVec 64 → Cpu m) (p : Path)
    (pkey : BitVec 4) (laddr : BitVec 64) (user isWrite isShadowStack : Bool) :
    CpuM m WalkResult := do
  let combined ← checkLeaf smapChecked p laddr user isWrite isShadowStack
  modify fun s => s.updateAd write (p.updates isWrite)
  return ⟨p.paddr laddr, combined, p.lpfMask, pkey⟩

/-- The A/D write of legacy paging, whose entries are 4 bytes. -/
def Cpu.writeLegacyEntry (s : Cpu m) (addr v : BitVec 64) : Cpu m :=
  s.pageWalkWriteDword addr (v.setWidth 32)

/-- `page_walk_for_dtlb_legacy`. -/
def pageWalkForDtlbLegacy (user isWrite isShadowStack : Bool) : CpuM m WalkResult := do
  let s ← get
  match legacyPath s.ctl s.pageWalkReadDword laddr with
  | .error fault => pageFault fault laddr user isWrite
  | .ok p => finishWalk false Cpu.writeLegacyEntry p 0#4 laddr user isWrite isShadowStack

/-- `page_walk_for_dtlb_pae`. -/
def pageWalkForDtlbPae (user isWrite isShadowStack : Bool) : CpuM m WalkResult := do
  let s ← get
  match paePath s.ctl s.pageWalkReadQword laddr with
  | .error fault => pageFault fault laddr user isWrite
  | .ok p => finishWalk true Cpu.pageWalkWriteQword p 0#4 laddr user isWrite isShadowStack

/-- `page_walk_for_dtlb_long_mode`. The protection key is judged by the leaf's own U/S. -/
def pageWalkForDtlbLongMode (user isWrite isShadowStack : Bool) : CpuM m WalkResult := do
  let s ← get
  match longPath s.ctl s.pageWalkReadQword laddr with
  | .error fault => pageFault fault laddr user isWrite
  | .ok p =>
    let pkey ← handlePkeys laddr p.leaf user (Pte.us p.leaf) isWrite
    finishWalk true Cpu.pageWalkWriteQword p pkey laddr user isWrite isShadowStack

/-- `page_walk_for_dtlb`. -/
def pageWalkForDtlb (user isWrite isShadowStack : Bool) : CpuM m WalkResult := do
  let s ← get
  if s.longMode then pageWalkForDtlbLongMode laddr user isWrite isShadowStack
  else if s.ctl.pae then pageWalkForDtlbPae laddr user isWrite isShadowStack
  else pageWalkForDtlbLegacy laddr user isWrite isShadowStack

end RustyBox
