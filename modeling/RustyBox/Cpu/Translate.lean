-- SUMMARY: Data translation through the TLB, and the protection-key masks applied at a hit.
import RustyBox.Cpu.PageWalk

/-!
# Data translation

`translate_data_access`: answer from the data TLB, or walk and fill. An entry caches what
all four user/write combinations may do on its page; the protection-key registers are
applied at each hit through the masks that `set_pkeys` computes.
-/

namespace RustyBox

open Lib

variable {m : Machine}

/-! ## Pages and slots -/

variable (laddr : BitVec 64)

theorem lpfOf_lpfOf : lpfOf (lpfOf laddr) = lpfOf laddr := by
  unfold lpfOf
  rw [BitVec.and_assoc, BitVec.and_self]

theorem dtlbIndexOf_lpfOf : dtlbIndexOf (lpfOf laddr) 0 = dtlbIndexOf laddr 0 := by
  have hmask : lpfMask &&& 0x7FF000#64 = 0x7FF000#64 := by decide
  unfold dtlbIndexOf lpfOf
  simp only [BitVec.add_zero, BitVec.and_assoc, hmask]

theorem applyA20_applyA20 (paddr : BitVec 64) : m.applyA20 (m.applyA20 paddr) = m.applyA20 paddr := by
  unfold Machine.applyA20
  rw [BitVec.and_assoc, BitVec.and_self]

theorem applyA20_lpfOf (paddr : BitVec 64) :
    m.applyA20 (lpfOf paddr) = lpfOf (m.applyA20 paddr) := by
  unfold Machine.applyA20 lpfOf
  rw [BitVec.and_assoc, BitVec.and_assoc, BitVec.and_comm lpfMask]

/-! ## Access bits -/

/-- `TlbAccess`. -/
def sysReadOk : BitVec 32 := 0x01#32
def userReadOk : BitVec 32 := 0x02#32
def sysWriteOk : BitVec 32 := 0x04#32
def userWriteOk : BitVec 32 := 0x08#32

/-- `needed_bit`. -/
def neededBit (user isWrite isShadowStack : Bool) : BitVec 32 :=
  1#32 <<< ((if isShadowStack then 4 else 0) + (if isWrite then 2 else 0) + if user then 1 else 0)

/-- What a fill grants on a page with the given rights. -/
def grantedBits (c : Control) (combined : BitVec 32) (isWrite isShadowStack : Bool) : BitVec 32 :=
  if isShadowStack then
    if combined &&& combinedUser = 0#32 then
      sysReadOk ||| 0x10#32 ||| if isWrite then 0x40#32 else 0#32
    else userReadOk ||| 0x20#32 ||| if isWrite then 0x80#32 else 0#32
  else
    let grant (bit : BitVec 32) (user write : Bool) : BitVec 32 :=
      if privCheck c.wp user combined write then bit else 0#32
    let bits := grant sysReadOk false false ||| grant userReadOk true false |||
      grant sysWriteOk false true ||| grant userWriteOk true true
    -- a read leaves the dirty bit alone, so it grants no writes
    let bits := if isWrite then bits else bits &&& ~~~(sysWriteOk ||| userWriteOk)
    if combined &&& combinedUser ≠ 0#32 ∧ c.smap then bits &&& ~~~(sysReadOk ||| sysWriteOk)
    else bits

/-! ## Protection keys -/

/-- What a read and what a write may use under one key, given its access-disable and
write-disable bits in PKRU (`user…`) and PKRS (`sys…`). -/
def keyMasks (userAd userWd sysAd sysWd wp : Bool) : BitVec 32 × BitVec 32 :=
  let rd := 0xF#32
  let wr := 0xF#32
  let rd := if userAd then rd &&& ~~~(userReadOk ||| userWriteOk) else rd
  let wr := if userAd then wr &&& ~~~(userReadOk ||| userWriteOk) else wr
  let wr := if userWd then wr &&& ~~~userWriteOk else wr
  let wr := if userWd && wp then wr &&& ~~~sysWriteOk else wr
  let rd := if sysAd then rd &&& ~~~(sysReadOk ||| sysWriteOk) else rd
  let wr := if sysAd then wr &&& ~~~(sysReadOk ||| sysWriteOk) else wr
  let wr := if sysWd && wp then wr &&& ~~~sysWriteOk else wr
  (rd ||| (rd <<< 4), wr ||| (wr <<< 4))

/-- The masks of `set_pkeys` for one key; the registers count in long mode only. -/
def pkeyMasks (c : Control) (pkru pkrs : BitVec 32) (key : BitVec 4) : BitVec 32 × BitVec 32 :=
  keyMasks (c.lma && c.pke && pkru.getLsbD (key.toNat * 2))
    (c.lma && c.pke && pkru.getLsbD (key.toNat * 2 + 1))
    (c.lma && c.pks && pkrs.getLsbD (key.toNat * 2))
    (c.lma && c.pks && pkrs.getLsbD (key.toNat * 2 + 1)) c.wp

/-- `set_pkeys`. -/
def Cpu.setPkeys (s : Cpu m) (pkru pkrs : BitVec 32) : Cpu m :=
  { s with
    pkru := pkru
    pkrs := pkrs
    rdPkey := fun key => (pkeyMasks s.ctl pkru pkrs key).1
    wrPkey := fun key => (pkeyMasks s.ctl pkru pkrs key).2 }

/-! ## Translation -/

/-- The hit test of `translate_data_access`. -/
def Cpu.DtlbHit (s : Cpu m) (laddr : BitVec 64) (isWrite isShadowStack : Bool) : Prop :=
  let e := s.dtlb.entryOf laddr 0
  let mask := if isWrite then s.wrPkey e.pkey else s.rdPkey e.pkey
  e.lpf = lpfOf laddr ∧ e.accessBits &&& neededBit s.userPl isWrite isShadowStack &&& mask ≠ 0#32

instance (s : Cpu m) (laddr : BitVec 64) (isWrite isShadowStack : Bool) :
    Decidable (s.DtlbHit laddr isWrite isShadowStack) :=
  inferInstanceAs (Decidable (_ ∧ _))

/-- The entry a walk leaves for the page of `laddr`; `paddr` is A20-masked. -/
def filledEntry (s : Cpu m) (laddr paddr : BitVec 64) (r : WalkResult)
    (isWrite isShadowStack : Bool) : TlbEntry where
  lpf := lpfOf laddr
  ppf := lpfOf paddr
  hostPage := m.hostPage (lpfOf paddr)
  accessBits := grantedBits s.ctl r.combined isWrite isShadowStack
  pkey := r.pkey
  lpfMask := r.lpfMask

theorem filledEntry_sound (s : Cpu m) (laddr paddr : BitVec 64) (r : WalkResult)
    (isWrite isShadowStack : Bool) :
    (filledEntry s laddr (m.applyA20 paddr) r isWrite isShadowStack).Sound m
      (dtlbIndexOf laddr 0) where
  lpf_page := lpfOf_lpfOf laddr
  home := dtlbIndexOf_lpfOf laddr
  ppf_page := lpfOf_lpfOf _
  ppf_a20 := (applyA20_lpfOf _).trans (congrArg lpfOf (applyA20_applyA20 paddr))
  hostPage_eq := rfl

/-- The DTLB fill after a walk that returned `r`. -/
def Cpu.fillDtlb (s : Cpu m) (laddr : BitVec 64) (r : WalkResult) (isWrite isShadowStack : Bool) :
    Cpu m :=
  let dtlb := s.dtlb.setEntry (dtlbIndexOf laddr 0)
    (filledEntry s laddr (m.applyA20 r.paddr) r isWrite isShadowStack)
    fun _ => filledEntry_sound s laddr r.paddr r isWrite isShadowStack
  { s with dtlb := { dtlb with splitLarge := dtlb.splitLarge || 0xFFF#32 < r.lpfMask } }

/-- `translate_data_access`, after the 32-bit mask outside long mode. -/
def translateMasked (isWrite isShadowStack : Bool) : CpuM m (BitVec 64) := do
  let s ← get
  if ¬ s.ctl.pg then return m.applyA20 laddr
  else if s.DtlbHit laddr isWrite isShadowStack then
    return (s.dtlb.entryOf laddr 0).ppf ||| pageOffset laddr
  else
    set { s with dtlb := s.dtlb.invalidateSlot laddr 0 }
    let r ← pageWalkForDtlb laddr s.userPl isWrite isShadowStack
    modify fun s => s.fillDtlb laddr r isWrite isShadowStack
    return m.applyA20 r.paddr

/-- The linear address the processor uses: 32 bits outside long mode. -/
def Cpu.maskLaddr (s : Cpu m) (laddr : BitVec 64) : BitVec 64 :=
  if s.longMode then laddr else laddr &&& 0xFFFFFFFF#64

/-- `translate_data_access`. -/
def translateDataAccess (isWrite isShadowStack : Bool) : CpuM m (BitVec 64) := do
  translateMasked ((← get).maskLaddr laddr) isWrite isShadowStack

/-- `translate_data_read`. -/
def translateDataRead : CpuM m (BitVec 64) :=
  translateDataAccess laddr false false

/-- `translate_data_write`. -/
def translateDataWrite : CpuM m (BitVec 64) :=
  translateDataAccess laddr true false

end RustyBox
