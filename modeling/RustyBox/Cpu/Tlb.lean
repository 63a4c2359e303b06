-- SUMMARY: The direct-mapped data TLB.
import RustyBox.Cpu.Machine

/-!
# The data TLB

2048 direct-mapped entries. A valid entry sits in the slot of its own linear page,
caches an A20-masked page frame, and caches as host page exactly the RAM page of that
frame; `Dtlb` carries these facts, so every table that can be built has them.
-/

namespace RustyBox

/-- `LPF_MASK`. -/
def lpfMask : BitVec 64 := 0xFFFFFFFFFFFFF000#64

/-- `lpf_of`. -/
def lpfOf (laddr : BitVec 64) : BitVec 64 := laddr &&& lpfMask

/-- `laddr & 0xFFF`. -/
def pageOffset (laddr : BitVec 64) : BitVec 64 := laddr &&& 0xFFF#64

/-- `BX_INVALID_TLB_ENTRY`. -/
def invalidTlbEntry : BitVec 64 := 0xFFFFFFFFFFFFFFFF#64

/-- `TLBEntry<RamPage>`; `hostPage` is the offset of the page in RAM. -/
structure TlbEntry where
  lpf : BitVec 64
  ppf : BitVec 64
  hostPage : Option Nat
  accessBits : BitVec 32
  pkey : BitVec 4
  lpfMask : BitVec 32
  deriving DecidableEq

namespace TlbEntry

/-- `TLBEntry::INVALID`. -/
def invalid : TlbEntry := ⟨invalidTlbEntry, 0, none, 0, 0, 0⟩

def Valid (e : TlbEntry) : Prop := e.lpf ≠ invalidTlbEntry

instance (e : TlbEntry) : Decidable e.Valid := inferInstanceAs (Decidable (_ ≠ _))

/-- `TLBEntry::invalidate`. -/
def invalidate (e : TlbEntry) : TlbEntry := { e with lpf := invalidTlbEntry, accessBits := 0 }

theorem not_valid_invalidate (e : TlbEntry) : ¬ e.invalidate.Valid := fun h => h rfl

end TlbEntry

/-- `TLB_GLOBAL_PAGE`. -/
def tlbGlobalPage : BitVec 32 := 0x80000000#32

/-- `BX_DTLB_SIZE`. -/
def dtlbSize : Nat := 2048

/-- `get_index_of`. -/
def dtlbIndexOf (laddr : BitVec 64) (len : Nat) : Fin dtlbSize :=
  ⟨(((laddr + BitVec.ofNat 64 len) &&& 0x7FF000#64) >>> 12).toNat, by
    have hle : ((laddr + BitVec.ofNat 64 len) &&& 0x7FF000#64).toNat ≤ 0x7FF000 :=
      Nat.and_le_right
    rw [BitVec.toNat_ushiftRight, Nat.shiftRight_eq_div_pow]
    unfold dtlbSize
    omega⟩

/-- What every valid entry satisfies. -/
structure TlbEntry.Sound (m : Machine) (slot : Fin dtlbSize) (e : TlbEntry) : Prop where
  lpf_page : lpfOf e.lpf = e.lpf
  home : dtlbIndexOf e.lpf 0 = slot
  ppf_page : lpfOf e.ppf = e.ppf
  ppf_a20 : m.applyA20 e.ppf = e.ppf
  hostPage_eq : e.hostPage = m.hostPage e.ppf

/-- `Tlb<RamPage, BX_DTLB_SIZE>`. -/
structure Dtlb (m : Machine) where
  entries : Fin dtlbSize → TlbEntry
  splitLarge : Bool
  sound : ∀ i, (entries i).Valid → (entries i).Sound m i

namespace Dtlb

variable {m : Machine}

/-- `Tlb::new`. -/
def new : Dtlb m where
  entries _ := .invalid
  splitLarge := false
  sound _ h := absurd rfl h

/-- `entry_of`. -/
def entryOf (t : Dtlb m) (laddr : BitVec 64) (len : Nat) : TlbEntry :=
  t.entries (dtlbIndexOf laddr len)

/-- The table with one slot replaced. -/
def setEntry (t : Dtlb m) (i : Fin dtlbSize) (e : TlbEntry) (h : e.Valid → e.Sound m i) : Dtlb m where
  entries := Function.update t.entries i e
  splitLarge := t.splitLarge
  sound j := by
    by_cases hj : j = i
    · subst hj
      rw [Function.update_self]
      exact h
    · rw [Function.update_of_ne hj]
      exact t.sound j

/-- `invalidate_slot`. -/
def invalidateSlot (t : Dtlb m) (laddr : BitVec 64) (len : Nat) : Dtlb m :=
  t.setEntry (dtlbIndexOf laddr len) (t.entryOf laddr len).invalidate
    fun h => absurd h (TlbEntry.not_valid_invalidate _)

/-- `flush`. -/
def flush (t : Dtlb m) : Dtlb m where
  entries i := (t.entries i).invalidate
  splitLarge := false
  sound _ h := absurd h (TlbEntry.not_valid_invalidate _)

/-- The table with the entries that `drop` selects invalidated, as the scans of
`flush_non_global` and `invlpg` leave it: `split_large` stays while a kept entry is large. -/
def sweep (t : Dtlb m) (drop : TlbEntry → Bool) : Dtlb m where
  entries i := if (t.entries i).Valid ∧ drop (t.entries i) then (t.entries i).invalidate else t.entries i
  splitLarge :=
    let kept := (List.finRange dtlbSize).filter fun i => (t.entries i).Valid ∧ ¬ drop (t.entries i)
    0xFFF#32 < kept.foldl (fun acc i => acc ||| (t.entries i).lpfMask) 0#32
  sound i h := by
    split_ifs at h ⊢
    · exact absurd h (TlbEntry.not_valid_invalidate _)
    · exact t.sound i h

/-- `flush_non_global`. -/
def flushNonGlobal (t : Dtlb m) : Dtlb m :=
  t.sweep fun e => e.accessBits &&& tlbGlobalPage = 0#32

/-- `invlpg`: a scan when large pages are split over several slots, otherwise one slot. -/
def invlpg (t : Dtlb m) (laddr : BitVec 64) : Dtlb m :=
  if t.splitLarge then
    t.sweep fun e => laddr &&& ~~~(e.lpfMask.setWidth 64) = e.lpf &&& ~~~(e.lpfMask.setWidth 64)
  else if lpfOf (t.entryOf laddr 0).lpf = lpfOf laddr then t.invalidateSlot laddr 0
  else t

end Dtlb

end RustyBox
