-- SUMMARY: The host-page fast path stays inside the page its TLB entry grants.
import RustyBox.Cpu.Access
import RustyBox.Cpu.PageRights

/-!
# The fast path stays in its page

A linear access probes the slot of its last byte and compares the tag with the page of its
first. An entry only ever sits in the slot of its own page, and neighbouring pages have
different slots, so a hit puts both bytes on that page.
-/

namespace RustyBox

open BitVec

variable {m : Machine}

/-! ## Slots -/

variable {n : Nat} (laddr : BitVec 64)

theorem dtlbIndexOf_val (hn : n < 2 ^ 64) :
    (dtlbIndexOf laddr n).val = (laddr.toNat + n) % 2 ^ 64 / 0x1000 % 2048 := by
  have hmask : 0x7FF000#64 >>> 12 = BitVec.ofNat 64 (2 ^ 11 - 1) := by decide
  show (((laddr + BitVec.ofNat 64 n) &&& 0x7FF000#64) >>> 12).toNat = _
  rw [ushiftRight_and_distrib, hmask, toNat_and, toNat_ofNat,
    Nat.mod_eq_of_lt (by decide), Nat.and_two_pow_sub_one_eq_mod, toNat_ushiftRight,
    Nat.shiftRight_eq_div_pow, toNat_add, toNat_ofNat, Nat.mod_eq_of_lt hn]

theorem toNat_pageOffset : (pageOffset laddr).toNat = laddr.toNat % 0x1000 := by
  rw [pageOffset, toNat_and, show (0xFFF#64).toNat = 2 ^ 12 - 1 by decide,
    Nat.and_two_pow_sub_one_eq_mod]

theorem toNat_lpfOf : (lpfOf laddr).toNat = laddr.toNat - laddr.toNat % 0x1000 := by
  have hsum : lpfOf laddr + pageOffset laddr = laddr := by
    unfold lpfOf pageOffset
    rw [add_eq_or_of_and_eq_zero, ← and_or_distrib_left,
      show lpfMask ||| 0xFFF#64 = BitVec.allOnes 64 by decide, BitVec.and_allOnes]
    rw [BitVec.and_assoc, ← BitVec.and_assoc _ laddr, BitVec.and_comm _ laddr,
      BitVec.and_assoc laddr, show lpfMask &&& 0xFFF#64 = 0#64 by decide, BitVec.and_zero,
      BitVec.and_zero]
  have hnat := congrArg BitVec.toNat hsum
  rw [toNat_add, toNat_pageOffset] at hnat
  omega

theorem lpfOf_ne_invalid : lpfOf laddr ≠ invalidTlbEntry := by
  intro h
  have hnat := congrArg BitVec.toNat h
  rw [toNat_lpfOf, show invalidTlbEntry.toNat = 2 ^ 64 - 1 by decide] at hnat
  omega

/-- The first and the last byte of a short access select the same slot only when they are on
the same page. -/
theorem inPage_of_slot {laddr : BitVec 64} (hpos : 1 ≤ n) (hn : n ≤ 8)
    (h : dtlbIndexOf laddr 0 = dtlbIndexOf laddr (n - 1)) : InPage laddr n := by
  have hval := congrArg Fin.val h
  rw [dtlbIndexOf_val _ (by decide), dtlbIndexOf_val _ (by omega)] at hval
  unfold InPage
  rw [toNat_pageOffset]
  omega

theorem lpfOf_add {laddr : BitVec 64} {i : Nat} (h : InPage laddr n) (hi : i < n) :
    lpfOf (laddr + BitVec.ofNat 64 i) = lpfOf laddr := by
  unfold InPage at h
  rw [toNat_pageOffset] at h
  apply eq_of_toNat_eq
  rw [toNat_lpfOf, toNat_lpfOf, toNat_add, toNat_ofNat]
  omega

/-! ## Hits -/

theorem hostPage_bounds {ppf : BitVec 64} {page : Nat} (h : m.hostPage ppf = some page) :
    page % 0x1000 = 0 ∧ page + 0x1000 ≤ m.hostLen := by
  obtain ⟨hspan, hmod⟩ := Option.filter_eq_some_iff.mp h
  obtain ⟨-, -, hle, rfl⟩ :=
    Machine.guestRamSpan_eq_some.mp (Machine.walkRamOffset_eq_some.mp hspan).2
  exact ⟨by simpa using hmod, hle⟩

/-- What a probe that hits found. -/
structure Cpu.HitSpec (s : Cpu m) (laddr : BitVec 64) (n : Nat) (isWrite : Bool) (hit : HostHit) :
    Prop where
  inPage : InPage laddr n
  lpf : (s.dtlb.entryOf laddr 0).lpf = lpfOf laddr
  granted : (s.dtlb.entryOf laddr 0).accessBits &&& neededBit s.userPl isWrite false &&&
    (if isWrite then s.wrPkey (s.dtlb.entryOf laddr 0).pkey
      else s.rdPkey (s.dtlb.entryOf laddr 0).pkey) ≠ 0#32
  host : ∃ page, (s.dtlb.entryOf laddr 0).hostPage = some page ∧
    hit.offset = page + (pageOffset laddr).toNat
  paddr : hit.paddr = (s.dtlb.entryOf laddr 0).ppf ||| pageOffset laddr
  sound : (s.dtlb.entryOf laddr 0).Sound m (dtlbIndexOf laddr 0)

theorem hostHit_spec {s : Cpu m} {laddr : BitVec 64} {isWrite : Bool} {hit : HostHit} (hpos : 1 ≤ n)
    (hn : n ≤ 8) (h : s.hostHit laddr n isWrite = some hit) : s.HitSpec laddr n isWrite hit := by
  unfold Cpu.hostHit at h
  rw [Option.ite_none_right_eq_some] at h
  obtain ⟨⟨hlpf, hbits⟩, h⟩ := h
  obtain ⟨page, hpage, rfl⟩ := Option.map_eq_some_iff.mp h
  have hvalid : (s.dtlb.entryOf laddr (n - 1)).Valid := by
    rw [TlbEntry.Valid, hlpf]
    exact lpfOf_ne_invalid laddr
  have hsound : (s.dtlb.entryOf laddr (n - 1)).Sound m _ := s.dtlb.sound _ hvalid
  have hslot : dtlbIndexOf laddr 0 = dtlbIndexOf laddr (n - 1) := by
    have hhome := hsound.home
    rwa [hlpf, dtlbIndexOf_lpfOf] at hhome
  have hentry : s.dtlb.entryOf laddr (n - 1) = s.dtlb.entryOf laddr 0 :=
    congrArg s.dtlb.entries hslot.symm
  rw [hentry] at hlpf hbits hpage hsound
  rw [← hslot] at hsound
  exact ⟨inPage_of_slot hpos hn hslot, hlpf, hbits, ⟨page, hpage, rfl⟩, by rw [hentry], hsound⟩

/-! ## Every table -/

/-- What can happen to the data TLB. A fill takes the rights its walk found. -/
inductive TlbOp (m : Machine)
  | fill (s : Cpu m) (laddr : BitVec 64) (r : WalkResult) (isWrite isShadowStack : Bool)
  | invalidateSlot (laddr : BitVec 64) (len : Nat)
  | flush
  | flushNonGlobal
  | invlpg (laddr : BitVec 64)

def TlbOp.apply (t : Dtlb m) : TlbOp m → Dtlb m
  | .fill s laddr r isWrite isShadowStack =>
    ({ s with dtlb := t }.fillDtlb laddr r isWrite isShadowStack).dtlb
  | .invalidateSlot laddr len => t.invalidateSlot laddr len
  | .flush => t.flush
  | .flushNonGlobal => t.flushNonGlobal
  | .invlpg laddr => t.invlpg laddr

/-- A valid entry is in the slot of its own page, and the page it caches is in RAM. -/
def Dtlb.EntriesHome (t : Dtlb m) : Prop :=
  ∀ i, (t.entries i).Valid → dtlbIndexOf (t.entries i).lpf 0 = i ∧
    ∀ page, (t.entries i).hostPage = some page → page % 0x1000 = 0 ∧ page + 0x1000 ≤ m.hostLen

theorem entriesHome (t : Dtlb m) : t.EntriesHome := by
  intro i hvalid
  have hsound := t.sound i hvalid
  refine ⟨hsound.home, fun page hpage => ?_⟩
  rw [hsound.hostPage_eq] at hpage
  exact hostPage_bounds hpage

/-- The bytes of a fast-path access are those of one linear page and of one page of RAM. -/
structure StaysInPage (m : Machine) (laddr : BitVec 64) (n : Nat) (hit : HostHit) : Prop where
  linear : ∀ i < n, lpfOf (laddr + BitVec.ofNat 64 i) = lpfOf laddr
  host : ∃ page, page % 0x1000 = 0 ∧ page + 0x1000 ≤ m.hostLen ∧ page ≤ hit.offset ∧
    hit.offset + n ≤ page + 0x1000

theorem staysInPage_hit {s : Cpu m} {laddr : BitVec 64} {isWrite : Bool} {hit : HostHit}
    (hpos : 1 ≤ n) (hn : n ≤ 8) (h : s.hostHit laddr n isWrite = some hit) :
    StaysInPage m laddr n hit := by
  have hspec := hostHit_spec hpos hn h
  obtain ⟨page, hpage, hoff⟩ := hspec.host
  have hbounds := hostPage_bounds (hspec.sound.hostPage_eq.symm.trans hpage)
  have hin : (pageOffset laddr).toNat + n ≤ 0x1000 := hspec.inPage
  refine ⟨fun i hi => lpfOf_add hspec.inPage hi, page, hbounds.1, hbounds.2, ?_, ?_⟩ <;> omega

/-- The table that a sequence of operations makes of the empty one. -/
def Dtlb.after (ops : List (TlbOp m)) : Dtlb m := ops.foldl TlbOp.apply .new

end RustyBox
