-- SUMMARY: The invariant of a trace cache, kept by fills, writes and flushes.
import RustyBox.Cpu.TraceFill
import RustyBox.Lib.BitSet
import Mathlib.Data.Nat.Bitwise

/-!
# Coherence of a trace cache

Every valid entry has a footprint: the bytes of the lines that were marked for it. As long as
no unseen event hits the entry, its footprint is stamped and its trace holds on the footprint.
A write outside the footprint changes neither; a write to a line of it queues an event that
hits the entry, and the scan for that event flushes it.

Two things about fills are not guaranteed by the code and have to be assumed (`FillSound`). An
instruction that the decoder rejects is recorded with length one, so only the line of its first
byte is marked, although the bytes that made it an error may be in the next line. And a trace
across a page boundary is always recorded as the last line of one page and the first of
another.
-/

namespace RustyBox

open Lib Function BitVec Nat ICache

/-! ## The stamps -/

/-- The lines of all bytes in `F` are stamped. -/
def SmcTable.Stamped (t : SmcTable) (F : Set Nat) : Prop :=
  ∀ b ∈ F, (t.stamps (smcPageIndex b)).getLsbD (b % 4096 / 128)

theorem smcPageIndex_congr {a b : Nat} (h : b / 4096 = a / 4096) :
    smcPageIndex b = smcPageIndex a := by
  unfold smcPageIndex smcStampEntries
  omega

namespace SmcTable

variable {t : SmcTable} {F G : Set Nat}

theorem Stamped.mark (h : t.Stamped F) (pAddr : Nat) (mask : BitVec 32) :
    (t.smcMarkIcacheMask pAddr mask).Stamped F := by
  intro b hb
  show (update t.stamps _ _ _).getLsbD _
  by_cases hidx : smcPageIndex b = smcPageIndex pAddr
  · rw [hidx, update_self, getLsbD_or, ← hidx, h b hb, Bool.true_or]
  · rw [update_of_ne hidx]
    exact h b hb

theorem stamped_mark (t : SmcTable) (pAddr : Nat) (mask : BitVec 32) :
    (t.smcMarkIcacheMask pAddr mask).Stamped (lineBytes pAddr mask) := by
  intro b hb
  show (update t.stamps _ _ _).getLsbD _
  rw [smcPageIndex_congr hb.1, update_self, getLsbD_or, hb.2, Bool.or_true]

end SmcTable

theorem getLsbD_lowLines {count k : Nat} (hcount : count < 32) (hk : k < count) :
    (1#32 <<< count - 1#32).getLsbD k = true := by
  have hall : ∀ count < 32, ∀ k < count, (1#32 <<< count - 1#32).getLsbD k = true := by
    decide +kernel
  exact hall count hcount k hk

/-- The mask of a write has the line of every byte written. -/
theorem getLsbD_smcCacheLineMask {pAddr len b : Nat} (hfits : pAddr % 4096 + len ≤ 4096)
    (hlo : pAddr ≤ b) (hhi : b < pAddr + len) :
    (smcCacheLineMask pAddr len).getLsbD (b % 4096 / 128) := by
  unfold smcCacheLineMask
  rw [if_neg (by omega)]
  dsimp only
  generalize hfirst : pAddr % 2 ^ 12 / 2 ^ 7 = first
  rw [getLsbD_shiftLeft]
  have hlt : b % 4096 / 128 < 32 := by omega
  have hge : ¬ b % 4096 / 128 < first := by omega
  simp only [hlt, hge]
  split
  · rw [getLsbD_allOnes]
    exact decide_eq_true (by omega)
  · exact getLsbD_lowLines (by omega) (by omega)

/-! ## Entries -/

/-- The bytes of the lines marked for an entry at `a`. -/
def footprint (a : Nat) (e : ICacheEntry) : Set Nat :=
  match e.split with
  | none => lineBytes a e.traceMask
  | some s => lineBytes a 0x80000000 ∪ lineBytes s.addr 1

/-- The scan for the event flushes the entry. -/
def Hits (ev : PendingSmc) (a : Nat) (e : ICacheEntry) : Prop :=
  e.split = none → smcPageIndex a = smcPageIndex ev.pAddr ∧ e.traceMask &&& ev.mask ≠ 0

theorem and_ne_zero_of_getLsbD {x y : BitVec 32} {k : Nat} (hx : x.getLsbD k) (hy : y.getLsbD k) :
    x &&& y ≠ 0 := by
  intro h
  have := congrArg (fun v : BitVec 32 => v.getLsbD k) h
  simp [hx, hy] at this

namespace SmcTable

variable {t : SmcTable}

/-- A write to a stamped line queues an event; any other leaves the table as it was. -/
theorem decWriteStamp_of_hit {pAddr len k : Nat} (hstamp : (t.stamps (smcPageIndex pAddr)).getLsbD k)
    (hmask : (smcCacheLineMask pAddr len).getLsbD k) :
    (t.smcDecWriteStamp pAddr len).recorded = t.recorded ++ [⟨pAddr, smcCacheLineMask pAddr len⟩] := by
  unfold smcDecWriteStamp
  have hand := and_ne_zero_of_getLsbD hstamp hmask
  rw [if_neg (fun h => hand (by simp [h])), if_neg hand]
  rfl

theorem Stamped.decWriteStamp {F : Set Nat} (h : t.Stamped F) {pAddr len : Nat}
    (hmiss : ∀ b ∈ F, smcPageIndex b = smcPageIndex pAddr →
      ¬ (smcCacheLineMask pAddr len).getLsbD (b % 4096 / 128)) :
    (t.smcDecWriteStamp pAddr len).Stamped F := by
  unfold smcDecWriteStamp
  dsimp only
  split_ifs
  · exact h
  · exact h
  · intro b hb
    show (update t.stamps _ _ _).getLsbD _
    by_cases hidx : smcPageIndex b = smcPageIndex pAddr
    · have hstamp := h b hb
      rw [hidx] at hstamp
      rw [hidx, update_self, getLsbD_and, hstamp, getLsbD_not,
        Bool.eq_false_iff.mpr (hmiss b hb hidx)]
      simp
      omega
    · rw [update_of_ne hidx]
      exact h b hb

/-- A write either queues an event that hits the entry, or leaves its footprint alone. -/
theorem Stamped.write {a : Nat} {e : ICacheEntry} (h : t.Stamped (footprint a e)) (w : PageWrite)
    (mem : Nat → BitVec 8) :
    (∃ ev, (t.smcDecWriteStamp w.pAddr w.data.length).recorded = t.recorded ++ [ev] ∧ Hits ev a e) ∨
      (t.smcDecWriteStamp w.pAddr w.data.length).Stamped (footprint a e) ∧
        Set.EqOn (w.store mem) mem (footprint a e) := by
  by_cases hhit : ∃ b ∈ footprint a e, smcPageIndex b = smcPageIndex w.pAddr ∧
      (smcCacheLineMask w.pAddr w.data.length).getLsbD (b % 4096 / 128)
  · obtain ⟨b, hb, hidx, hmask⟩ := hhit
    refine .inl ⟨_, decWriteStamp_of_hit (hidx ▸ h b hb) hmask, fun hsplit => ?_⟩
    rw [footprint, hsplit] at hb
    exact ⟨(smcPageIndex_congr hb.1).symm.trans hidx, and_ne_zero_of_getLsbD hb.2 hmask⟩
  · push Not at hhit
    refine .inr ⟨h.decWriteStamp hhit, fun b hb => if_neg ?_⟩
    rintro ⟨hlo, hhi⟩
    have hfits := w.fits
    exact hhit b hb (smcPageIndex_congr (by omega)) (getLsbD_smcCacheLineMask w.fits hlo hhi)

end SmcTable

/-! ## The cache -/

theorem icacheHash_mode_injective {a : Nat} {mode mode' : FetchMode}
    (h : icacheHash a mode = icacheHash a mode') : mode = mode' := by
  have hmod : ∀ m : FetchMode, (a ^^^ m.toNat) % 2 ^ 16 = a % 2 ^ 16 ^^^ m.toNat := fun m => by
    rw [xor_mod_two_pow, mod_eq_of_lt (by omega : m.toNat < 2 ^ 16)]
  have hxor := (hmod mode).symm.trans (h.trans (hmod mode'))
  exact eq_of_toNat_eq (xor_right_injective hxor)

/-- The mode does not move an entry out of the 128 entries of its line. -/
theorem icacheHash_div (a : Nat) (mode : FetchMode) :
    icacheHash a mode / 128 = a % 65536 / 128 := by
  have hdiv : (a ^^^ mode.toNat) / 2 ^ 7 = a / 2 ^ 7 := by
    rw [Nat.xor_div_two_pow, Nat.div_eq_of_lt mode.isLt, Nat.xor_zero]
  unfold icacheHash icacheEntries
  omega

/-- The scan reaches the entries of every trace that starts in the written page, up to the last
line written. -/
theorem scanned_icacheHash {ev : PendingSmc} {a k : Nat} {mode : FetchMode}
    (hpage : smcPageIndex a = smcPageIndex ev.pAddr) (hk : ev.mask.getLsbD k)
    (hge : a % 4096 / 128 ≤ k) : Scanned ev (icacheHash a mode) := by
  have hdiv := icacheHash_div a mode
  have hstart : icacheHash (ev.pAddr / 4096 * 4096) 0 = a % 65536 / 4096 * 4096 := by
    unfold smcPageIndex smcStampEntries at hpage
    show (_ ^^^ 0) % icacheEntries = _
    rw [Nat.xor_zero]
    unfold icacheEntries
    omega
  have hpow : 2 ^ (a % 4096 / 128) ≤ ev.mask.toNat :=
    le_trans (Nat.pow_le_pow_right (by decide) hge) (ge_two_pow_of_testBit hk)
  refine ⟨a % 4096 / 128, by omega, hpow, ?_, ?_⟩ <;> rw [hstart] <;> omega

variable {T : OpcodeTables} {mem : Nat → BitVec 8} {t t' : SmcTable} {unseen : List PendingSmc}
  {c c' : ICache} {a : Nat} {mode : FetchMode} {e : ICacheEntry}

/-- `E` holds of every entry that a lookup can find. -/
def EntryWise (E : ICache → Nat → FetchMode → ICacheEntry → Prop) (c : ICache) : Prop :=
  ∀ a mode, (c.entry (icacheHash a mode)).pAddr = some a →
    E c a mode (c.entry (icacheHash a mode))

namespace EntryWise

variable {E E' : ICache → Nat → FetchMode → ICacheEntry → Prop}

theorem of_invalid (h : ∀ idx, (c.entry idx).pAddr = none) : EntryWise E c := by
  intro a mode ha
  rw [h] at ha
  exact nomatch ha

/-- Entries are left alone, flushed, or made anew. -/
theorem change (h : EntryWise E c)
    (hentry : ∀ a mode, (c'.entry (icacheHash a mode)).pAddr = some a →
      c'.entry (icacheHash a mode) = c.entry (icacheHash a mode) ∧
          (E c a mode (c.entry (icacheHash a mode)) → E' c' a mode (c.entry (icacheHash a mode))) ∨
        E' c' a mode (c'.entry (icacheHash a mode))) :
    EntryWise E' c' := by
  intro a mode ha
  rcases hentry a mode ha with ⟨heq, hkeep⟩ | hnew
  · rw [heq] at ha ⊢
    exact hkeep (h a mode ha)
  · exact hnew

/-- Entries are only flushed. -/
theorem shrink (h : EntryWise E c)
    (hentry : ∀ idx, c'.entry idx = c.entry idx ∨ (c'.entry idx).pAddr = none)
    (hkeep : ∀ a mode e, E c a mode e → E' c' a mode e) : EntryWise E' c' := by
  refine h.change fun a mode ha => .inl ?_
  rcases hentry (icacheHash a mode) with heq | hnone
  · exact ⟨heq, hkeep _ _ _⟩
  · rw [hnone] at ha
    exact nomatch ha

/-- A new trace for `a` in its entry. No other address and mode share it. -/
theorem put (h : EntryWise E c)
    (hentry : c'.entry = update c.entry (icacheHash a mode) e) (ha : e.pAddr = some a)
    (hkeep : ∀ a mode e, E c a mode e → E' c' a mode e) (hnew : E' c' a mode e) :
    EntryWise E' c' := by
  refine h.change fun a' mode' ha' => ?_
  rw [hentry] at ha' ⊢
  by_cases hidx : icacheHash a' mode' = icacheHash a mode
  · rw [hidx, update_self] at ha' ⊢
    obtain rfl : a = a' := Option.some.inj (ha.symm.trans ha')
    rw [icacheHash_mode_injective hidx]
    exact .inr hnew
  · exact .inl ⟨update_of_ne hidx _ _, hkeep _ _ _⟩

end EntryWise

variable (T) in
/-- What holds of a valid entry for `a`, with the events `unseen` still to be applied. -/
structure EntryOk (mem : Nat → BitVec 8) (t : SmcTable) (unseen : List PendingSmc) (c : ICache)
    (a : Nat) (mode : FetchMode) (e : ICacheEntry) : Prop where
  inPool : e.mpoolStartIdx + e.tlen ≤ c.mpindex
  mask_ge : e.split = none → ∀ k, e.traceMask.getLsbD k → a % 4096 / 128 ≤ k
  split : e.split ≠ none → 4082 ≤ a % 4096 ∧ c.IsSplitEntry (icacheHash a mode)
  fresh : (∃ ev ∈ unseen, Hits ev a e) ∨ t.Stamped (footprint a e) ∧
    HoldsOn (footprint a e) (fun mem => TraceAt T mode mem a e.split (c.trace e)) mem

variable (T) in
def Coherent (mem : Nat → BitVec 8) (t : SmcTable) (unseen : List PendingSmc) (c : ICache) : Prop :=
  ∀ a mode, (c.entry (icacheHash a mode)).pAddr = some a →
    EntryOk T mem t unseen c a mode (c.entry (icacheHash a mode))

theorem coherent_of_invalid (h : ∀ idx, (c.entry idx).pAddr = none) : Coherent T mem t unseen c :=
  EntryWise.of_invalid h

theorem ICache.trace_congr (hin : e.mpoolStartIdx + e.tlen ≤ c.mpindex)
    (hpool : ∀ k < c.mpindex, c'.mpool k = c.mpool k) : c'.trace e = c.trace e := by
  refine List.map_congr_left fun k hk => hpool _ ?_
  have := List.mem_range.mp hk
  omega

/-- An entry that is left alone stays as it was: stamps are only added and instructions only
put behind the pool's end. -/
theorem EntryOk.keep (h : EntryOk T mem t unseen c a mode e)
    (hstamp : ∀ F, t.Stamped F → t'.Stamped F) (hindex : c.mpindex ≤ c'.mpindex)
    (hpool : ∀ k < c.mpindex, c'.mpool k = c.mpool k)
    (hring : c.IsSplitEntry (icacheHash a mode) → c'.IsSplitEntry (icacheHash a mode)) :
    EntryOk T mem t' unseen c' a mode e where
  inPool := le_trans h.inPool hindex
  mask_ge := h.mask_ge
  split hsplit := ⟨(h.split hsplit).1, hring (h.split hsplit).2⟩
  fresh := by
    rw [trace_congr h.inPool hpool]
    exact h.fresh.imp_right fun ⟨hs, hon⟩ => ⟨hstamp _ hs, hon⟩

/-! `commit_page_split_trace` flushes the entry that its slot of the ring held. -/

namespace ICache

/-- The slot that is used next refers to the entry. -/
def Evicted (c : ICache) (idx : Nat) : Prop :=
  (c.pageSplitIndex c.nextPageSplitIndex).map Prod.snd = some idx

variable {idx' : Nat}

theorem entry_commitPageSplitTrace_of_evicted (h : c.Evicted idx') (ppf idx : Nat) :
    ((c.commitPageSplitTrace ppf idx).entry idx').pAddr = none := by
  obtain ⟨⟨_, old⟩, hslot, rfl⟩ := Option.map_eq_some_iff.mp h
  unfold commitPageSplitTrace
  dsimp only
  rw [hslot]
  show (update c.entry old (c.entry old).flushSmc old).pAddr = none
  rw [update_self]
  rfl

theorem entry_commitPageSplitTrace_of_not_evicted (h : ¬ c.Evicted idx') (ppf idx : Nat) :
    (c.commitPageSplitTrace ppf idx).entry idx' = c.entry idx' := by
  unfold commitPageSplitTrace
  dsimp only
  split
  next old hslot =>
    refine update_of_ne ?_ _ _
    rintro rfl
    exact h (by rw [Evicted, hslot]; rfl)
  · rfl

theorem entry_commitPageSplitTrace (c : ICache) (ppf idx idx' : Nat) :
    (c.commitPageSplitTrace ppf idx).entry idx' = c.entry idx' ∨
      ((c.commitPageSplitTrace ppf idx).entry idx').pAddr = none := by
  by_cases h : c.Evicted idx'
  · exact .inr (entry_commitPageSplitTrace_of_evicted h ppf idx)
  · exact .inl (entry_commitPageSplitTrace_of_not_evicted h ppf idx)

theorem pageSplitIndex_commitPageSplitTrace (c : ICache) (ppf idx : Nat) :
    (c.commitPageSplitTrace ppf idx).pageSplitIndex =
      update c.pageSplitIndex c.nextPageSplitIndex (some (ppf, idx)) := by
  unfold commitPageSplitTrace
  dsimp only
  split <;> rfl

theorem isSplitEntry_commitPageSplitTrace_self (c : ICache) (ppf idx : Nat) :
    (c.commitPageSplitTrace ppf idx).IsSplitEntry idx := by
  refine ⟨c.nextPageSplitIndex, ?_⟩
  rw [pageSplitIndex_commitPageSplitTrace, update_self]
  rfl

theorem IsSplitEntry.commitPageSplitTrace (h : c.IsSplitEntry idx') (hkept : ¬ c.Evicted idx')
    (ppf idx : Nat) : (c.commitPageSplitTrace ppf idx).IsSplitEntry idx' := by
  obtain ⟨slot, hslot⟩ := h
  refine ⟨slot, ?_⟩
  rw [pageSplitIndex_commitPageSplitTrace, update_of_ne]
  · exact hslot
  · rintro rfl
    exact hkept hslot

theorem mpool_commitPageSplitTrace (c : ICache) (ppf idx : Nat) :
    (c.commitPageSplitTrace ppf idx).mpool = c.mpool := by
  unfold commitPageSplitTrace
  dsimp only
  split <;> rfl

theorem mpindex_commitPageSplitTrace (c : ICache) (ppf idx : Nat) :
    (c.commitPageSplitTrace ppf idx).mpindex = c.mpindex := by
  unfold commitPageSplitTrace
  dsimp only
  split <;> rfl

end ICache

namespace Coherent

section

variable (h : Coherent T mem t unseen c)
include h

/-- Entries are left alone, flushed, or made anew. -/
theorem change (hstamp : ∀ F, t.Stamped F → t'.Stamped F)
    (hindex : c.mpindex ≤ c'.mpindex) (hpool : ∀ k < c.mpindex, c'.mpool k = c.mpool k)
    (hentry : ∀ a mode, (c'.entry (icacheHash a mode)).pAddr = some a →
      c'.entry (icacheHash a mode) = c.entry (icacheHash a mode) ∧
          (c.IsSplitEntry (icacheHash a mode) → c'.IsSplitEntry (icacheHash a mode)) ∨
        EntryOk T mem t' unseen c' a mode (c'.entry (icacheHash a mode))) :
    Coherent T mem t' unseen c' := by
  refine EntryWise.change h fun a mode ha => (hentry a mode ha).imp_left ?_
  rintro ⟨heq, hring⟩
  exact ⟨heq, fun hok => hok.keep hstamp hindex hpool hring⟩

theorem mark (hstamp : ∀ F, t.Stamped F → t'.Stamped F) : Coherent T mem t' unseen c :=
  h.change hstamp (le_refl _) (fun _ _ => rfl) fun _ _ _ => .inl ⟨rfl, id⟩

theorem write (w : PageWrite) {unseen' : List PendingSmc} (hsub : unseen ⊆ unseen')
    (hnew : ∀ ev, (t.smcDecWriteStamp w.pAddr w.data.length).recorded = t.recorded ++ [ev] →
      ev ∈ unseen') :
    Coherent T (w.store mem) (t.smcDecWriteStamp w.pAddr w.data.length) unseen' c := by
  intro a mode ha
  have hok := h a mode ha
  refine { hok with fresh := ?_ }
  rcases hok.fresh with ⟨ev, hev, hhits⟩ | ⟨hs, hon⟩
  · exact .inl ⟨ev, hsub hev, hhits⟩
  · rcases hs.write w mem with ⟨ev, hrecorded, hhits⟩ | ⟨hs', heq⟩
    · exact .inl ⟨ev, hnew ev hrecorded, hhits⟩
    · exact .inr ⟨hs', hon.congr heq⟩

theorem breakLinks : Coherent T mem t unseen c.breakLinks := by
  refine h.change (fun _ => id) (le_refl _) (fun _ _ => rfl) fun a mode ha => .inl ?_
  have hentry : c.breakLinks.entry (icacheHash a mode) =
      if c.IsSplitEntry (icacheHash a mode) then (c.entry (icacheHash a mode)).flushSmc
      else c.entry (icacheHash a mode) := rfl
  by_cases hsplit : c.IsSplitEntry (icacheHash a mode)
  · rw [hentry, if_pos hsplit] at ha
    exact nomatch ha
  · exact ⟨by rw [hentry, if_neg hsplit], fun hs => absurd hs hsplit⟩

/-- No entry of a page-split trace is left. -/
theorem split_breakLinks (ha : (c.breakLinks.entry (icacheHash a mode)).pAddr = some a) :
    (c.breakLinks.entry (icacheHash a mode)).split = none := by
  by_contra hsplit
  obtain ⟨slot, hslot⟩ := ((h.breakLinks a mode ha).split hsplit).2
  exact nomatch hslot

end

theorem handleSmcScan {ev : PendingSmc} (h : Coherent T mem t (ev :: unseen) c) :
    Coherent T mem t unseen (c.handleSmcScan ev) := by
  intro a mode ha
  have hentry : (c.handleSmcScan ev).entry (icacheHash a mode) =
      if Scanned ev (icacheHash a mode) ∧
          Meets ev (c.breakLinks.entry (icacheHash a mode)) then
        (c.breakLinks.entry (icacheHash a mode)).flushSmc
      else c.breakLinks.entry (icacheHash a mode) := rfl
  by_cases hflush : Scanned ev (icacheHash a mode) ∧
      Meets ev (c.breakLinks.entry (icacheHash a mode))
  · rw [hentry, if_pos hflush] at ha
    exact nomatch ha
  rw [hentry, if_neg hflush] at ha ⊢
  have hok := h.breakLinks a mode ha
  have hsplit := h.split_breakLinks ha
  refine { inPool := hok.inPool, mask_ge := hok.mask_ge, split := hok.split, fresh := ?_ }
  refine hok.fresh.imp_left ?_
  rintro ⟨ev', hev', hhits⟩
  rcases List.mem_cons.mp hev' with rfl | hold
  · -- An entry that the event hits was flushed.
    obtain ⟨hpage, hmask⟩ := hhits hsplit
    obtain ⟨k, hk, hk'⟩ := Lib.and_ne_zero_iff.mp hmask
    refine absurd ⟨scanned_icacheHash hpage hk' (hok.mask_ge hsplit k hk), ?_, hmask⟩ hflush
    rw [ha, Option.map_some, hpage]
  · exact ⟨ev', hold, hhits⟩

section

variable (h : Coherent T mem t unseen c)
include h

theorem handleSmcScans :
    Coherent T mem t [] ((unseen.map IcacheCall.handleSmcScan).foldl apply c) := by
  induction unseen generalizing c with
  | nil => exact h
  | cons ev unseen ih => exact ih h.handleSmcScan

theorem flush (idx : Nat) (he : e.pAddr = none) : Coherent T mem t unseen (c.setEntry idx e) := by
  refine h.change (fun _ => id) (le_refl _) (fun _ _ => rfl) fun a mode ha => .inl ⟨?_, id⟩
  refine update_of_ne (fun hidx => ?_) _ _
  have ha : (update c.entry idx e (icacheHash a mode)).pAddr = some a := ha
  rw [hidx, update_self, he] at ha
  exact nomatch ha

/-- A new trace for `a` in its entry. -/
theorem put (hstamp : ∀ F, t.Stamped F → t'.Stamped F)
    (hindex : c.mpindex ≤ c'.mpindex) (hpool : ∀ k < c.mpindex, c'.mpool k = c.mpool k)
    (hring : c'.pageSplitIndex = c.pageSplitIndex)
    (hentry : c'.entry = update c.entry (icacheHash a mode) e) (ha : e.pAddr = some a)
    (hok : EntryOk T mem t' unseen c' a mode e) : Coherent T mem t' unseen c' := by
  refine EntryWise.put h hentry ha (fun a' mode' e' hold => ?_) hok
  refine hold.keep hstamp hindex hpool ?_
  unfold IsSplitEntry
  rw [hring]
  exact id

theorem makeRoom : Coherent T mem t unseen c.makeRoom := by
  unfold ICache.makeRoom
  split
  · exact coherent_of_invalid fun _ => rfl
  · exact h

theorem allocTrace (r : FillRequest) : Coherent T mem t unseen (c.allocTrace r) := by
  refine h.put (fun _ => id) (le_refl _) (fun _ _ => rfl) rfl rfl rfl ?_
  refine ⟨le_refl _, fun _ k hk => ?_, fun hsplit => absurd rfl hsplit, .inr ⟨?_, ?_⟩⟩
  · simp at hk
  · rintro b ⟨_, hb⟩
    simp at hb
  · exact fun _ _ => trivial

end

variable {f : Filling}

/-- A trace of which the loop recorded every instruction. -/
theorem complete (h : Coherent T mem t unseen c) (hf : Recorded T mode mem c c.mpindex a f) :
    Coherent T mem (t.smcMarkIcacheMask f.pos f.mask) unseen
      { c.setEntry (icacheHash a mode) ⟨some a, f.mask, f.tlen, c.mpindex, none⟩ with
        mpool := f.mpool, mpindex := c.mpindex + f.tlen } := by
  refine h.put (fun _ hs => hs.mark _ _) (le_add_right _ _) hf.pool rfl rfl rfl ?_
  refine ⟨le_refl _, fun _ => hf.mask_ge, fun hsplit => absurd rfl hsplit, .inr ⟨?_, hf.trace⟩⟩
  show SmcTable.Stamped _ (lineBytes a f.mask)
  rw [← lineBytes_congr hf.page]
  exact t.stamped_mark _ _

theorem trace_copyTrace {start : Nat} (hpool : ∀ k < start, f.mpool k = c.mpool k)
    (hin : e.mpoolStartIdx + e.tlen ≤ start) :
    (List.range (f.tlen + e.tlen)).map (fun k =>
        copyTrace f.mpool e.mpoolStartIdx (start + f.tlen) e.tlen (start + k)) =
      f.items start ++ c.trace e := by
  rw [List.range_add, List.map_append, List.map_map]
  congr 1
  · refine List.map_congr_left fun k hk => if_neg ?_
    have := List.mem_range.mp hk
    omega
  · refine List.map_congr_left fun k hk => ?_
    have hk := List.mem_range.mp hk
    show copyTrace _ _ _ _ (start + (f.tlen + k)) = _
    rw [copyTrace, if_pos (by omega), show start + (f.tlen + k) - (start + f.tlen) = k by omega]
    exact hpool _ (by omega)

/-- A trace that ends in a copy of the trace found where the loop was. That one is not split:
its address is at least fifteen bytes before the end of the page. -/
theorem merged (h : Coherent T mem t unseen c) (hf : InLoop T mode mem c c.mpindex a f)
    (he : c.mergeSource mode f.pos f.tlen = some e) (hroom : 15 ≤ f.remaining) :
    Coherent T mem (t.smcMarkIcacheMask f.pos (e.traceMask ||| f.mask)) unseen
      { c.setEntry (icacheHash a mode)
          ⟨some a, e.traceMask ||| f.mask, f.tlen + e.tlen, c.mpindex, none⟩ with
        mpool := copyTrace f.mpool e.mpoolStartIdx (c.mpindex + f.tlen) e.tlen
        mpindex := c.mpindex + f.tlen + e.tlen } := by
  obtain ⟨hfound, ⟨⟩⟩ := Option.ite_none_right_eq_some.mp he
  have hsrc := h f.pos mode hfound.1
  have hpage := hf.page
  have hfits := hf.fits
  have hle := hf.remaining_le
  have hpos := hf.le_pos
  have hsplit : (c.entry (icacheHash f.pos mode)).split = none := by
    by_contra hsplit
    have := (hsrc.split hsplit).1
    omega
  refine h.put (fun _ hs => hs.mark _ _) (by dsimp only; omega) (fun k hk => ?_) rfl rfl rfl ?_
  · exact (if_neg (by omega)).trans (hf.pool k hk)
  refine ⟨by dsimp only; omega, fun _ k hk => ?_, fun hsplit => absurd rfl hsplit, ?_⟩
  · rcases (Bool.or_eq_true _ _).mp ((getLsbD_or ..).symm.trans hk) with hold | hnew
    · have := hsrc.mask_ge hsplit k hold
      omega
    · exact hf.mask_ge k hnew
  rcases hsrc.fresh with ⟨ev, hev, hhits⟩ | ⟨_, hon⟩
  · refine .inl ⟨ev, hev, fun _ => ?_⟩
    obtain ⟨hidx, hmask⟩ := hhits hsplit
    obtain ⟨k, hk, hk'⟩ := Lib.and_ne_zero_iff.mp hmask
    refine ⟨(smcPageIndex_congr hpage).symm.trans hidx, and_ne_zero_of_getLsbD ?_ hk'⟩
    simp [hk]
  · refine .inr ⟨?_, ?_⟩
    · show SmcTable.Stamped _ (lineBytes a _)
      rw [← lineBytes_congr hf.page]
      exact t.stamped_mark _ _
    · rw [footprint, hsplit] at hon
      rw [lineBytes_congr hpage] at hon
      refine ((hon.mono (lineBytes_left _ _ _)).and (hf.trace.mono (lineBytes_right _ _ _))).imp ?_
      rintro mem ⟨hold, hnew⟩
      show TraceAt T mode mem a none (List.map _ _)
      rw [trace_copyTrace hf.pool hsrc.inPool, traceAt_append, ← hf.pos_eq]
      exact ⟨hnew, hold⟩

/-- The two parts of a split instruction lie in the two lines that are marked for it. -/
theorem holdsOn_split {r : FillRequest} {addr len : Nat} {item : TraceItem}
    (hpage : 4082 ≤ r.pAddr % 4096) (hnext : addr % 4096 + len ≤ 128)
    (hdecode : normalizeDecodeResult (fetchDecode T mode.decodeMode
      (bytesAt mem r.pAddr r.remaining ++ bytesAt mem addr len)) = .ok item) :
    HoldsOn (lineBytes r.pAddr 0x80000000 ∪ lineBytes addr 1)
      (fun mem => TraceAt T mode mem r.pAddr (some ⟨r.remaining, addr, len⟩) [item]) mem := by
  intro mem' heq
  have hfits := r.avail_le
  have hle := r.remaining_le
  have hfirst : bytesAt mem' r.pAddr r.remaining = bytesAt mem r.pAddr r.remaining :=
    bytesAt_congr fun k hk => heq (.inl ⟨by omega, by
      rw [show (r.pAddr + k) % 4096 / 128 = 31 by omega]
      decide⟩)
  have hsecond : bytesAt mem' addr len = bytesAt mem addr len :=
    bytesAt_congr fun k hk => heq (.inr ⟨by omega, by
      rw [show (addr + k) % 4096 / 128 = 0 by omega]
      decide⟩)
  refine ⟨fun more => normalize_append ?_ more, trivial⟩
  show normalizeDecodeResult (fetchDecode T mode.decodeMode
    (bytesAt mem' r.pAddr r.remaining ++ bytesAt mem' addr len)) = _
  rw [hfirst, hsecond]
  exact hdecode

/-- A page-split trace: the ring has it, and what the ring no longer has is flushed. -/
theorem split (h : Coherent T mem t unseen c) {r : FillRequest} {addr len : Nat} {item : TraceItem}
    (hpage : 4082 ≤ r.pAddr % 4096) (hnext : addr % 4096 + len ≤ 128)
    (hdecode : normalizeDecodeResult (fetchDecode T r.mode.decodeMode
      (bytesAt mem r.pAddr r.remaining ++ bytesAt mem addr len)) = .ok item) :
    Coherent T mem ((t.smcMarkIcacheMask r.pAddr 0x80000000).smcMarkIcacheMask addr 1) unseen
      (({ c with mpool := update c.mpool c.mpindex item, mpindex := c.mpindex + 1 }.setEntry
        (icacheHash r.pAddr r.mode)
        ⟨some r.pAddr, 0x80000000, 1, c.mpindex, some ⟨r.remaining, addr, len⟩⟩).commitPageSplitTrace
          addr (icacheHash r.pAddr r.mode)) := by
  generalize hc₁ : setEntry _ _ _ = c₁
  have hring : c₁.IsSplitEntry = c.IsSplitEntry := by rw [← hc₁]; rfl
  refine h.change (fun _ hs => (hs.mark _ _).mark _ _) ?_ (fun k hk => ?_) fun a mode ha => ?_
  · rw [mpindex_commitPageSplitTrace, ← hc₁]
    exact le_succ _
  · rw [mpool_commitPageSplitTrace, ← hc₁]
    exact update_of_ne (by omega) _ _
  by_cases hevicted : c₁.Evicted (icacheHash a mode)
  · rw [entry_commitPageSplitTrace_of_evicted hevicted] at ha
    exact nomatch ha
  rw [entry_commitPageSplitTrace_of_not_evicted hevicted] at ha ⊢
  by_cases hidx : icacheHash a mode = icacheHash r.pAddr r.mode
  · have hnew : c₁.entry (icacheHash r.pAddr r.mode) =
        ⟨some r.pAddr, 0x80000000, 1, c.mpindex, some ⟨r.remaining, addr, len⟩⟩ := by
      rw [← hc₁]
      exact update_self _ _ _
    rw [hidx, hnew] at ha ⊢
    obtain rfl : r.pAddr = a := Option.some.inj ha
    obtain rfl := icacheHash_mode_injective hidx
    refine .inr ⟨?_, fun hsplit => (nomatch hsplit), fun _ => ⟨hpage, ?_⟩, .inr ⟨?_, ?_⟩⟩
    · rw [mpindex_commitPageSplitTrace, ← hc₁]
      exact le_refl _
    · exact isSplitEntry_commitPageSplitTrace_self _ _ _
    · exact fun b hb => hb.elim ((t.stamped_mark _ _).mark _ _ b) (SmcTable.stamped_mark _ _ _ b)
    · have htrace : (c₁.commitPageSplitTrace addr (icacheHash r.pAddr r.mode)).trace
          ⟨some r.pAddr, 0x80000000, 1, c.mpindex, some ⟨r.remaining, addr, len⟩⟩ = [item] := by
        unfold trace
        rw [mpool_commitPageSplitTrace, ← hc₁]
        exact congrArg (fun x => [x]) (update_self _ _ _)
      rw [htrace]
      exact holdsOn_split hpage hnext hdecode
  · refine .inl ⟨?_, fun hs => IsSplitEntry.commitPageSplitTrace ?_ hevicted _ _⟩
    · rw [← hc₁]
      exact update_of_ne hidx _ _
    · rw [hring]
      exact hs

end Coherent

/-! ## Fills -/

variable (T) in
/-- What a fill has to meet for its trace to stay right. An error that it records goes on being
an error whatever is written outside the line of its first byte. And the bytes of a split
instruction are the last of a page and the first of another. -/
structure FillSound (ends : FetchMode → Instruction → Bool) (mem : Nat → BitVec 8) (c : ICache)
    (r : FillRequest) : Prop where
  error : ∀ f, c.fillEnd T ends mem r = .complete f →
    (f.items c.makeRoom.mpindex).getLast? = some none → ErrorStays T r.mode mem f.pos
  split : c.fillEnd T ends mem r = .incomplete → r.remaining < 15 → ∀ s ∈ r.next,
    4082 ≤ r.pAddr % 4096 ∧ s.1 % 4096 + s.2 ≤ 128

theorem Coherent.fillSplit (h : Coherent T mem t unseen c) (r : FillRequest)
    (hsound : ∀ s ∈ r.next, 4082 ≤ r.pAddr % 4096 ∧ s.1 % 4096 + s.2 ≤ 128) :
    Coherent T mem (c.fillSplit T mem t r (icacheHash r.pAddr r.mode) c.mpindex).2 unseen
      (c.fillSplit T mem t r (icacheHash r.pAddr r.mode) c.mpindex).1 := by
  unfold ICache.fillSplit
  cases hnext : r.next with
  | none => exact h.flush _ rfl
  | some s =>
    obtain ⟨hpage, hline⟩ := hsound s hnext
    dsimp only
    cases hdecode : normalizeDecodeResult (fetchDecode T r.mode.decodeMode
        (bytesAt mem r.pAddr r.remaining ++ bytesAt mem s.1 s.2)) with
    | error e => exact h.flush _ rfl
    | ok item => exact h.split hpage hline hdecode

theorem Coherent.fill {ends : FetchMode → Instruction → Bool} {r : FillRequest}
    (h : Coherent T mem t unseen c) (hsound : FillSound T ends mem c r) :
    Coherent T mem (c.fill T ends mem t r).2 unseen (c.fill T ends mem t r).1 := by
  have hroom := h.makeRoom.allocTrace r
  have hloop := fillLoop_spec (inLoop_start r (c.makeRoom.allocTrace r) c.makeRoom.mpindex)
    hsound.error
  have hsplit := hsound.split
  unfold ICache.fill
  change LoopEnd T r.mode mem _ _ _ (c.fillEnd T ends mem r) at hloop
  cases hend : c.fillEnd T ends mem r with
  | complete f =>
    rw [hend] at hloop
    exact hroom.complete hloop
  | merged f e =>
    rw [hend] at hloop
    exact hroom.merged hloop.1 hloop.2.1 hloop.2.2
  | incomplete =>
    dsimp only
    split
    · exact hroom
    next hshort => exact hroom.fillSplit r (hsplit hend (Nat.lt_of_not_le hshort))

/-- Marks are all that a fill does to the table. -/
inductive Marked (t : SmcTable) : SmcTable → Prop
  | refl : Marked t t
  | mark {t' : SmcTable} (h : Marked t t') (pAddr : Nat) (mask : BitVec 32) :
    Marked t (t'.smcMarkIcacheMask pAddr mask)

namespace Marked

theorem stamped (h : Marked t t') {F : Set Nat} (hF : t.Stamped F) : t'.Stamped F := by
  induction h with
  | refl => exact hF
  | mark _ pAddr mask ih => exact ih.mark pAddr mask

theorem recorded_eq (h : Marked t t') : t'.recorded = t.recorded := by
  induction h with
  | refl => rfl
  | mark _ _ _ ih => exact ih

theorem accounts (h : Marked t t') {cleared : Nat} (ht : t.Accounts cleared) : t'.Accounts cleared := by
  induction h with
  | refl => exact ht
  | mark _ _ _ ih => exact ih

end Marked

theorem marked_fill (T : OpcodeTables) (ends : FetchMode → Instruction → Bool)
    (mem : Nat → BitVec 8) (c : ICache) (t : SmcTable) (r : FillRequest) :
    Marked t (c.fill T ends mem t r).2 := by
  unfold ICache.fill
  split
  · exact .mark .refl _ _
  · exact .mark .refl _ _
  · split
    · exact .refl
    · unfold fillSplit
      dsimp only
      split
      · exact .refl
      · split
        · exact .refl
        · exact .mark (.mark .refl _ _) _ _

end RustyBox
