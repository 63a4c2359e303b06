-- SUMMARY: The pool of decoded instructions: where traces lie in it, and that fills leave them alone.
import RustyBox.Cpu.NoStaleTraces

/-!
# The instruction pool

An entry that a lookup can find names a run of slots of the pool. Whatever the memory was at
each fill, those slots lie below `mpindex`, there are at most 32 of them, each holds what some
fill decoded at its address, and later fills write elsewhere. That there is at least one slot
fails for an instruction longer than fifteen bytes: `serve_icache_miss` has published the entry
by then, and raises #GP without withdrawing it.
-/

namespace RustyBox

open Lib List Nat Function ICache

variable {T : OpcodeTables} {ends : FetchMode → Instruction → Bool}

/-! ## Lookups -/

/-- A call of `get_icache_entry`, with the memory and the stamps a miss finds. The quantum is what
`set_smp_quantum` clamps it to, or `BX_MAX_TRACE_LENGTH`. -/
structure Lookup where
  mem : Nat → BitVec 8
  table : SmcTable
  request : FillRequest
  quantum_pos : 1 ≤ request.quantum
  quantum_le : request.quantum ≤ maxTraceLength

/-- What happens to the cache of one CPU. -/
inductive IcacheOp
  | lookup (l : Lookup)
  | handleSmcScan (ev : PendingSmc)
  | breakLinks
  | flushAll

namespace ICache

variable (T ends) in
/-- `get_icache_entry`. -/
def getIcacheEntry (c : ICache) (l : Lookup) : ICache :=
  match c.findEntry l.request.pAddr l.request.mode with
  | some _ => c
  | none => (c.fill T ends l.mem l.table l.request).1

variable (T ends) in
def step (c : ICache) : IcacheOp → ICache
  | .lookup l => c.getIcacheEntry T ends l
  | .handleSmcScan ev => c.handleSmcScan ev
  | .breakLinks => c.breakLinks
  | .flushAll => c.flushAll

variable (T ends) in
/-- The cache after the operations `ops`, in their order. -/
def run (ops : List IcacheOp) : ICache := ops.foldl (step T ends) empty

def Misses (c : ICache) (l : Lookup) : Prop :=
  c.findEntry l.request.pAddr l.request.mode = none

variable (T ends) in
/-- The lookup misses, and finds an instruction that goes on past fifteen bytes. -/
def Overlong (c : ICache) (l : Lookup) : Prop :=
  c.Misses l ∧ c.fillEnd T ends l.mem l.request = .incomplete ∧ 15 ≤ l.request.remaining

/-- The operation is a flush of the whole cache, or a fill for which the pool has no room. -/
def Flushes (c : ICache) : IcacheOp → Prop
  | .lookup l => c.Misses l ∧ memPool ≤ c.mpindex + maxTraceLength
  | .flushAll => True
  | _ => False

variable (T ends) in
/-- The lookups among the operations that fill an entry. -/
def fills (ops : List IcacheOp) : Set Lookup :=
  {l | ∃ before, before ++ [.lookup l] <+: ops ∧ (run T ends before).Misses l}

variable (T ends) in
def NoOverlong (ops : List IcacheOp) : Prop :=
  ∀ before l, before ++ [.lookup l] <+: ops → ¬ (run T ends before).Overlong T ends l

variable (T ends) in
/-- None of the operations `later`, after `ops`, flushes the whole cache. -/
def NoFlush (ops later : List IcacheOp) : Prop :=
  ∀ before op, before ++ [op] <+: later → ¬ (run T ends (ops ++ before)).Flushes op

theorem run_append_singleton (ops : List IcacheOp) (op : IcacheOp) :
    run T ends (ops ++ [op]) = (run T ends ops).step T ends op := by
  rw [run, foldl_append]
  rfl

end ICache

/-! ## What a trace holds -/

variable (T) in
/-- The lookup decoded `item` at `pos` in `mode`: from the page, or as the instruction that the
window ended in. -/
def Lookup.Decoded (l : Lookup) (mode : FetchMode) (pos : Nat) (item : TraceItem) : Prop :=
  l.request.mode = mode ∧
    (InstrAt T mode l.mem pos none item ∨
      l.request.pAddr = pos ∧ ∃ s ∈ l.request.next,
        InstrAt T mode l.mem pos (some ⟨l.request.remaining, s.1, s.2⟩) item)

variable (T) in
/-- The instructions were decoded one after the other from `a` on, each by one of the lookups. -/
def DecodedFrom (ls : Set Lookup) (mode : FetchMode) : Nat → List TraceItem → Prop
  | _, [] => True
  | a, item :: rest =>
    (∃ l ∈ ls, l.Decoded T mode a item) ∧ DecodedFrom ls mode (a + item.ilen) rest

section

variable {ls ls' : Set Lookup} {mode : FetchMode} {a : Nat} {items : List TraceItem}

theorem decodedFrom_append (a : Nat) (xs ys : List TraceItem) :
    DecodedFrom T ls mode a (xs ++ ys) ↔
      DecodedFrom T ls mode a xs ∧ DecodedFrom T ls mode (endAddr a xs) ys := by
  induction xs generalizing a with
  | nil => simp [DecodedFrom, endAddr]
  | cons item rest ih => simp [DecodedFrom, ih, endAddr, and_assoc, add_assoc]

theorem DecodedFrom.mono (hsub : ls ⊆ ls') (h : DecodedFrom T ls mode a items) :
    DecodedFrom T ls' mode a items := by
  induction items generalizing a with
  | nil => trivial
  | cons item rest ih =>
    obtain ⟨⟨l, hl, hitem⟩, hrest⟩ := h
    exact ⟨⟨l, hsub hl, hitem⟩, ih hrest⟩

theorem decodedFrom_of_traceAt {l : Lookup} (hl : l ∈ ls)
    (h : TraceAt T l.request.mode l.mem a none items) :
    DecodedFrom T ls l.request.mode a items := by
  induction items generalizing a with
  | nil => trivial
  | cons item rest ih => exact ⟨⟨l, hl, rfl, .inl h.1⟩, ih h.2⟩

end

/-! ## The loop -/

section

variable {l : Lookup} {c : ICache} {start : Nat} {f : Filling}

variable (T) in
/-- What a lookup decoded into the pool from `start` on. -/
structure Piece (l : Lookup) (c : ICache) (start : Nat) (f : Filling) : Prop where
  pool : ∀ k < start, f.mpool k = c.mpool k
  tlen_pos : 1 ≤ f.tlen
  tlen_le : f.tlen ≤ maxTraceLength
  decoded : DecodedFrom T {l} l.request.mode l.request.pAddr (f.items start)

variable (T) in
def PieceEnd (l : Lookup) (c : ICache) (start : Nat) : FillEnd → Prop
  | .complete f => Piece T l c start f
  | .merged f e => Piece T l c start f ∧ f.pos = endAddr l.request.pAddr (f.items start) ∧
      c.mergeSource l.request.mode f.pos f.tlen = some e
  | .incomplete => True

theorem piece_of_inLoop (h : InLoop T l.request.mode l.mem c start l.request.pAddr f)
    (hpos : 1 ≤ f.tlen) (hle : f.tlen ≤ maxTraceLength) : Piece T l c start f :=
  ⟨h.pool, hpos, hle, decodedFrom_of_traceAt rfl h.trace.holds⟩

/-- The instruction that ends the trace, which may be an error. -/
theorem piece_push {item : TraceItem} (h : InLoop T l.request.mode l.mem c start l.request.pAddr f)
    (hle : f.tlen + 1 ≤ maxTraceLength)
    (hdecode : normalizeDecodeResult
      (fetchDecode T l.request.mode.decodeMode (bytesAt l.mem f.pos f.avail)) = .ok item) :
    Piece T l c start (f.push start item) := by
  refine ⟨fun k hk => ?_, succ_pos _, hle, ?_⟩
  · exact (Function.update_of_ne (by omega) _ _).trans (h.pool k hk)
  · rw [items_push, decodedFrom_append, ← h.pos_eq]
    refine ⟨decodedFrom_of_traceAt rfl h.trace.holds, ⟨l, rfl, rfl, .inl ?_⟩, trivial⟩
    exact instrAt_of_decode h.fits hdecode

theorem fillLoop_piece (hroom : start + maxTraceLength < memPool) {n : Nat}
    (h : InLoop T l.request.mode l.mem c start l.request.pAddr f)
    (hlen : f.tlen + n ≤ maxTraceLength) (hfirst : 1 ≤ f.tlen + n) :
    PieceEnd T l c start (fillLoop T ends l.mem c l.request.mode start n f) := by
  refine fillLoop_rule
    (I := fun n f => InLoop T l.request.mode l.mem c start l.request.pAddr f ∧
      f.tlen + n ≤ maxTraceLength ∧ 1 ≤ f.tlen + n)
    (Q := PieceEnd T l c start) ?_ ?_ ?_ ?_ ?_ ⟨h, hlen, hfirst⟩
  · rintro n f ⟨hf, hle, hpos⟩ hend
    exact piece_of_inLoop hf (by omega) (by omega)
  · rintro n f ⟨hf, hle, hpos⟩
    split
    next hsome => exact piece_of_inLoop hf hsome (by omega)
    · trivial
  · rintro n f item ⟨hf, hle, hpos⟩ hdecode
    exact piece_push hf (by omega) hdecode
  · rintro n f item ⟨hf, hle, hpos⟩ hdecode hsome hmore
    refine ⟨hf.advance hdecode (fun hnone => absurd hnone hsome) hmore, ?_, ?_⟩
    · show f.tlen + 1 + n ≤ _
      omega
    · show 1 ≤ f.tlen + 1 + n
      omega
  · rintro n f e ⟨hf, hle, _⟩ hpos he _
    exact ⟨piece_of_inLoop hf hpos (by omega), hf.pos_eq, he⟩

theorem ICache.makeRoom_lt (c : ICache) : c.makeRoom.mpindex + maxTraceLength < memPool := by
  unfold makeRoom
  split
  · show 0 + maxTraceLength < memPool
    decide
  next hroom => exact Nat.lt_of_not_le hroom

variable (T ends) in
theorem fillEnd_piece (c : ICache) (l : Lookup) :
    PieceEnd T l (c.makeRoom.allocTrace l.request) c.makeRoom.mpindex
      (c.fillEnd T ends l.mem l.request) := by
  refine fillLoop_piece c.makeRoom_lt (inLoop_start l.request _ _) ?_ ?_
  · show 0 + l.request.quantum ≤ _
    have := l.quantum_le
    omega
  · have := l.quantum_pos
    omega

end

/-! ## The pool -/

section

variable {ls ls' : Set Lookup} {least : Nat} {c c' : ICache} {a : Nat} {mode : FetchMode}
  {e : ICacheEntry} {l : Lookup}

/-- Instructions are only put behind the pool's end. -/
structure ICache.Extends (c c' : ICache) : Prop where
  mpindex_le : c.mpindex ≤ c'.mpindex
  mpool_eq : ∀ k < c.mpindex, c'.mpool k = c.mpool k

theorem ICache.Extends.refl (c : ICache) : c.Extends c := ⟨Nat.le_refl _, fun _ _ => rfl⟩

theorem ICache.Extends.trans {c₁ c₂ c₃ : ICache} (h : c₁.Extends c₂) (h' : c₂.Extends c₃) :
    c₁.Extends c₃ :=
  ⟨le_trans h.mpindex_le h'.mpindex_le,
    fun k hk => (h'.mpool_eq k (lt_of_lt_of_le hk h.mpindex_le)).trans (h.mpool_eq k hk)⟩

variable (T) in
/-- What holds of a valid entry for `a`, with at least `least` instructions. -/
structure PoolOk (ls : Set Lookup) (least : Nat) (c : ICache) (a : Nat) (mode : FetchMode)
    (e : ICacheEntry) : Prop where
  tlen_ge : least ≤ e.tlen
  tlen_le : e.tlen ≤ maxTraceLength
  inPool : e.mpoolStartIdx + e.tlen ≤ c.mpindex
  decoded : DecodedFrom T ls mode a (c.trace e)

theorem PoolOk.keep (h : PoolOk T ls least c a mode e) (hsub : ls ⊆ ls') (hext : c.Extends c') :
    PoolOk T ls' least c' a mode e where
  tlen_ge := h.tlen_ge
  tlen_le := h.tlen_le
  inPool := le_trans h.inPool hext.mpindex_le
  decoded := by
    rw [trace_congr h.inPool hext.mpool_eq]
    exact h.decoded.mono hsub

section

variable (h : EntryWise (PoolOk T ls least) c)
include h

/-- A new trace in the entry that was allocated for it. -/
theorem EntryWise.fillEntry (hsub : ls ⊆ ls')
    (hext : c.Extends c') {r : FillRequest} (ha : e.pAddr = some r.pAddr)
    (hentry : c'.entry = update (c.allocTrace r).entry (icacheHash r.pAddr r.mode) e)
    (hnew : PoolOk T ls' least c' r.pAddr r.mode e) : EntryWise (PoolOk T ls' least) c' := by
  refine h.put (hentry.trans ?_) ha (fun _ _ _ hok => hok.keep hsub hext) hnew
  exact update_idem ..

theorem EntryWise.makeRoom : EntryWise (PoolOk T ls least) c.makeRoom := by
  unfold ICache.makeRoom
  split
  · exact .of_invalid fun _ => rfl
  · exact h

/-- The entry before its trace is decoded has no instructions. -/
theorem EntryWise.allocTrace (r : FillRequest) : EntryWise (PoolOk T ls 0) (c.allocTrace r) :=
  h.put rfl rfl (fun _ _ _ hok => PoolOk.keep { hok with tlen_ge := zero_le _ }
    (Set.Subset.refl _) ⟨Nat.le_refl _, fun _ _ => rfl⟩)
    ⟨Nat.le_refl _, zero_le _, Nat.le_refl _, trivial⟩

theorem EntryWise.complete (hleast : least ≤ 1) {f : Filling}
    (hf : Piece T l (c.allocTrace l.request) c.mpindex f) :
    EntryWise (PoolOk T (insert l ls) least)
      { (c.allocTrace l.request).setEntry (icacheHash l.request.pAddr l.request.mode)
          ⟨some l.request.pAddr, f.mask, f.tlen, c.mpindex, none⟩ with
        mpool := f.mpool, mpindex := c.mpindex + f.tlen } := by
  refine h.fillEntry (Set.subset_insert _ _) ⟨le_add_right _ _, hf.pool⟩ rfl rfl ?_
  refine ⟨le_trans hleast hf.tlen_pos, hf.tlen_le, Nat.le_refl _, ?_⟩
  exact hf.decoded.mono (Set.singleton_subset_iff.mpr (Set.mem_insert _ _))

theorem EntryWise.merged (hleast : least ≤ 1) {f : Filling}
    (hf : Piece T l (c.allocTrace l.request) c.mpindex f)
    (hpos : f.pos = endAddr l.request.pAddr (f.items c.mpindex))
    (he : (c.allocTrace l.request).mergeSource l.request.mode f.pos f.tlen = some e)
    (mask : BitVec 32) :
    EntryWise (PoolOk T (insert l ls) least)
      { (c.allocTrace l.request).setEntry (icacheHash l.request.pAddr l.request.mode)
          ⟨some l.request.pAddr, mask, f.tlen + e.tlen, c.mpindex, none⟩ with
        mpool := copyTrace f.mpool e.mpoolStartIdx (c.mpindex + f.tlen) e.tlen
        mpindex := c.mpindex + f.tlen + e.tlen } := by
  obtain ⟨hfound, ⟨⟩⟩ := Option.ite_none_right_eq_some.mp he
  have hsrc := h.allocTrace l.request f.pos l.request.mode hfound.1
  have hone := hf.tlen_pos
  refine h.fillEntry (Set.subset_insert _ _) ⟨by dsimp only; omega, fun k hk => ?_⟩ rfl rfl ?_
  · exact (if_neg (by omega)).trans (hf.pool k hk)
  refine ⟨by dsimp only; omega, by dsimp only; omega, by dsimp only; omega, ?_⟩
  show DecodedFrom T _ _ _ (map _ _)
  rw [Coherent.trace_copyTrace hf.pool hsrc.inPool, decodedFrom_append, ← hpos]
  exact ⟨hf.decoded.mono (Set.singleton_subset_iff.mpr (Set.mem_insert _ _)),
    hsrc.decoded.mono (Set.subset_insert _ _)⟩

theorem EntryWise.fillSplit (hleast : least ≤ 1) :
    EntryWise (PoolOk T (insert l ls) least)
      ((c.allocTrace l.request).fillSplit T l.mem l.table l.request
        (icacheHash l.request.pAddr l.request.mode) c.mpindex).1 := by
  have hinvalid : EntryWise (PoolOk T (insert l ls) least)
      ((c.allocTrace l.request).setEntry (icacheHash l.request.pAddr l.request.mode)
        ⟨none, 0, 1, c.mpindex, none⟩) := by
    refine h.shrink (fun idx => ?_) fun _ _ _ hok =>
      hok.keep (Set.subset_insert _ _) ⟨Nat.le_refl _, fun _ _ => rfl⟩
    show update (update c.entry _ _) _ _ idx = _ ∨ _
    rw [update_idem]
    by_cases hidx : idx = icacheHash l.request.pAddr l.request.mode
    · right
      show (update (update c.entry _ _) _ _ idx).pAddr = none
      rw [hidx, update_self]
    · exact .inl (Function.update_of_ne hidx _ _)
  unfold ICache.fillSplit
  cases hnext : l.request.next with
  | none => exact hinvalid
  | some s =>
    dsimp only
    cases hdecode : normalizeDecodeResult (fetchDecode T l.request.mode.decodeMode
        (bytesAt l.mem l.request.pAddr l.request.remaining ++ bytesAt l.mem s.1 s.2)) with
    | error e => exact hinvalid
    | ok item =>
      dsimp only
      generalize hc₁ : setEntry _ _ _ = c₁
      have hput : EntryWise (PoolOk T (insert l ls) least) c₁ := by
        rw [← hc₁]
        refine h.fillEntry (Set.subset_insert _ _)
          ⟨Nat.le_succ _, fun k hk => Function.update_of_ne (Nat.ne_of_lt hk) _ _⟩ rfl rfl ?_
        refine ⟨hleast, (by decide : 1 ≤ maxTraceLength), Nat.le_refl _, ?_⟩
        show DecodedFrom T _ _ _ [update c.mpool c.mpindex item c.mpindex]
        rw [update_self]
        exact ⟨⟨l, Set.mem_insert _ _, rfl, .inr ⟨rfl, s, hnext, normalize_append hdecode⟩⟩, trivial⟩
      refine hput.shrink (fun idx => ?_) fun _ _ _ hok => hok.keep (Set.Subset.refl _) ⟨?_, ?_⟩
      · exact entry_commitPageSplitTrace c₁ _ _ idx
      · rw [mpindex_commitPageSplitTrace]
      · rw [mpool_commitPageSplitTrace]
        exact fun _ _ => rfl

/-- A fill keeps the invariant, if it leaves no entry without instructions. -/
theorem EntryWise.fill (hleast : least ≤ 1)
    (hlong : c.fillEnd T ends l.mem l.request = .incomplete → 15 ≤ l.request.remaining →
      least = 0) :
    EntryWise (PoolOk T (insert l ls) least) (c.fill T ends l.mem l.table l.request).1 := by
  have hroom := h.makeRoom
  have hpiece := fillEnd_piece T ends c l
  unfold ICache.fill
  cases hend : c.fillEnd T ends l.mem l.request with
  | complete f =>
    rw [hend] at hpiece
    exact hroom.complete hleast hpiece
  | merged f e =>
    rw [hend] at hpiece
    exact hroom.merged hleast hpiece.1 hpiece.2.1 hpiece.2.2 _
  | incomplete =>
    dsimp only
    split
    next h15 =>
      rw [hlong hend h15]
      exact (hroom.allocTrace _).shrink (fun _ => .inl rfl)
        fun _ _ _ hok => hok.keep (Set.subset_insert _ _) (.refl _)
    · exact hroom.fillSplit hleast

end

/-! ## Steps -/

theorem ICache.entry_breakLinks (c : ICache) (idx : Nat) :
    c.breakLinks.entry idx = c.entry idx ∨ (c.breakLinks.entry idx).pAddr = none := by
  have hentry : c.breakLinks.entry idx =
      if c.IsSplitEntry idx then (c.entry idx).flushSmc else c.entry idx := rfl
  rw [hentry]
  split
  · exact .inr rfl
  · exact .inl rfl

theorem ICache.entry_handleSmcScan (c : ICache) (ev : PendingSmc) (idx : Nat) :
    (c.handleSmcScan ev).entry idx = c.entry idx ∨
      ((c.handleSmcScan ev).entry idx).pAddr = none := by
  have hentry : (c.handleSmcScan ev).entry idx =
      if Scanned ev idx ∧ Meets ev (c.breakLinks.entry idx) then
        (c.breakLinks.entry idx).flushSmc
      else c.breakLinks.entry idx := rfl
  rw [hentry]
  split
  · exact .inr rfl
  · exact c.entry_breakLinks idx

variable (T ends) in
/-- A fill adds to the pool, and no more than the room that was made for it. -/
theorem ICache.extends_fill (c : ICache) (l : Lookup) :
    c.makeRoom.Extends (c.fill T ends l.mem l.table l.request).1 ∧
      (c.fill T ends l.mem l.table l.request).1.mpindex ≤ c.makeRoom.mpindex + maxTraceLength := by
  have hpiece := fillEnd_piece T ends c l
  unfold fill
  cases hend : c.fillEnd T ends l.mem l.request with
  | complete f =>
    rw [hend] at hpiece
    exact ⟨⟨le_add_right _ _, hpiece.pool⟩, Nat.add_le_add_left hpiece.tlen_le _⟩
  | merged f e =>
    rw [hend] at hpiece
    have hfits : e.tlen + f.tlen ≤ maxTraceLength := by
      obtain ⟨hfound, ⟨⟩⟩ := Option.ite_none_right_eq_some.mp hpiece.2.2
      exact hfound.2
    refine ⟨⟨le_trans (le_add_right _ _) (le_add_right _ _), fun k hk => ?_⟩, ?_⟩
    · have hbelow : ¬ (c.makeRoom.mpindex + f.tlen ≤ k ∧
          k < c.makeRoom.mpindex + f.tlen + e.tlen) := by omega
      exact (if_neg hbelow).trans (hpiece.1.pool k hk)
    · show c.makeRoom.mpindex + f.tlen + e.tlen ≤ _
      omega
  | incomplete =>
    dsimp only
    split
    · exact ⟨⟨Nat.le_refl _, fun _ _ => rfl⟩, le_add_right _ _⟩
    · unfold fillSplit
      dsimp only
      split
      · exact ⟨⟨Nat.le_refl _, fun _ _ => rfl⟩, le_add_right _ _⟩
      split
      · exact ⟨⟨Nat.le_refl _, fun _ _ => rfl⟩, le_add_right _ _⟩
      · refine ⟨⟨?_, fun k hk => ?_⟩, ?_⟩
        · rw [mpindex_commitPageSplitTrace]
          exact Nat.le_succ _
        · rw [mpool_commitPageSplitTrace]
          exact Function.update_of_ne (Nat.ne_of_lt hk) _ _
        · rw [mpindex_commitPageSplitTrace]
          exact Nat.add_le_add_left (by decide) _

/-- Until the cache is flushed, what the pool holds stays. -/
theorem ICache.extends_step {op : IcacheOp} (h : ¬ c.Flushes op) : c.Extends (c.step T ends op) := by
  cases op with
  | lookup l =>
    show c.Extends (c.getIcacheEntry T ends l)
    unfold getIcacheEntry
    cases hfind : c.findEntry l.request.pAddr l.request.mode with
    | some e => exact .refl c
    | none =>
      have hroom : c.makeRoom = c := if_neg fun hfull => h ⟨hfind, hfull⟩
      have hext := (extends_fill T ends c l).1
      rw [hroom] at hext
      exact hext
  | handleSmcScan ev | breakLinks => exact ⟨Nat.le_refl _, fun _ _ => rfl⟩
  | flushAll => exact absurd trivial h

/-- The pool's end stays within the array. -/
theorem ICache.mpindex_step_lt (h : c.mpindex < memPool) (op : IcacheOp) :
    (c.step T ends op).mpindex < memPool := by
  cases op with
  | lookup l =>
    show (c.getIcacheEntry T ends l).mpindex < memPool
    unfold getIcacheEntry
    cases c.findEntry l.request.pAddr l.request.mode with
    | some e => exact h
    | none => exact Nat.lt_of_le_of_lt (extends_fill T ends c l).2 c.makeRoom_lt
  | handleSmcScan ev | breakLinks => exact h
  | flushAll => exact (by decide : 0 < memPool)

theorem EntryWise.step (h : EntryWise (PoolOk T ls least) c) (hleast : least ≤ 1) {op : IcacheOp}
    (hsub : ls ⊆ ls') (hnew : ∀ l, op = .lookup l → c.Misses l → l ∈ ls')
    (hlong : ∀ l, op = .lookup l → c.Overlong T ends l → least = 0) :
    EntryWise (PoolOk T ls' least) (c.step T ends op) := by
  have hkeep {c' : ICache} (hpool : c'.mpool = c.mpool) (hindex : c'.mpindex = c.mpindex)
      (hentry : ∀ idx, c'.entry idx = c.entry idx ∨ (c'.entry idx).pAddr = none) :
      EntryWise (PoolOk T ls' least) c' :=
    h.shrink hentry fun _ _ _ hok =>
      hok.keep hsub ⟨le_of_eq hindex.symm, fun k _ => congrFun hpool k⟩
  cases op with
  | lookup l =>
    show EntryWise _ (c.getIcacheEntry T ends l)
    unfold getIcacheEntry
    cases hfind : c.findEntry l.request.pAddr l.request.mode with
    | some e => exact hkeep rfl rfl fun _ => .inl rfl
    | none =>
      refine (h.fill hleast fun hend h15 => hlong l rfl ⟨hfind, hend, h15⟩).shrink
        (fun _ => .inl rfl) fun _ _ _ hok => hok.keep ?_ (.refl _)
      exact Set.insert_subset (hnew l rfl hfind) hsub
  | handleSmcScan ev => exact hkeep rfl rfl (c.entry_handleSmcScan ev)
  | breakLinks => exact hkeep rfl rfl c.entry_breakLinks
  | flushAll => exact .of_invalid fun _ => rfl

/-! ## Runs -/

theorem fills_mono {ops ops' : List IcacheOp} (h : ops <+: ops') :
    fills T ends ops ⊆ fills T ends ops' := by
  rintro l ⟨before, hbefore, hmiss⟩
  exact ⟨before, hbefore.trans h, hmiss⟩

theorem NoOverlong.mono {ops ops' : List IcacheOp} (h : ops <+: ops')
    (hlong : NoOverlong T ends ops') : NoOverlong T ends ops :=
  fun before l hbefore => hlong before l (hbefore.trans h)

theorem poolOk_run (hleast : least ≤ 1) (ops : List IcacheOp)
    (hlong : least = 0 ∨ NoOverlong T ends ops) :
    EntryWise (PoolOk T (fills T ends ops) least) (run T ends ops) := by
  induction ops using reverseRecOn with
  | nil => exact .of_invalid fun _ => rfl
  | append_singleton ops op ih =>
    have hpre : ops <+: ops ++ [op] := prefix_append _ _
    rw [run_append_singleton]
    refine (ih (hlong.imp_right (NoOverlong.mono hpre))).step hleast (fills_mono hpre) ?_ ?_
    · rintro l rfl hmiss
      exact ⟨ops, prefix_rfl, hmiss⟩
    · rintro l rfl hover
      exact hlong.resolve_right fun hno => hno ops l prefix_rfl hover

theorem mpindex_run_lt (ops : List IcacheOp) : (run T ends ops).mpindex < memPool := by
  induction ops using reverseRecOn with
  | nil => exact (by decide : 0 < memPool)
  | append_singleton ops op ih =>
    rw [run_append_singleton]
    exact mpindex_step_lt ih op

/-- In every run, an overlong instruction or not, a trace is decoded from what a fill read and lies
in the pool, whose end is within the array. -/
theorem every_trace_in_pool (ops : List IcacheOp) :
    (run T ends ops).mpindex < memPool ∧
      EntryWise (PoolOk T (fills T ends ops) 0) (run T ends ops) :=
  ⟨mpindex_run_lt ops, poolOk_run (Nat.zero_le 1) ops (.inl rfl)⟩

theorem extends_run {ops later : List IcacheOp} (h : NoFlush T ends ops later) :
    (run T ends ops).Extends (run T ends (ops ++ later)) := by
  induction later using reverseRecOn with
  | nil =>
    rw [append_nil]
    exact .refl _
  | append_singleton later op ih =>
    have hlater := ih fun before op' hbefore => h before op' (hbefore.trans (prefix_append _ _))
    rw [← append_assoc, run_append_singleton]
    exact hlater.trans (extends_step (h later op prefix_rfl))

/-- The fill for an overlong instruction leaves an entry without instructions. -/
theorem entry_step_of_overlong (h : c.Overlong T ends l) :
    (c.step T ends (.lookup l)).entry (icacheHash l.request.pAddr l.request.mode) =
      ⟨some l.request.pAddr, 0, 0, c.makeRoom.mpindex, none⟩ := by
  obtain ⟨hmiss, hend, h15⟩ := h
  show (c.getIcacheEntry T ends l).entry _ = _
  unfold getIcacheEntry
  rw [hmiss]
  unfold fill
  rw [hend]
  dsimp only
  rw [if_pos h15]
  exact update_self _ _ _

theorem findEntry_eq_some {pAddr : Nat} :
    c.findEntry pAddr mode = some e ↔
      (c.entry (icacheHash pAddr mode)).pAddr = some pAddr ∧ c.entry (icacheHash pAddr mode) = e := by
  unfold findEntry
  dsimp only
  split
  next h => simp [h]
  next h => simp [h]

variable (T ends) in
/-- What a lookup may rely on after the operations `ops`. -/
structure PoolSound (ops : List IcacheOp) : Prop where
  tlen : ∀ a mode e, (run T ends ops).findEntry a mode = some e → 1 ≤ e.tlen ∧ e.tlen ≤ 32
  inPool : ∀ a mode e, (run T ends ops).findEntry a mode = some e →
    e.mpoolStartIdx + e.tlen ≤ (run T ends ops).mpindex
  decoded : ∀ a mode e, (run T ends ops).findEntry a mode = some e →
    DecodedFrom T (fills T ends ops) mode a ((run T ends ops).trace e)
  kept : ∀ a mode e, (run T ends ops).findEntry a mode = some e → ∀ later,
    NoFlush T ends ops later → (run T ends (ops ++ later)).trace e = (run T ends ops).trace e

theorem poolSound_of_noOverlong {ops : List IcacheOp} (h : NoOverlong T ends ops) :
    PoolSound T ends ops := by
  have hok {a : Nat} {mode : FetchMode} {e : ICacheEntry}
      (hfind : (run T ends ops).findEntry a mode = some e) :
      PoolOk T (fills T ends ops) 1 (run T ends ops) a mode e := by
    obtain ⟨ha, rfl⟩ := findEntry_eq_some.mp hfind
    exact poolOk_run (Nat.le_refl 1) ops (.inr h) a mode ha
  exact {
    tlen := fun _ _ _ hfind => ⟨(hok hfind).tlen_ge, (hok hfind).tlen_le⟩
    inPool := fun _ _ _ hfind => (hok hfind).inPool
    decoded := fun _ _ _ hfind => (hok hfind).decoded
    kept := fun _ _ _ hfind _ hlater => trace_congr (hok hfind).inPool (extends_run hlater).mpool_eq }

/-- The pool is sound all along a run if and only if no fill of it finds an instruction longer
than fifteen bytes. -/
theorem pool_sound_iff_no_overlong (T : OpcodeTables) (ends : FetchMode → Instruction → Bool)
    (ops : List IcacheOp) :
    (∀ ops', ops' <+: ops → PoolSound T ends ops') ↔ NoOverlong T ends ops := by
  constructor
  · intro h before l hbefore hover
    have hentry := entry_step_of_overlong hover
    rw [← run_append_singleton] at hentry
    have hfind := findEntry_eq_some.mpr ⟨congrArg ICacheEntry.pAddr hentry, hentry⟩
    exact not_succ_le_zero 0 ((h _ hbefore).tlen _ _ _ hfind).1
  · exact fun h ops' hpre => poolSound_of_noOverlong (NoOverlong.mono hpre h)

/-- A page of operand-size prefixes. -/
def operandSizePage : Lookup where
  mem _ := 0x66
  table := .boot
  request := TraceMachine.pageRequest 0
  quantum_pos := by decide
  quantum_le := by decide

theorem overlong_page_leaves_empty_trace :
    (run popTables TraceMachine.everyEnds [.lookup operandSizePage]).findEntry 0 2 =
        some ⟨some 0, 0, 0, 0, none⟩ ∧
      ¬ PoolSound popTables TraceMachine.everyEnds [.lookup operandSizePage] := by
  have hfind : (run popTables TraceMachine.everyEnds [.lookup operandSizePage]).findEntry 0 2 =
      some ⟨some 0, 0, 0, 0, none⟩ := by
    decide +kernel
  exact ⟨hfind, fun h => absurd (h.tlen 0 2 _ hfind).1 (by decide)⟩

end

end RustyBox
