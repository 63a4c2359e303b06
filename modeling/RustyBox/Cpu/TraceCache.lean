-- SUMMARY: The instruction cache: trace fills, lookups and the flushes that self-modifying code asks for.
import RustyBox.Decoder.FetchDecode
import RustyBox.Cpu.Fetch
import RustyBox.Memory.SmcQueue
import RustyBox.Lib.BitSet

/-!
# The trace cache

`cpu/icache.rs`: decoded instructions are kept in a pool, and an entry names a run of them,
a trace, by the physical address of its first instruction. Filling a trace stamps the
128-byte lines it was decoded from, and the events that writes to stamped lines queue are
applied to the entries whose mask they meet.

An instruction in the pool is `none` where the decoder reported an architectural error: the
source puts the opcode `IaError` there with length one and leaves the other fields as they
were. The opcode that `assign_handler` leaves for dispatch is not kept, only the decoded
one. Whether an instruction ends a trace (`is_trace_end_opcode` of the opcode it is
dispatched with) is a parameter.
-/

namespace RustyBox

open Function Lib.Positions

/-- `FetchModeMask` without its bit 7, which is never set. -/
abbrev FetchMode := BitVec 7

/-- The decoder that the mode selects: `D_B` is bit 0 and `LONG64` bit 1. -/
def FetchMode.decodeMode (mode : FetchMode) : DecodeMode :=
  if mode.getLsbD 1 then .long64 else .legacy (mode.getLsbD 0)

/-- What a trace consists of. -/
abbrev TraceItem := Option Instruction

def TraceItem.ilen : TraceItem → Nat
  | some i => i.length.toNat
  | none => 1

/-- `normalize_decode_result`. -/
def normalizeDecodeResult : Except DecodeError Instruction → Except DecodeError TraceItem
  | .ok i => .ok (some i)
  | .error (.decoder _) => .ok none
  | .error (.invalidSegmentRegister _ _) => .ok none
  | .error e => .error e

/-- The bytes of memory from `a` on. -/
def bytesAt (mem : Nat → BitVec 8) (a len : Nat) : List (BitVec 8) :=
  (List.range len).map fun k => mem (a + k)

/-! ## The cache -/

/-- Where the bytes of an instruction across a page boundary were: `first` of them before the
boundary, the others from `addr` on, of which `len` were looked at. -/
structure Split where
  first : Nat
  addr : Nat
  len : Nat
  deriving DecidableEq

/-- `BxICacheEntry`, with `none` for `BX_ICACHE_INVALID_PHY_ADDRESS`. `split` is no field of the
source. -/
structure ICacheEntry where
  pAddr : Option Nat
  traceMask : BitVec 32
  tlen : Nat
  mpoolStartIdx : Nat
  split : Option Split
  deriving DecidableEq

/-- `flush_smc`. -/
def ICacheEntry.flushSmc (e : ICacheEntry) : ICacheEntry := { e with pAddr := none }

/-- `BxICache`. A slot of `pageSplitIndex` holds the second page and the entry. -/
structure ICache where
  entry : Nat → ICacheEntry
  mpool : Nat → TraceItem
  mpindex : Nat
  nextPageSplitIndex : Fin 8
  pageSplitIndex : Fin 8 → Option (Nat × Nat)

def icacheEntries : Nat := 64 * 1024
def memPool : Nat := 576 * 1024

/-- `hash`. -/
def icacheHash (pAddr : Nat) (mode : FetchMode) : Nat := (pAddr ^^^ mode.toNat) % icacheEntries

namespace ICache

def empty : ICache where
  entry _ := ⟨none, 0, 0, 0, none⟩
  mpool _ := none
  mpindex := 0
  nextPageSplitIndex := 0
  pageSplitIndex _ := none

variable (c : ICache)

/-- `find_entry`. -/
def findEntry (pAddr : Nat) (mode : FetchMode) : Option ICacheEntry :=
  let e := c.entry (icacheHash pAddr mode)
  if e.pAddr = some pAddr then some e else none

/-- The instructions of an entry. -/
def trace (e : ICacheEntry) : List TraceItem :=
  (List.range e.tlen).map fun k => c.mpool (e.mpoolStartIdx + k)

/-- An entry that some slot of `pageSplitIndex` refers to. -/
def IsSplitEntry (idx : Nat) : Prop := ∃ slot, (c.pageSplitIndex slot).map Prod.snd = some idx

instance (idx : Nat) : Decidable (c.IsSplitEntry idx) :=
  inferInstanceAs (Decidable (∃ slot, (c.pageSplitIndex slot).map Prod.snd = some idx))

/-- `break_links`. -/
def breakLinks : ICache :=
  { c with
    entry := fun idx => if c.IsSplitEntry idx then (c.entry idx).flushSmc else c.entry idx
    pageSplitIndex := fun _ => none
    nextPageSplitIndex := 0 }

/-- `flush_all`. -/
def flushAll : ICache :=
  { c with
    entry := fun idx => (c.entry idx).flushSmc
    pageSplitIndex := fun _ => none
    mpindex := 0 }

variable (ev : PendingSmc)

/-- The scan of `handle_smc_scan` comes to the entry: it is one of the 128 of a line that the
loop reaches. -/
def Scanned (idx : Nat) : Prop :=
  ∃ n < 32, 2 ^ n ≤ ev.mask.toNat ∧ icacheHash (ev.pAddr / 4096 * 4096) 0 + 128 * n ≤ idx ∧
    idx < icacheHash (ev.pAddr / 4096 * 4096) 0 + 128 * (n + 1)

instance (ev : PendingSmc) (idx : Nat) : Decidable (Scanned ev idx) :=
  inferInstanceAs (Decidable (∃ n < 32, _ ∧ _))

/-- The entry's trace has a line that was written. -/
def Meets (e : ICacheEntry) : Prop :=
  e.pAddr.map smcPageIndex = some (smcPageIndex ev.pAddr) ∧ e.traceMask &&& ev.mask ≠ 0

instance (ev : PendingSmc) (e : ICacheEntry) : Decidable (Meets ev e) :=
  inferInstanceAs (Decidable (_ ∧ _))

/-- `handle_smc_scan`. -/
def handleSmcScan : ICache :=
  let c := c.breakLinks
  { c with
    entry := fun idx =>
      if Scanned ev idx ∧ Meets ev (c.entry idx) then (c.entry idx).flushSmc else c.entry idx }

/-- One call of `smc_apply_pending`. -/
def apply : IcacheCall → ICache
  | .handleSmcScan ev => c.handleSmcScan ev
  | .flushAll => c.flushAll

def setEntry (idx : Nat) (e : ICacheEntry) : ICache :=
  { c with entry := update c.entry idx e }

/-- `commit_page_split_trace`. -/
def commitPageSplitTrace (ppf idx : Nat) : ICache :=
  let slot := c.nextPageSplitIndex
  let c := match c.pageSplitIndex slot with
    | some (_, old) => c.setEntry old (c.entry old).flushSmc
    | none => c
  { c with
    pageSplitIndex := update c.pageSplitIndex slot (some (ppf, idx))
    nextPageSplitIndex := slot + 1 }

end ICache

/-! ## Fills -/

/-- What `serve_icache_miss` is called with. `avail` bytes of the fetch window follow `pAddr`,
which are in its page, and `remaining` is what the window size leaves of them: less where the
segment limit does. `quantum` caps the trace. `next` is where the window is after the prefetch
of `boundary_fetch`, with the number of bytes copied from there; `none` if that faults. -/
structure FillRequest where
  pAddr : Nat
  mode : FetchMode
  avail : Nat
  remaining : Nat
  quantum : Nat
  next : Option (Nat × Nat)
  avail_le : pAddr % 4096 + avail ≤ 4096
  remaining_pos : 0 < remaining
  remaining_le : remaining ≤ avail
  next_le : ∀ s ∈ next, s.2 ≤ 15

/-- A trace under construction. -/
structure Filling where
  mpool : Nat → TraceItem
  pos : Nat
  avail : Nat
  remaining : Nat
  tlen : Nat
  mask : BitVec 32

inductive FillEnd
  | complete (f : Filling)
  | merged (f : Filling) (e : ICacheEntry)
  | incomplete

/-- The lines of an instruction's first and last byte. -/
def instructionLines (pos len : Nat) : BitVec 32 :=
  (1#32 <<< min (pos % 4096 / 128) 31) ||| (1#32 <<< min ((pos % 4096 + len - 1) / 128) 31)

section

variable (T : OpcodeTables) (ends : FetchMode → Instruction → Bool)

/-- An error ends every trace. -/
def TraceItem.endsTrace (mode : FetchMode) : TraceItem → Bool
  | some i => ends mode i
  | none => true

/-- The entry whose trace `merge_traces_internal` appends. -/
def ICache.mergeSource (c : ICache) (mode : FetchMode) (pos tlen : Nat) : Option ICacheEntry :=
  let e := c.entry (icacheHash pos mode)
  if e.pAddr = some pos ∧ e.tlen + tlen ≤ maxTraceLength then some e else none

/-- The instruction at `f.pos` added. -/
def Filling.push (f : Filling) (start : Nat) (item : TraceItem) : Filling :=
  { f with
    mpool := update f.mpool (start + f.tlen) item
    remaining := f.remaining - item.ilen
    tlen := f.tlen + 1
    mask := f.mask ||| instructionLines f.pos item.ilen }

/-- On to the next instruction. -/
def Filling.advance (f : Filling) (len : Nat) : Filling :=
  { f with pos := f.pos + len, avail := f.avail - len }

/-- The loop of `serve_icache_miss`, over what is left of the quantum. -/
def fillLoop (mem : Nat → BitVec 8) (c : ICache) (mode : FetchMode) (start : Nat) :
    Nat → Filling → FillEnd
  | 0, f => .complete f
  | n + 1, f =>
    if memPool ≤ start + f.tlen then .complete f
    else
      match normalizeDecodeResult (fetchDecode T mode.decodeMode (bytesAt mem f.pos f.avail)) with
      | .error _ => if 0 < f.tlen then .complete f else .incomplete
      | .ok item =>
        let f := f.push start item
        if memPool ≤ start + f.tlen then .complete f
        else if item.endsTrace ends mode ∨ f.remaining = 0 then .complete f
        else
          let f := f.advance item.ilen
          if 15 ≤ f.remaining then
            match c.mergeSource mode f.pos f.tlen with
            | some e => .merged f e
            | none => fillLoop mem c mode start n f
          else fillLoop mem c mode start n f

/-- The copy of `merge_traces_internal`: the source lies before the trace under
construction. -/
def copyTrace (mpool : Nat → TraceItem) (src dst len : Nat) : Nat → TraceItem :=
  fun k => if dst ≤ k ∧ k < dst + len then mpool (src + (k - dst)) else mpool k

variable (mem : Nat → BitVec 8)

/-- `boundary_fetch`, and the page-split trace that its instruction makes. -/
def ICache.fillSplit (c : ICache) (t : SmcTable) (r : FillRequest)
    (idx start : Nat) : ICache × SmcTable :=
  let invalid := c.setEntry idx ⟨none, 0, 1, start, none⟩
  match r.next with
  | none => (invalid, t)
  | some (addr, len) =>
    let bytes := bytesAt mem r.pAddr r.remaining ++ bytesAt mem addr len
    match normalizeDecodeResult (fetchDecode T r.mode.decodeMode bytes) with
    | .error _ => (invalid, t)
    | .ok item =>
      let c := { c with mpool := update c.mpool start item, mpindex := start + 1 }
      let c := c.setEntry idx
        ⟨some r.pAddr, 0x80000000, 1, start, some ⟨r.remaining, addr, len⟩⟩
      (c.commitPageSplitTrace addr idx,
        (t.smcMarkIcacheMask r.pAddr 0x80000000).smcMarkIcacheMask addr 1)

/-- The pool with room for one more trace. -/
def ICache.makeRoom (c : ICache) : ICache :=
  if memPool ≤ c.mpindex + maxTraceLength then c.flushAll else c

/-- The entry before its trace is decoded. -/
def ICache.allocTrace (c : ICache) (r : FillRequest) : ICache :=
  c.setEntry (icacheHash r.pAddr r.mode) ⟨some r.pAddr, 0, 0, c.mpindex, none⟩

def FillRequest.start (r : FillRequest) (c : ICache) : Filling :=
  ⟨c.mpool, r.pAddr, r.avail, r.remaining, 0, 0⟩

/-- How the loop ends. -/
def ICache.fillEnd (c : ICache) (r : FillRequest) : FillEnd :=
  let c := c.makeRoom.allocTrace r
  fillLoop T ends mem c r.mode c.mpindex r.quantum (r.start c)

/-- `serve_icache_miss`. An instruction longer than fifteen bytes raises #GP and leaves the
entry without instructions. -/
def ICache.fill (c : ICache) (t : SmcTable) (r : FillRequest) : ICache × SmcTable :=
  let idx := icacheHash r.pAddr r.mode
  let room := c.makeRoom.allocTrace r
  let start := room.mpindex
  match c.fillEnd T ends mem r with
  | .complete f =>
    ({ room.setEntry idx ⟨some r.pAddr, f.mask, f.tlen, start, none⟩ with
        mpool := f.mpool, mpindex := start + f.tlen },
      t.smcMarkIcacheMask f.pos f.mask)
  | .merged f e =>
    let mask := e.traceMask ||| f.mask
    ({ room.setEntry idx ⟨some r.pAddr, mask, f.tlen + e.tlen, start, none⟩ with
        mpool := copyTrace f.mpool e.mpoolStartIdx (start + f.tlen) e.tlen
        mpindex := start + f.tlen + e.tlen },
      t.smcMarkIcacheMask f.pos mask)
  | .incomplete => if 15 ≤ r.remaining then (room, t) else room.fillSplit T mem t r idx start

end

/-! ## The machine -/

/-- A write inside one page; a write across a page boundary is two of them. -/
structure PageWrite where
  pAddr : Nat
  data : List (BitVec 8)
  fits : pAddr % 4096 + data.length ≤ 4096

def PageWrite.store (w : PageWrite) (mem : Nat → BitVec 8) : Nat → BitVec 8 := fun b =>
  if w.pAddr ≤ b ∧ b < w.pAddr + w.data.length then w.data.getD (b - w.pAddr) 0 else mem b

/-- The caches of all CPUs, over the queue of events. -/
structure TraceMachine (n : Nat) where
  mem : Nat → BitVec 8
  smc : SmcMachine n
  icache : Fin n → ICache

/-- `breakLinks` is what a flush of the TLB does. -/
inductive TraceOp (n : Nat)
  | fill (i : Fin n) (r : FillRequest)
  | write (w : PageWrite)
  | catchUp (i : Fin n) (stopTrace : Bool)
  | drain
  | breakLinks (i : Fin n)

namespace TraceMachine

variable {n : Nat}

def boot (n : Nat) (mem : Nat → BitVec 8) : TraceMachine n where
  mem := mem
  smc := .boot n
  icache _ := .empty

/-- A step of the queue, with the calls it makes on the caches. -/
def queueStep (m : TraceMachine n) (op : SmcOp n) : TraceMachine n :=
  let smc := m.smc.step op
  { m with
    smc
    icache := fun i =>
      ((smc.cpus i).calls.drop (m.smc.cpus i).calls.length).foldl ICache.apply (m.icache i) }

section

variable (T : OpcodeTables) (ends : FetchMode → Instruction → Bool)

def step (m : TraceMachine n) : TraceOp n → TraceMachine n
  | .fill i r =>
    let (c, t) := (m.icache i).fill T ends m.mem m.smc.table r
    { m with icache := update m.icache i c, smc := { m.smc with table := t } }
  | .write w => { m.queueStep (.write w.pAddr w.data.length) with mem := w.store m.mem }
  | .catchUp i stopTrace => m.queueStep (.catchUp i stopTrace)
  | .drain => m.queueStep .drain
  | .breakLinks i => { m with icache := update m.icache i (m.icache i).breakLinks }

/-- The machine after the operations `ops`, in their order. -/
def run (mem : Nat → BitVec 8) (ops : List (TraceOp n)) : TraceMachine n :=
  ops.foldl (step T ends) (boot n mem)

end

/-- CPU `i` has applied every event. -/
def CaughtUp (m : TraceMachine n) (i : Fin n) : Prop :=
  (m.smc.cpus i).smcSeqSeen = m.smc.table.log.seqNext

instance (m : TraceMachine n) (i : Fin n) : Decidable (m.CaughtUp i) :=
  inferInstanceAs (Decidable (_ = _))

end TraceMachine

end RustyBox
