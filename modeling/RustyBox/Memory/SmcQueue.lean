-- SUMMARY: The machine-wide queue of self-modifying-code events and how each CPU catches up with it.
import RustyBox.Lib.BoundedLog
import Mathlib.Data.BitVec
import Mathlib.Logic.Function.Basic

/-!
# Self-modifying code events

One table for the whole machine remembers which 128-byte lines of each physical page some
CPU has decoded instructions from. A write that hits such a line queues an event. Each CPU
keeps the sequence number of the first event it has not applied to its own instruction
cache, and the scheduler empties the queue after bringing every CPU up to date.

The `u64` sequence numbers are natural numbers here: a machine does not live to see 2^64
events.
-/

namespace RustyBox

/-! ## The stamp table -/

def smcStampEntries : Nat := 1024 * 1024

/-- `smc_page_index`: the page number, aliased into the table. -/
def smcPageIndex (pAddr : Nat) : Nat := pAddr % 2 ^ 32 / 2 ^ 12 % smcStampEntries

/-- `smc_cache_line_mask`: one bit per 128-byte line that the range touches. -/
def smcCacheLineMask (pAddr len : Nat) : BitVec 32 :=
  if len = 0 then 0
  else
    let pageOff := pAddr % 2 ^ 12
    let firstLine := pageOff / 2 ^ 7
    let lastByte := min (pageOff + (len - 1)) 0xfff
    let lastLine := lastByte / 2 ^ 7
    let lineCount := lastLine - firstLine + 1
    let range : BitVec 32 := if lineCount = 32 then BitVec.allOnes 32 else 1 <<< lineCount - 1
    range <<< firstLine

structure PendingSmc where
  pAddr : Nat
  mask : BitVec 32
deriving DecidableEq, Repr

def smcPendingCap : Nat := 64

/-- The part of the memory stub that deals with self-modifying code. `recorded` is no field
of the source: it lists every event that `smc_push_pending` was ever called with. -/
structure SmcTable where
  stamps : Nat → BitVec 32
  log : Lib.BoundedLog PendingSmc smcPendingCap
  recorded : List PendingSmc

namespace SmcTable

def boot : SmcTable where
  stamps := fun _ => 0
  log := .empty
  recorded := []

variable (t : SmcTable) (pAddr : Nat)

def smcMarkIcacheMask (mask : BitVec 32) : SmcTable :=
  let index := smcPageIndex pAddr
  { t with stamps := Function.update t.stamps index (t.stamps index ||| mask) }

def smcPushPending (mask : BitVec 32) : SmcTable :=
  { t with log := t.log.push ⟨pAddr, mask⟩, recorded := t.recorded ++ [⟨pAddr, mask⟩] }

def smcDecWriteStamp (len : Nat) : SmcTable :=
  let index := smcPageIndex pAddr
  let stamps := t.stamps index
  if stamps = 0 then t
  else
    let mask := smcCacheLineMask pAddr len
    if stamps &&& mask = 0 then t
    else
      smcPushPending { t with stamps := Function.update t.stamps index (stamps &&& ~~~mask) }
        pAddr mask

def smcDecWriteStampPage : SmcTable :=
  let index := smcPageIndex pAddr
  if t.stamps index = 0 then t
  else
    smcPushPending { t with stamps := Function.update t.stamps index 0 } pAddr
      (BitVec.allOnes 32)

def smcPendingSince (since : Nat) : Bool × List PendingSmc :=
  t.log.unseen since

def smcClearPending : SmcTable := { t with log := t.log.clear }

def smcHasPending : Bool := !t.log.pending.isEmpty

/-- The log accounts for every event recorded, the queue having last been emptied after
`cleared` of them. -/
def Accounts (cleared : Nat) : Prop := t.log.Records t.recorded cleared

section

variable {t : SmcTable} {cleared : Nat}

/-- A write through the table leaves it as it was or queues one event. -/
theorem Accounts.decWriteStamp (h : t.Accounts cleared) (pAddr len : Nat) :
    (t.smcDecWriteStamp pAddr len).Accounts cleared := by
  unfold smcDecWriteStamp
  dsimp only
  split
  · exact h
  · split
    · exact h
    · exact Lib.BoundedLog.Records.push h _

theorem Accounts.decWriteStampPage (h : t.Accounts cleared) (pAddr : Nat) :
    (t.smcDecWriteStampPage pAddr).Accounts cleared := by
  unfold smcDecWriteStampPage
  dsimp only
  split
  · exact h
  · exact Lib.BoundedLog.Records.push h _

end

end SmcTable

/-! ## The CPUs -/

/-- What catching up does to a CPU's instruction cache. -/
inductive IcacheCall where
  | handleSmcScan (ev : PendingSmc)
  | flushAll
deriving DecidableEq, Repr

/-- `calls` lists what was done to the instruction cache, oldest first. -/
structure SmcCpu where
  smcSeqSeen : Nat
  calls : List IcacheCall
  stopTrace : Bool

namespace SmcCpu

def boot : SmcCpu where
  smcSeqSeen := 0
  calls := []
  stopTrace := false

/-- The calls of `smc_apply_pending` for a CPU with this watermark. -/
def pendingCalls (t : SmcTable) (since : Nat) : List IcacheCall :=
  let (needsFullFlush, events) := t.smcPendingSince since
  if needsFullFlush then [.flushAll] else events.map .handleSmcScan

def smcApplyPending (cpu : SmcCpu) (t : SmcTable) (stopTrace : Bool) : SmcCpu where
  smcSeqSeen := t.log.seqNext
  calls := cpu.calls ++ pendingCalls t cpu.smcSeqSeen
  stopTrace := cpu.stopTrace || stopTrace

end SmcCpu

/-! ## The machine -/

/-- `caughtUp i` is no field of the source: how many events had been recorded when CPU `i`
last caught up. -/
structure SmcMachine (n : Nat) where
  table : SmcTable
  cpus : Fin n → SmcCpu
  caughtUp : Fin n → Nat

inductive SmcOp (n : Nat) where
  | mark (pAddr : Nat) (mask : BitVec 32)
  | write (pAddr len : Nat)
  | writePage (pAddr : Nat)
  | catchUp (i : Fin n) (stopTrace : Bool)
  | drain

namespace SmcMachine

variable {n : Nat}

def boot (n : Nat) : SmcMachine n where
  table := .boot
  cpus := fun _ => .boot
  caughtUp := fun _ => 0

def smcApplyPending (m : SmcMachine n) (i : Fin n) (stopTrace : Bool) : SmcMachine n where
  table := m.table
  cpus := Function.update m.cpus i ((m.cpus i).smcApplyPending m.table stopTrace)
  caughtUp := Function.update m.caughtUp i m.table.recorded.length

/-- `drain_pending_smc`. No CPU's turn in the loop touches another CPU or the queue, so
the loop is one function of the CPU. After it every CPU counts as caught up, also one that
the loop passed over. -/
def drainPendingSmc (m : SmcMachine n) : SmcMachine n :=
  let caughtUp := fun _ => m.table.recorded.length
  if m.table.smcHasPending then
    let newest := m.table.log.seqNext
    { table := m.table.smcClearPending
      cpus := fun i =>
        let cpu := m.cpus i
        if cpu.smcSeqSeen < newest then cpu.smcApplyPending m.table true else cpu
      caughtUp }
  else { m with caughtUp }

def step (m : SmcMachine n) : SmcOp n → SmcMachine n
  | .mark pAddr mask => { m with table := m.table.smcMarkIcacheMask pAddr mask }
  | .write pAddr len => { m with table := m.table.smcDecWriteStamp pAddr len }
  | .writePage pAddr => { m with table := m.table.smcDecWriteStampPage pAddr }
  | .catchUp i stopTrace => m.smcApplyPending i stopTrace
  | .drain => m.drainPendingSmc

/-- The machine after the operations `ops`, in their order. -/
def run (n : Nat) (ops : List (SmcOp n)) : SmcMachine n := ops.foldl step (boot n)

/-! ## No event is lost -/

/-- From `m` to `m'` the instruction cache of CPU `i` is flushed, or scanned for each of `events`,
in order. -/
def HandsOver (m m' : SmcMachine n) (i : Fin n) (events : List PendingSmc) : Prop :=
  ∃ calls, (m'.cpus i).calls = (m.cpus i).calls ++ calls ∧
    (calls = [.flushAll] ∨ calls = events.map .handleSmcScan)

/-- CPU `i` is handed what was recorded since it last caught up. -/
def CatchesUp (m m' : SmcMachine n) (i : Fin n) : Prop :=
  HandsOver m m' i (m.table.recorded.drop (m.caughtUp i))

/-- The queue accounts for every event, and no CPU's watermark was left behind when it was
last emptied. -/
structure Consistent (m : SmcMachine n) (cleared : Nat) : Prop where
  accounts : m.table.Accounts cleared
  seen_eq : ∀ i, (m.cpus i).smcSeqSeen = m.caughtUp i
  cleared_le_seen : ∀ i, cleared ≤ m.caughtUp i
  seen_le : ∀ i, m.caughtUp i ≤ m.table.recorded.length

namespace Consistent

variable {m : SmcMachine n} {cleared : Nat}

theorem boot (n : Nat) : Consistent (boot n) 0 where
  accounts := .empty
  seen_eq := fun _ => rfl
  cleared_le_seen := fun _ => Nat.le_refl _
  seen_le := fun _ => Nat.le_refl _

section

variable (h : m.Consistent cleared)
include h

theorem seqNext_eq : m.table.log.seqNext = m.table.recorded.length := h.accounts.seqNext_eq

/-- A step of the table alone: events are only added. -/
theorem table {t : SmcTable} (haccounts : t.Accounts cleared)
    (hgrows : m.table.recorded.length ≤ t.recorded.length) :
    Consistent { m with table := t } cleared where
  accounts := haccounts
  seen_eq := h.seen_eq
  cleared_le_seen := h.cleared_le_seen
  seen_le := fun i => Nat.le_trans (h.seen_le i) hgrows

theorem pendingCalls (i : Fin n) :
    SmcCpu.pendingCalls m.table (m.cpus i).smcSeqSeen = [.flushAll] ∨
      SmcCpu.pendingCalls m.table (m.cpus i).smcSeqSeen =
        (m.table.recorded.drop (m.caughtUp i)).map .handleSmcScan := by
  rw [h.seen_eq i]
  rcases h.accounts.unseen (h.cleared_le_seen i) (h.seen_le i) with hflush | hunseen
  · exact .inl (if_pos hflush)
  · refine .inr ?_
    unfold SmcCpu.pendingCalls SmcTable.smcPendingSince
    rw [hunseen]
    rfl

theorem smcApplyPending (i : Fin n) (stopTrace : Bool) :
    (m.smcApplyPending i stopTrace).Consistent cleared where
  accounts := h.accounts
  seen_eq := fun j => by
    by_cases hj : j = i
    · subst hj
      simpa [SmcMachine.smcApplyPending, SmcCpu.smcApplyPending] using h.seqNext_eq
    · simpa [SmcMachine.smcApplyPending, hj] using h.seen_eq j
  cleared_le_seen := fun j => by
    by_cases hj : j = i
    · subst hj
      simpa [SmcMachine.smcApplyPending] using h.accounts.cleared_le
    · simpa [SmcMachine.smcApplyPending, hj] using h.cleared_le_seen j
  seen_le := fun j => by
    by_cases hj : j = i
    · subst hj
      simp [SmcMachine.smcApplyPending]
    · simpa [SmcMachine.smcApplyPending, hj] using h.seen_le j

/-- With nothing queued every CPU has already seen everything. -/
theorem caughtUp_of_idle (hidle : m.table.smcHasPending = false)
    (i : Fin n) : m.caughtUp i = m.table.recorded.length := by
  have hnil : m.table.log.pending = [] := by simpa [SmcTable.smcHasPending] using hidle
  have hcleared := h.accounts.cleared_of_pending_nil (by decide) hnil
  exact Nat.le_antisymm (h.seen_le i) (hcleared ▸ h.cleared_le_seen i)

/-- A CPU that the drain passes over has nothing left to see. -/
theorem caughtUp_of_newest {i : Fin n} (hnewest : ¬ (m.cpus i).smcSeqSeen < m.table.log.seqNext) :
    m.caughtUp i = m.table.recorded.length := by
  rw [h.seen_eq i, h.seqNext_eq] at hnewest
  exact Nat.le_antisymm (h.seen_le i) (Nat.le_of_not_lt hnewest)

theorem drainPendingSmc : ∃ cleared', m.drainPendingSmc.Consistent cleared' := by
  unfold SmcMachine.drainPendingSmc
  split
  next hpending =>
    refine ⟨m.table.recorded.length, h.accounts.clear, fun i => ?_, fun _ => Nat.le_refl _,
      fun _ => Nat.le_refl _⟩
    dsimp only
    split
    · exact h.seqNext_eq
    next hnewest => rw [h.seen_eq i, h.caughtUp_of_newest hnewest]
  next hidle =>
    have hall := h.caughtUp_of_idle (Bool.eq_false_iff.mpr hidle)
    refine ⟨cleared, h.accounts, fun i => ?_, fun i => ?_, fun _ => Nat.le_refl _⟩
    · rw [h.seen_eq i, hall i]
    · exact h.accounts.cleared_le

theorem step (op : SmcOp n) : ∃ cleared', (m.step op).Consistent cleared' := by
  cases op with
  | mark pAddr mask => exact ⟨cleared, h.table h.accounts (Nat.le_refl _)⟩
  | write pAddr len =>
    refine ⟨cleared, h.table (h.accounts.decWriteStamp pAddr len) ?_⟩
    unfold SmcTable.smcDecWriteStamp SmcTable.smcPushPending
    dsimp only
    split_ifs <;> simp
  | writePage pAddr =>
    refine ⟨cleared, h.table (h.accounts.decWriteStampPage pAddr) ?_⟩
    unfold SmcTable.smcDecWriteStampPage SmcTable.smcPushPending
    dsimp only
    split_ifs <;> simp
  | catchUp i stopTrace => exact ⟨cleared, h.smcApplyPending i stopTrace⟩
  | drain => exact h.drainPendingSmc

omit h in
theorem run (n : Nat) (ops : List (SmcOp n)) : ∃ cleared, (run n ops).Consistent cleared := by
  unfold SmcMachine.run
  induction ops using List.reverseRecOn with
  | nil => exact ⟨0, boot n⟩
  | append_singleton ops op ih =>
    obtain ⟨cleared, h⟩ := ih
    rw [List.foldl_append]
    exact h.step op

theorem catchesUp_smcApplyPending (i : Fin n) (stopTrace : Bool) :
    CatchesUp m (m.smcApplyPending i stopTrace) i := by
  refine ⟨_, ?_, h.pendingCalls i⟩
  simp [SmcMachine.smcApplyPending, SmcCpu.smcApplyPending]

end

/-- A CPU with nothing unseen is caught up without a call. -/
theorem catchesUp_of_caughtUp {m' : SmcMachine n} {i : Fin n}
    (hcpu : (m'.cpus i).calls = (m.cpus i).calls)
    (hcaught : m.caughtUp i = m.table.recorded.length) : CatchesUp m m' i := by
  refine ⟨[], by rw [hcpu, List.append_nil], .inr ?_⟩
  rw [hcaught, List.drop_length, List.map_nil]

theorem catchesUp_drainPendingSmc (h : m.Consistent cleared) (i : Fin n) :
    CatchesUp m m.drainPendingSmc i := by
  cases hpending : m.table.smcHasPending with
  | false =>
    refine catchesUp_of_caughtUp ?_ (h.caughtUp_of_idle hpending i)
    simp [SmcMachine.drainPendingSmc, hpending]
  | true =>
    by_cases hnewest : (m.cpus i).smcSeqSeen < m.table.log.seqNext
    · refine ⟨_, ?_, h.pendingCalls i⟩
      simp [SmcMachine.drainPendingSmc, hpending, hnewest, SmcCpu.smcApplyPending]
    · refine catchesUp_of_caughtUp ?_ (h.caughtUp_of_newest hnewest)
      simp [SmcMachine.drainPendingSmc, hpending, hnewest]

end Consistent

end SmcMachine

/-! ## The writes themselves

What the operations ask for, with neither a queue nor watermarks: which lines instructions were
decoded from, and the writes to such lines that a CPU has not caught up with. -/

structure SmcWatch (n : Nat) where
  marked : Nat → BitVec 32
  unseen : Fin n → List PendingSmc

namespace SmcWatch

variable {n : Nat}

def boot (n : Nat) : SmcWatch n where
  marked := fun _ => 0
  unseen := fun _ => []

/-- A write to `lines` of a page. If one of them was decoded from, every CPU has to see the write,
and the lines are no longer watched. -/
def written (w : SmcWatch n) (pAddr : Nat) (lines : BitVec 32) : SmcWatch n :=
  let page := smcPageIndex pAddr
  if w.marked page &&& lines = 0 then w
  else
    { marked := Function.update w.marked page (w.marked page &&& ~~~lines)
      unseen := fun i => w.unseen i ++ [⟨pAddr, lines⟩] }

def step (w : SmcWatch n) : SmcOp n → SmcWatch n
  | .mark pAddr mask =>
    let page := smcPageIndex pAddr
    { w with marked := Function.update w.marked page (w.marked page ||| mask) }
  | .write pAddr len => w.written pAddr (smcCacheLineMask pAddr len)
  | .writePage pAddr => w.written pAddr (BitVec.allOnes 32)
  | .catchUp i _ => { w with unseen := Function.update w.unseen i [] }
  | .drain => { w with unseen := fun _ => [] }

def run (n : Nat) (ops : List (SmcOp n)) : SmcWatch n := ops.foldl step (boot n)

/-- The machine has recorded these writes. -/
structure Seen (w : SmcWatch n) (m : SmcMachine n) : Prop where
  marked : m.table.stamps = w.marked
  unseen : ∀ i, m.table.recorded.drop (m.caughtUp i) = w.unseen i

namespace Seen

variable {w : SmcWatch n} {m : SmcMachine n} {cleared : Nat}

theorem push (h : w.Seen m) (hqueue : m.Consistent cleared) (stamps : Nat → BitVec 32)
    (pAddr : Nat) (lines : BitVec 32) :
    Seen ⟨stamps, fun i => w.unseen i ++ [⟨pAddr, lines⟩]⟩
      { m with table := SmcTable.smcPushPending { m.table with stamps } pAddr lines } where
  marked := rfl
  unseen i :=
    (List.drop_append_of_le_length (hqueue.seen_le i)).trans (congrArg (· ++ _) (h.unseen i))

theorem decWriteStamp (h : w.Seen m) (hqueue : m.Consistent cleared) (pAddr len : Nat) :
    (w.written pAddr (smcCacheLineMask pAddr len)).Seen
      { m with table := m.table.smcDecWriteStamp pAddr len } := by
  unfold written SmcTable.smcDecWriteStamp
  rw [← h.marked]
  dsimp only
  split_ifs with hmiss _ hnone
  · exact h
  · exact h
  · rw [hnone] at hmiss
    exact absurd BitVec.zero_and hmiss
  · exact h.push hqueue _ _ _

theorem decWriteStampPage (h : w.Seen m) (hqueue : m.Consistent cleared) (pAddr : Nat) :
    (w.written pAddr (BitVec.allOnes 32)).Seen
      { m with table := m.table.smcDecWriteStampPage pAddr } := by
  unfold written SmcTable.smcDecWriteStampPage
  simp only [← h.marked, BitVec.and_allOnes, BitVec.not_allOnes, BitVec.and_zero]
  split
  · exact h
  · exact h.push hqueue _ _ _

theorem smcApplyPending (h : w.Seen m) (i : Fin n) (stopTrace : Bool) :
    Seen { w with unseen := Function.update w.unseen i [] } (m.smcApplyPending i stopTrace) where
  marked := h.marked
  unseen j := by
    by_cases hj : j = i
    · subst hj
      simp [SmcMachine.smcApplyPending]
    · simpa [SmcMachine.smcApplyPending, hj] using h.unseen j

theorem drainPendingSmc (h : w.Seen m) :
    Seen { w with unseen := fun _ => [] } m.drainPendingSmc := by
  unfold SmcMachine.drainPendingSmc
  split <;> exact ⟨h.marked, fun _ => List.drop_length⟩

theorem step (h : w.Seen m) (hqueue : m.Consistent cleared) (op : SmcOp n) :
    (w.step op).Seen (m.step op) := by
  cases op with
  | mark pAddr mask => exact ⟨by rw [SmcWatch.step, ← h.marked]; rfl, h.unseen⟩
  | write pAddr len => exact h.decWriteStamp hqueue pAddr len
  | writePage pAddr => exact h.decWriteStampPage hqueue pAddr
  | catchUp i stopTrace => exact h.smcApplyPending i stopTrace
  | drain => exact h.drainPendingSmc

theorem run (n : Nat) (ops : List (SmcOp n)) : (SmcWatch.run n ops).Seen (.run n ops) := by
  induction ops using List.reverseRecOn with
  | nil => exact ⟨rfl, fun _ => rfl⟩
  | append_singleton ops op ih =>
    obtain ⟨cleared, hqueue⟩ := SmcMachine.Consistent.run n ops
    rw [SmcWatch.run, SmcMachine.run, List.foldl_append, List.foldl_append]
    exact ih.step hqueue op

end Seen

end SmcWatch

namespace SmcMachine

variable {n : Nat}

/-- No event is lost: whatever was done before, a CPU that catches up, by itself or in a drain, has
its cache flushed or scanned for every write to decoded lines since it last did. -/
theorem smc_events_never_lost (n : Nat) (ops : List (SmcOp n)) (i : Fin n) :
    (∀ stopTrace, HandsOver (run n ops) ((run n ops).step (.catchUp i stopTrace)) i
      ((SmcWatch.run n ops).unseen i)) ∧
    HandsOver (run n ops) ((run n ops).step .drain) i ((SmcWatch.run n ops).unseen i) := by
  obtain ⟨cleared, h⟩ := Consistent.run n ops
  rw [← (SmcWatch.Seen.run n ops).unseen i]
  exact ⟨h.catchesUp_smcApplyPending i, h.catchesUp_drainPendingSmc i⟩

end SmcMachine

end RustyBox
