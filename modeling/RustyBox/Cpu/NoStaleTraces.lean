-- SUMMARY: No stale traces: a CPU that has caught up finds what memory decodes to.
import RustyBox.Cpu.TraceCoherence

/-!
# No stale traces

The caches of all CPUs over the shared queue of events. Every CPU's cache stays coherent with
the events it has not applied yet, so one that has applied them all finds only traces that
memory still decodes to.
-/

namespace RustyBox

open Lib List Function

variable {T : OpcodeTables} {mem : Nat → BitVec 8} {t : SmcTable} {c : ICache} {a : Nat}
  {mode : FetchMode} {e : ICacheEntry}

theorem recorded_decWriteStamp (t : SmcTable) (pAddr len : Nat) :
    ∃ new, (t.smcDecWriteStamp pAddr len).recorded = t.recorded ++ new := by
  unfold SmcTable.smcDecWriteStamp
  dsimp only
  split_ifs
  · exact ⟨[], (append_nil _).symm⟩
  · exact ⟨[], (append_nil _).symm⟩
  · exact ⟨_, rfl⟩

/-- Catching up leaves a cache that no event is still to be applied to. -/
theorem Coherent.catchesUp {n : Nat} {q q' : SmcMachine n} {i : Fin n} (hcatch : q.CatchesUp q' i)
    (h : Coherent T mem t (q.table.recorded.drop (q.caughtUp i)) c) :
    Coherent T mem t []
      (((q'.cpus i).calls.drop (q.cpus i).calls.length).foldl ICache.apply c) := by
  obtain ⟨calls, hcalls, hflush | hscans⟩ := hcatch
  · rw [hcalls, drop_left, hflush]
    exact coherent_of_invalid fun _ => rfl
  · rw [hcalls, drop_left, hscans]
    exact h.handleSmcScans

namespace TraceMachine

variable {n : Nat} {m : TraceMachine n} {ends : FetchMode → Instruction → Bool} {cleared : Nat}

/-- The events that CPU `i` has still to apply. -/
def unseenBy (m : TraceMachine n) (i : Fin n) : List PendingSmc :=
  m.smc.table.recorded.drop (m.smc.caughtUp i)

variable (T ends) in
def StepSound (m : TraceMachine n) : TraceOp n → Prop
  | .fill i r => FillSound T ends m.mem (m.icache i) r
  | _ => True

variable (T ends) in
/-- Every fill of the run is sound where it happens. -/
def RunSound : TraceMachine n → List (TraceOp n) → Prop
  | _, [] => True
  | m, op :: ops => m.StepSound T ends op ∧ RunSound (m.step T ends op) ops

variable (T) in
structure Inv (m : TraceMachine n) (cleared : Nat) : Prop where
  queue : m.smc.Consistent cleared
  caches : ∀ i, Coherent T m.mem m.smc.table (m.unseenBy i) (m.icache i)

namespace Inv

theorem boot (n : Nat) (mem : Nat → BitVec 8) : Inv T (TraceMachine.boot n mem) 0 where
  queue := .boot n
  caches _ := coherent_of_invalid fun _ => rfl

section

variable (h : Inv T m cleared)
include h

theorem fill {i : Fin n} {r : FillRequest}
    (hsound : FillSound T ends m.mem (m.icache i) r) : Inv T (m.step T ends (.fill i r)) cleared := by
  have hmarked := marked_fill T ends m.mem (m.icache i) m.smc.table r
  have hrecorded := hmarked.recorded_eq
  refine ⟨h.queue.table (hmarked.accounts h.queue.accounts)
    (Nat.le_of_eq (congrArg length hrecorded.symm)), fun j => ?_⟩
  have hunseen : (m.step T ends (.fill i r)).unseenBy j = m.unseenBy j :=
    congrArg (drop (m.smc.caughtUp j)) hrecorded
  rw [hunseen]
  show Coherent T m.mem _ _ (update m.icache i _ j)
  by_cases hj : j = i
  · subst hj
    rw [update_self]
    exact (h.caches j).fill hsound
  · rw [update_of_ne hj]
    exact (h.caches j).mark fun F => hmarked.stamped

theorem write (w : PageWrite) : ∃ cleared', Inv T (m.step T ends (.write w)) cleared' := by
  obtain ⟨cleared', hqueue⟩ := h.queue.step (.write w.pAddr w.data.length)
  obtain ⟨new, hnew⟩ := recorded_decWriteStamp m.smc.table w.pAddr w.data.length
  refine ⟨cleared', hqueue, fun i => ?_⟩
  have hle := h.queue.seen_le i
  have hunseen : (m.step T ends (.write w)).unseenBy i = m.unseenBy i ++ new := by
    show drop (m.smc.caughtUp i) (SmcTable.smcDecWriteStamp _ _ _).recorded = _
    rw [hnew, drop_append_of_le_length hle]
    rfl
  have hicache : (m.step T ends (.write w)).icache i = m.icache i := by
    show (drop _ (m.smc.cpus i).calls).foldl _ _ = _
    rw [drop_length]
    rfl
  rw [hunseen, hicache]
  refine (h.caches i).write w (subset_append_left _ _) fun ev hev => ?_
  obtain rfl : new = [ev] := append_cancel_left (hnew.symm.trans hev)
  exact mem_append_right _ (mem_singleton_self ev)

/-- A CPU that catches up has nothing left to apply. -/
theorem caches_of_catchesUp {op : SmcOp n} {i : Fin n} (hcatch : m.smc.CatchesUp (m.smc.step op) i)
    (hstamps : (m.smc.step op).table.stamps = m.smc.table.stamps)
    (hunseen : (m.queueStep op).unseenBy i = []) :
    Coherent T m.mem (m.queueStep op).smc.table ((m.queueStep op).unseenBy i)
      ((m.queueStep op).icache i) := by
  rw [hunseen]
  refine ((h.caches i).catchesUp hcatch).mark fun F hF => ?_
  intro b hb
  show ((m.smc.step op).table.stamps _).getLsbD _
  rw [hstamps]
  exact hF b hb

theorem catchUp (i : Fin n) (stopTrace : Bool) :
    ∃ cleared', Inv T (m.step T ends (.catchUp i stopTrace)) cleared' := by
  obtain ⟨cleared', hqueue⟩ := h.queue.step (.catchUp i stopTrace)
  refine ⟨cleared', hqueue, fun j => ?_⟩
  by_cases hj : j = i
  · subst hj
    refine h.caches_of_catchesUp (h.queue.catchesUp_smcApplyPending j stopTrace) rfl ?_
    show m.smc.table.recorded.drop (update m.smc.caughtUp j _ j) = []
    rw [update_self, drop_length]
  · have hunseen : (m.step T ends (.catchUp i stopTrace)).unseenBy j = m.unseenBy j := by
      show m.smc.table.recorded.drop (update m.smc.caughtUp i _ j) = _
      rw [update_of_ne hj]
      rfl
    have hicache : (m.step T ends (.catchUp i stopTrace)).icache j = m.icache j := by
      show (drop _ (update m.smc.cpus i _ j).calls).foldl _ _ = _
      rw [update_of_ne hj, drop_length]
      rfl
    rw [hunseen, hicache]
    exact h.caches j

theorem drain : ∃ cleared', Inv T (m.step T ends .drain) cleared' := by
  obtain ⟨cleared', hqueue⟩ := h.queue.step .drain
  have htable : (m.smc.step .drain).table.stamps = m.smc.table.stamps ∧
      (m.smc.step .drain).table.recorded = m.smc.table.recorded ∧
      ∀ i, (m.smc.step .drain).caughtUp i = m.smc.table.recorded.length := by
    show SmcTable.stamps (SmcMachine.drainPendingSmc _).table = _ ∧
      (SmcMachine.drainPendingSmc _).table.recorded = _ ∧
      ∀ i, (SmcMachine.drainPendingSmc _).caughtUp i = _
    unfold SmcMachine.drainPendingSmc
    dsimp only
    split <;> exact ⟨rfl, rfl, fun _ => rfl⟩
  obtain ⟨hstamps, hrecorded, hcaught⟩ := htable
  refine ⟨cleared', hqueue, fun i => ?_⟩
  refine h.caches_of_catchesUp (h.queue.catchesUp_drainPendingSmc i) hstamps ?_
  show drop ((m.smc.step .drain).caughtUp i) (m.smc.step .drain).table.recorded = []
  rw [hrecorded, hcaught, drop_length]

theorem breakLinks (i : Fin n) : Inv T (m.step T ends (.breakLinks i)) cleared := by
  refine ⟨h.queue, fun j => ?_⟩
  show Coherent T m.mem m.smc.table (m.unseenBy j) (update m.icache i _ j)
  by_cases hj : j = i
  · subst hj
    rw [update_self]
    exact (h.caches j).breakLinks
  · rw [update_of_ne hj]
    exact h.caches j

theorem step {op : TraceOp n} (hsound : m.StepSound T ends op) :
    ∃ cleared', Inv T (m.step T ends op) cleared' := by
  cases op with
  | fill i r => exact ⟨cleared, h.fill hsound⟩
  | write w => exact h.write w
  | catchUp i stopTrace => exact h.catchUp i stopTrace
  | drain => exact h.drain
  | breakLinks i => exact ⟨cleared, h.breakLinks i⟩

end

theorem run {ops : List (TraceOp n)} (h : Inv T m cleared) (hsound : m.RunSound T ends ops) :
    ∃ cleared', Inv T (ops.foldl (TraceMachine.step T ends) m) cleared' := by
  induction ops generalizing m cleared with
  | nil => exact ⟨cleared, h⟩
  | cons op ops ih =>
    obtain ⟨_, hstep⟩ := h.step hsound.1
    exact ih hstep hsound.2

theorem traceAt (h : Inv T m cleared) {i : Fin n} (hcaught : m.CaughtUp i)
    (hfind : (m.icache i).findEntry a mode = some e) :
    TraceAt T mode m.mem a e.split ((m.icache i).trace e) := by
  have hnone : m.unseenBy i = [] := by
    have hseen : m.smc.caughtUp i = m.smc.table.recorded.length := by
      rw [← h.queue.seen_eq, ← h.queue.seqNext_eq]
      exact hcaught
    unfold unseenBy
    rw [hseen, drop_length]
  unfold ICache.findEntry at hfind
  dsimp only at hfind
  split at hfind
  swap
  · exact nomatch hfind
  next ha =>
  obtain rfl := Option.some.inj hfind
  rcases (h.caches i a mode ha).fresh with ⟨ev, hev, _⟩ | ⟨_, hon⟩
  · rw [hnone] at hev
    exact nomatch hev
  · exact hon.holds

end Inv

/-- No stale traces: in every run whose fills are sound, a CPU that has applied every event
finds for an address and mode only what the bytes there decode to now. -/
theorem no_stale_traces (T : OpcodeTables) (ends : FetchMode → Instruction → Bool)
    (mem : Nat → BitVec 8) (ops : List (TraceOp n)) (hsound : (boot n mem).RunSound T ends ops)
    (i : Fin n) (hcaught : (run T ends mem ops).CaughtUp i) (a : Nat) (mode : FetchMode)
    (e : ICacheEntry) (hfind : ((run T ends mem ops).icache i).findEntry a mode = some e) :
    TraceAt T mode (run T ends mem ops).mem a e.split (((run T ends mem ops).icache i).trace e) := by
  obtain ⟨_, h⟩ := (Inv.boot n mem).run hsound
  exact h.traceAt hcaught hfind

/-- A request for the rest of a page in 64-bit mode. -/
def pageRequest (pAddr : Nat) : FillRequest where
  pAddr := pAddr
  mode := 2
  avail := 4096 - pAddr % 4096
  remaining := 4096 - pAddr % 4096
  quantum := 32
  next := none
  avail_le := by omega
  remaining_pos := by omega
  remaining_le := Nat.le_refl _
  next_le := nofun

/-- A request for the last byte of a window that ends inside its page, as where guest memory
is in blocks of 512 bytes. -/
def blockRequest : FillRequest where
  pAddr := 0x1FF
  mode := 2
  avail := 1
  remaining := 1
  quantum := 32
  next := some (0x200, 15)
  avail_le := by decide
  remaining_pos := by decide
  remaining_le := by decide
  next_le := by simp

def byteWrite (pAddr : Nat) (b : BitVec 8) : PageWrite where
  pAddr := pAddr
  data := [b]
  fits := by
    simp only [length_singleton]
    omega

/-- 8F at `a`, and `b` behind it. -/
def popAt (a : Nat) (b : BitVec 8) : Nat → BitVec 8 := fun k =>
  if k = a then 0x8F else if k = a + 1 then b else 0

/-- What 8F 00 decodes to. -/
def popRax : Instruction := ⟨1368, 2, 0x07, ⟨0, 0, 0, 0, 3, 0, 4, 0⟩, 0, 0⟩

def everyEnds : FetchMode → Instruction → Bool := fun _ _ => true

/-- The address and the result of the last instruction that a fill records. -/
def lastItem (start : Nat) : FillEnd → Option (Nat × Option TraceItem)
  | .complete f => some (f.pos, (f.items start).getLast?)
  | _ => none

/-- In one page it is enough to look at the last instruction. -/
theorem fillSound_of_lastItem {r : FillRequest} {pos : Nat} {item : TraceItem} (hnext : r.next = none)
    (hlast : lastItem c.makeRoom.mpindex (c.fillEnd T ends mem r) = some (pos, some item))
    (herror : item = none → ErrorStays T r.mode mem pos) : FillSound T ends mem c r where
  error f hf hnone := by
    rw [hf] at hlast
    obtain ⟨hpos, hitem⟩ := Prod.mk.inj (Option.some.inj hlast)
    rw [hpos]
    exact herror (Option.some.inj (hitem.symm.trans hnone))
  split _ _ s hs := by
    rw [hnext] at hs
    exact nomatch hs

/-- The same bytes inside one line: the write is noticed, and the next fill records POP. -/
def repairedOps : List (TraceOp 1) :=
  [.fill 0 (pageRequest 0x10), .write (byteWrite 0x11 0x00), .catchUp 0 false,
    .fill 0 (pageRequest 0x10)]

theorem runSound_repairedOps :
    (boot 1 (popAt 0x10 0x08)).RunSound popTables everyEnds repairedOps := by
  have hstays : ErrorStays popTables 2 (popAt 0x10 0x08) 0x10 :=
    errorStays_of_line (show 0x10 % 128 + 2 ≤ 128 by decide) (by decide +kernel)
  have hfirst : lastItem 0 (ICache.empty.fillEnd popTables everyEnds (popAt 0x10 0x08)
      (pageRequest 0x10)) = some (0x10, some none) := by
    decide +kernel
  refine ⟨fillSound_of_lastItem rfl hfirst fun _ => hstays, trivial, trivial, ?_, trivial⟩
  generalize hm : step popTables everyEnds (step popTables everyEnds
    (step popTables everyEnds (boot 1 (popAt 0x10 0x08)) (.fill 0 (pageRequest 0x10)))
    (.write (byteWrite 0x11 0x00))) (.catchUp 0 false) = m
  have hsecond : lastItem (m.icache 0).makeRoom.mpindex ((m.icache 0).fillEnd popTables everyEnds m.mem
      (pageRequest 0x10)) = some (0x10, some (some popRax)) := by
    rw [← hm]
    decide +kernel
  exact fillSound_of_lastItem rfl hsecond nofun

theorem repaired_pop_is_fresh :
    ∃ e, ((run popTables everyEnds (popAt 0x10 0x08) repairedOps).icache 0).findEntry 0x10 2 = some e ∧
      ((run popTables everyEnds (popAt 0x10 0x08) repairedOps).icache 0).trace e = [some popRax] ∧
      TraceAt popTables 2 (run popTables everyEnds (popAt 0x10 0x08) repairedOps).mem 0x10 e.split
        (((run popTables everyEnds (popAt 0x10 0x08) repairedOps).icache 0).trace e) := by
  have hfind : ((run popTables everyEnds (popAt 0x10 0x08) repairedOps).icache 0).findEntry 0x10 2 =
      some ⟨some 0x10, 1, 1, 1, none⟩ := by
    decide +kernel
  exact ⟨_, hfind, by decide +kernel,
    no_stale_traces popTables everyEnds _ _ runSound_repairedOps 0 (by decide +kernel) _ _ _ hfind⟩

/-- CPU `i` has caught up and finds a trace that memory does not decode to. -/
def Stale (T : OpcodeTables) (m : TraceMachine n) (i : Fin n) (a : Nat) (mode : FetchMode) : Prop :=
  m.CaughtUp i ∧ ∃ e, (m.icache i).findEntry a mode = some e ∧
    ¬ TraceAt T mode m.mem a e.split ((m.icache i).trace e)

theorem stale_of_instr {i : Fin n} {item : TraceItem} (hcaught : m.CaughtUp i)
    (hfind : (m.icache i).findEntry a mode = some e) (htrace : (m.icache i).trace e = [item])
    (hdecode : normalizeDecodeResult
      (fetchDecode T mode.decodeMode (traceBytes m.mem a e.split)) ≠ .ok item) :
    m.Stale T i a mode := by
  refine ⟨hcaught, e, hfind, fun h => hdecode ?_⟩
  rw [htrace] at h
  have := h.1 []
  rwa [append_nil] at this

/-- 8F 08 across two lines is rejected, and then made 8F 00. -/
def rejectedPop : TraceMachine 1 :=
  run popTables everyEnds (popAt 0x7F 0x08)
    [.fill 0 (pageRequest 0x7F), .write (byteWrite 0x80 0x00), .catchUp 0 false]

/-- 8F 00 across two blocks is made 8F 01. -/
def splitPop : TraceMachine 1 :=
  run popTables everyEnds (popAt 0x1FF 0x00)
    [.fill 0 blockRequest, .write (byteWrite 0x200 0x01), .catchUp 0 false]

/-- A rejected instruction marks only the line of its first byte, and a split one the last line
of a page and the first of another: writes to its other bytes go unnoticed. -/
theorem stale_traces :
    rejectedPop.Stale popTables 0 0x7F 2 ∧ splitPop.Stale popTables 0 0x1FF 2 := by
  constructor
  · have hfind : (rejectedPop.icache 0).findEntry 0x7F 2 = some ⟨some 0x7F, 1, 1, 0, none⟩ := by
      decide +kernel
    have htrace : (rejectedPop.icache 0).trace ⟨some 0x7F, 1, 1, 0, none⟩ = [none] := by
      decide +kernel
    exact stale_of_instr (by decide +kernel) hfind htrace (by decide +kernel)
  · have hfind : (splitPop.icache 0).findEntry 0x1FF 2 =
        some ⟨some 0x1FF, 0x80000000, 1, 0, some ⟨1, 0x200, 15⟩⟩ := by
      decide +kernel
    have htrace : (splitPop.icache 0).trace
        ⟨some 0x1FF, 0x80000000, 1, 0, some ⟨1, 0x200, 15⟩⟩ = [some popRax] := by
      decide +kernel
    exact stale_of_instr (by decide +kernel) hfind htrace (by decide +kernel)

end TraceMachine

end RustyBox
