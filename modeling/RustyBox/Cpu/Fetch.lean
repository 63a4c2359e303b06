-- SUMMARY: Instruction fetch: the prefetch window, traces of decoded instructions, and RIP along them.
import RustyBox.Cpu.Canonical
import RustyBox.Lib.Checked

/-!
# Instruction fetch

RIP between the fetch checks and the instruction handlers. `prefetch` checks RIP and opens
a window of the page it points into; `get_icache_entry` reuses the window as long as RIP
stays in it; the trace loop then advances RIP past one decoded instruction after the other
without looking at the window again. Sums of the source without an explicit wrap stop the
loop when they overflow.
-/

namespace RustyBox

open Lib

/-! ## State -/

structure FetchState where
  rip : BitVec 64
  cpuMode : CpuMode
  userPl : Bool
  /-- CR4.LA57 and CR4.LASS -/
  la57 : Bool
  lass : Bool
  /-- VIP and VIF are both set at level 3 and virtual interrupts are enabled -/
  vmeInconsistent : Bool
  csBase : BitVec 64
  csLimit : BitVec 32
  eipPageBias : BitVec 64
  eipPageWindowSize : BitVec 32

/-- Why fetching stops: an exception is delivered, or a sum overflows, with RIP or with the
base of CS in it. -/
inductive LoopStop
  | exception
  | ripOverflow
  | baseOverflow
  deriving DecidableEq, Repr

namespace FetchState

variable (s : FetchState)

/-- `real_mode`. -/
def realMode : Bool := s.cpuMode = .ia32Real

/-- `long64_mode`. -/
def long64Mode : Bool := s.cpuMode = .long64

/-- `is_canonical_access` of an instruction fetch in 64-bit mode. -/
def canonicalFetch : Bool :=
  let accessUserSpace := s.rip >>> 63 = 0#64
  isCanonicalToWidth s.rip (if s.la57 then 57 else 48) &&
    (!s.lass || if s.userPl then accessUserSpace else ¬ accessUserSpace)

/-- The distance of RIP from the start of the window. -/
def eipBiased : BitVec 64 := s.rip + s.eipPageBias

/-- RIP is in the window. -/
def inWindow : Bool :=
  s.eipPageWindowSize ≠ 0 ∧ s.eipBiased.toNat < s.eipPageWindowSize.toNat

/-! ## Prefetch -/

variable (mapped : BitVec 64 → Bool)

/-- `prefetch` in 64-bit mode. -/
def prefetch64 (s : FetchState) : Except LoopStop FetchState :=
  if !s.canonicalFetch then .error .exception
  else if !mapped s.rip then .error .exception
  else .ok { s with eipPageBias := (s.rip &&& 0xFFF#64) - s.rip, eipPageWindowSize := 4096#32 }

/-- The EIP `prefetch` works with outside 64-bit mode: the upper half of RIP is dropped, and
in real mode all but the low 16 bits. -/
def fetchEip : BitVec 32 :=
  if s.realMode then s.rip.setWidth 32 &&& 0xFFFF#32 else s.rip.setWidth 32

/-- The window `prefetch` opens outside 64-bit mode for `CS:eip` at page offset `offset`: it
ends with the page or with the CS limit. -/
def openWindow (eip : BitVec 32) (offset : BitVec 64) : FetchState :=
  let bias := offset - eip.setWidth 64
  let limitWindow := s.csLimit.setWidth 64 + bias + 1#64
  { s with
    rip := eip.setWidth 64
    eipPageBias := bias
    eipPageWindowSize := if limitWindow < 4096#64 then limitWindow.setWidth 32 else 4096#32 }

/-- `prefetch` outside 64-bit mode. -/
def prefetch32 (s : FetchState) : Except LoopStop FetchState :=
  if s.vmeInconsistent then .error .exception
  else match checkedAdd s.csBase (s.fetchEip.setWidth 64) with
    | none => .error .baseOverflow
    | some sum =>
      let laddr := sum &&& 0xFFFFFFFF#64
      if s.csLimit < s.fetchEip then .error .exception
      else if !mapped laddr then .error .exception
      else .ok (s.openWindow s.fetchEip (laddr &&& 0xFFF#64))

/-- `prefetch`; `mapped` says whether the page walk of a linear address succeeds. -/
def prefetch (s : FetchState) : Except LoopStop FetchState :=
  if s.long64Mode then s.prefetch64 mapped else s.prefetch32 mapped

/-- `get_icache_entry`, up to the lookup of the trace. -/
def getIcacheEntry (s : FetchState) : Except LoopStop FetchState :=
  if s.inWindow then .ok s else s.prefetch mapped

/-- `boundary_fetch`: an instruction that does not fit in its page is completed from the next
one, with RIP moved there for the time of the prefetch. -/
def boundaryFetch (s : FetchState) : Except LoopStop FetchState := do
  let remaining := s.eipPageWindowSize.setWidth 64 - s.eipBiased
  match checkedAdd s.rip remaining with
  | none => throw .ripOverflow
  | some split =>
    let s' ← prefetch mapped { s with rip := split }
    return { s' with rip := s.rip }

end FetchState

/-! ## Traces -/

/-- The length of an instruction. -/
abbrev Ilen := { n : Nat // 1 ≤ n ∧ n ≤ 15 }

/-- `BX_MAX_TRACE_LENGTH`. -/
def maxTraceLength : Nat := 32

/-- The instructions a trace runs one after the other, up to the one that ends it. -/
structure Trace where
  lens : List Ilen
  short : lens.length ≤ maxTraceLength

def Trace.bytes (t : Trace) : Nat := (t.lens.map (·.val)).sum

/-- RIP advanced past one instruction. -/
def advanceRip (real : Bool) (rip : BitVec 64) (ilen : Nat) : Except LoopStop (BitVec 64) :=
  match checkedAdd rip (BitVec.ofNat 64 ilen) with
  | none => .error .ripOverflow
  | some advanced => .ok (if real then advanced &&& 0xFFFF#64 else advanced)

/-- RIP advanced past every instruction of a list, as the trace loop does. -/
def advanceAll (real : Bool) : List Ilen → BitVec 64 → Except LoopStop (BitVec 64)
  | [], rip => .ok rip
  | n :: ns, rip => do
    let rip ← advanceRip real rip n
    advanceAll real ns rip

namespace FetchState

/-- The first instruction does not fit in the page. -/
def splits (s : FetchState) (t : Trace) : Bool :=
  match t.lens with
  | [] => false
  | n :: _ => 4096 < s.eipBiased.toNat + n

variable (mapped : BitVec 64 → Bool)

/-- Decoding, once the lookup is done. -/
def fetchTrace (s : FetchState) (t : Trace) : Except LoopStop FetchState :=
  if s.splits t then s.boundaryFetch mapped else .ok s

/-- A trace whose lookup is done, to the handler of its last instruction: the state there,
with RIP past that instruction. -/
def runFetched (s : FetchState) (t : Trace) : Except LoopStop FetchState := do
  let s ← s.fetchTrace mapped t
  let rip ← advanceAll s.realMode t.lens s.rip
  return { s with rip := rip }

/-- A trace with its lookup. -/
def runTrace (s : FetchState) (t : Trace) : Except LoopStop FetchState := do
  let s ← s.getIcacheEntry mapped
  s.runFetched mapped t

/-- The states between traces. A far transfer, a mode change, an RSM and an interrupt empty
the window and may leave anything in RIP; a near transfer outside 64-bit mode writes EIP. -/
inductive Between (mapped : BitVec 64 → Bool) : FetchState → Prop
  | invalidated (s : FetchState) : s.eipPageWindowSize = 0 → Between mapped s
  | trace {s s' : FetchState} (t : Trace) :
      Between mapped s → s.runTrace mapped t = .ok s' → Between mapped s'
  | near {s : FetchState} (rip : BitVec 64) :
      Between mapped s → (s.long64Mode ∨ rip.toNat < 2 ^ 32) → Between mapped { s with rip := rip }

end FetchState

end RustyBox
