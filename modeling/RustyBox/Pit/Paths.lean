-- SUMMARY: The PIT ends in the same state whichever readings of the clock it is moved through.
import RustyBox.Pit.Ticks
import RustyBox.Pit.Controller
import Mathlib.Dynamics.PeriodicPts.Defs
import Mathlib.Tactic.SplitIfs

/-!
# Path independence of PIT time

A sync to a later reading moves the counters by a number of ticks, and these numbers add up over
any sequence of readings as long as none of them is cut to 64 bits. `due` is the exact number; the
counters of a single sync lag behind by 2 ^ 64 ticks where it does not fit.
-/

namespace RustyBox

open Lib Function Nat List PitCounter

/-- What is compared of a counter. -/
def PitCounter.observed (c : PitCounter) : BitVec 16 × Bool × BitVec 32 × BitVec 32 :=
  (c.count, c.output, c.nextChangeTime, c.outTransitions)

namespace BxPitC

variable {s t : BxPitC} {n : Nat}

/-! ## Ticks of the device -/

/-- One PIT clock on all three counters. -/
def tick (s : BxPitC) : BxPitC :=
  { s with
    counters := fun i => (s.counters i).tick
    totalTicks := s.totalTicks + 1#64 }

theorem iterate_tick (s : BxPitC) (n : Nat) :
    tick^[n] s =
      { s with
        counters := fun i => PitCounter.tick^[n] (s.counters i)
        totalTicks := s.totalTicks + BitVec.ofNat 64 n } := by
  induction n with
  | zero =>
    show s = { s with totalTicks := s.totalTicks + 0#64 }
    rw [BitVec.add_zero]
  | succ n ih =>
    rw [Function.iterate_succ_apply', ih, tick, BitVec.ofNat_add, ← BitVec.add_assoc]
    simp only [Function.iterate_succ_apply']

/-- The changes ahead are near, and less than a clock is carried. -/
structure Regular (s : BxPitC) : Prop where
  near : ∀ i, (s.counters i).Near
  carry : s.pitUsecAccumulator < usecPerSecond

theorem regular_iterate_tick (h : s.Regular) (n : Nat) : (tick^[n] s).Regular := by
  rw [iterate_tick]
  exact { h with near := fun i => near_iterate_tick (h.near i) n }

theorem getNextEventTime_lt (h : s.Regular) : s.getNextEventTime.toNat < 2 ^ 16 := by
  have h0 := h.near 0
  have h1 := h.near 1
  have h2 := h.near 2
  rw [getNextEventTime]
  split_ifs <;> assumption

theorem timeDelta_spec (h : s.Regular) (hn : 0 < n) :
    0 < s.timeDelta n ∧ s.timeDelta n ≤ n ∧ s.timeDelta n < 2 ^ 30 := by
  have hevent := getNextEventTime_lt h
  have hmax : maxChunk = 0x3FFFFFFF := rfl
  rw [timeDelta]
  split <;> omega

theorem spends_clockPitPass : Spends tick (fun s _ => s.Regular) clockPitPass := by
  intro s n h hn
  obtain ⟨hpos, hle, hsmall⟩ := timeDelta_spec h hn
  refine ⟨s.timeDelta n, hpos, hle, ?_, regular_iterate_tick h _⟩
  have hcounter (i : Fin 3) : (s.counters i).clockMultiple (s.timeDelta n % 2 ^ 32) =
      PitCounter.tick^[s.timeDelta n] (s.counters i) := by
    rw [Nat.mod_eq_of_lt (by omega)]
    exact (clockMultiple_spec (by omega)).1 fun h => absurd h.le (by omega)
  rw [clockPitPass, iterate_tick]
  simp only [hcounter]

/-! ## Syncs -/

/-- The time since the last sync, in PIT clocks times `usecPerSecond`, with what was carried. -/
def elapsed (s : BxPitC) (usec : BitVec 64) : Nat :=
  s.pitUsecAccumulator + (usec.toNat - s.totalUsec.toNat) * ticksPerSecond

/-- The PIT clocks that are due at a time, however many. -/
def due (s : BxPitC) (usec : BitVec 64) : Nat := s.elapsed usec / usecPerSecond

variable {usec now : BitVec 64} {lag : Nat} {r : BxPitC} {later : BitVec 64} (rate : ClockHz)

theorem advanceTo_of_lt (h : s.Regular) (hlt : s.totalUsec < usec) :
    s.advanceTo usec =
      { s with
        totalUsec := usec
        pitUsecAccumulator := s.elapsed usec % usecPerSecond
        counters := fun i => PitCounter.tick^[s.due usec % 2 ^ 64] (s.counters i)
        totalTicks := s.totalTicks + BitVec.ofNat 64 (s.due usec) } := by
  have hsub : (usec - s.totalUsec).toNat = usec.toNat - s.totalUsec.toNat :=
    BitVec.toNat_sub_of_le (BitVec.le_of_lt hlt)
  have hadd : s.totalUsec + (usec - s.totalUsec) = usec := by
    rw [BitVec.add_comm, BitVec.sub_add_cancel]
  have hmoved : Regular
      { s with totalUsec := usec, pitUsecAccumulator := s.elapsed usec % usecPerSecond } :=
    ⟨h.near, mod_lt _ (by decide)⟩
  have hticks : BitVec.ofNat 64 (s.due usec % 2 ^ 64) = BitVec.ofNat 64 (s.due usec) :=
    BitVec.eq_of_toNat_eq (by simp)
  rw [advanceTo, if_pos hlt, advanceByUsec, hsub, hadd]
  show clockPitTicks
    { s with totalUsec := usec, pitUsecAccumulator := s.elapsed usec % usecPerSecond }
    (s.due usec % 2 ^ 64) = _
  rw [clockPitTicks, spend_eq_iterate spends_clockPitPass hmoved, iterate_tick, hticks]

theorem regular_advanceTo (h : s.Regular) (usec : BitVec 64) : (s.advanceTo usec).Regular := by
  by_cases hlt : s.totalUsec < usec
  · rw [advanceTo_of_lt h hlt]
    exact ⟨fun i => near_iterate_tick (h.near i) _, mod_lt _ (by decide)⟩
  · rwa [advanceTo, if_neg hlt]

/-- `t` is `s` at a later time, where the counters are `lag` times 2 ^ 64 ticks behind. -/
structure Lags (s : BxPitC) (usec : BitVec 64) (lag : Nat) (t : BxPitC) : Prop where
  later : s.totalUsec ≤ usec
  totalUsec : t.totalUsec = usec
  accumulator : t.pitUsecAccumulator = s.elapsed usec % usecPerSecond
  totalTicks : t.totalTicks = s.totalTicks + BitVec.ofNat 64 (s.due usec)
  lag_le : lag * 2 ^ 64 ≤ s.due usec
  counters : ∀ i, t.counters i = PitCounter.tick^[s.due usec - lag * 2 ^ 64] (s.counters i)

theorem lags_refl (h : s.Regular) : Lags s s.totalUsec 0 s := by
  have helapsed : s.elapsed s.totalUsec = s.pitUsecAccumulator := by
    rw [elapsed, Nat.sub_self, Nat.zero_mul, Nat.add_zero]
  have hdue : s.due s.totalUsec = 0 := by
    rw [due, helapsed]
    exact Nat.div_eq_of_lt h.carry
  refine ⟨BitVec.le_refl _, rfl, ?_, ?_, ?_, fun i => ?_⟩
  · rw [helapsed, Nat.mod_eq_of_lt h.carry]
  · rw [hdue, BitVec.add_zero]
  · exact zero_le _
  · rw [hdue]
    rfl

theorem elapsed_of_lags (h : Lags s usec lag t) (hle : usec ≤ later) :
    s.elapsed later = usecPerSecond * s.due usec + t.elapsed later := by
  have hbefore : s.totalUsec.toNat ≤ usec.toNat := h.later
  have hafter : usec.toNat ≤ later.toNat := hle
  have hsplit : s.elapsed later = s.elapsed usec + (later.toNat - usec.toNat) * ticksPerSecond := by
    rw [elapsed, elapsed, Nat.add_assoc, ← Nat.add_mul]
    congr 2
    omega
  have hdiv : usecPerSecond * s.due usec + s.elapsed usec % usecPerSecond = s.elapsed usec :=
    div_add_mod _ _
  have hlater : t.elapsed later =
      s.elapsed usec % usecPerSecond + (later.toNat - usec.toNat) * ticksPerSecond := by
    rw [elapsed, h.accumulator, h.totalUsec]
  rw [hsplit, hlater, ← Nat.add_assoc, hdiv]

theorem due_of_lags (h : Lags s usec lag t)
    (hle : usec ≤ later) : s.due later = s.due usec + t.due later := by
  rw [due, elapsed_of_lags h hle, mul_add_div (by decide)]
  rfl

theorem lag_add {past due : Nat} (h : lag * 2 ^ 64 ≤ past) :
    due % 2 ^ 64 + (past - lag * 2 ^ 64) = past + due - (lag + due / 2 ^ 64) * 2 ^ 64 := by
  omega

/-- The later of two times. -/
def latest (usec later : BitVec 64) : BitVec 64 := if usec < later then later else usec

theorem due_of_le (h : s.Regular) (hle : usec ≤ s.totalUsec) : s.due usec = 0 := by
  rw [due, elapsed, Nat.sub_eq_zero_of_le hle, Nat.zero_mul, Nat.add_zero]
  exact Nat.div_eq_of_lt h.carry

/-- A sync adds to the lag what it cuts off. -/
theorem lags_advanceTo (ht : t.Regular) (h : Lags s usec lag t) (later : BitVec 64) :
    Lags s (latest usec later) (lag + t.due later / 2 ^ 64) (t.advanceTo later) := by
  rw [latest]
  split
  next hlt =>
    have hle : usec ≤ later := BitVec.le_of_lt hlt
    have hdue := due_of_lags h hle
    rw [advanceTo_of_lt ht (h.totalUsec ▸ hlt)]
    refine ⟨BitVec.le_trans h.later hle, rfl, ?_, ?_, ?_, fun i => ?_⟩
    · rw [elapsed_of_lags h hle, mul_add_mod]
    · rw [h.totalTicks, hdue, BitVec.ofNat_add, BitVec.add_assoc]
    · rw [hdue, Nat.add_mul]
      exact Nat.add_le_add h.lag_le (Nat.div_mul_le_self _ _)
    · show PitCounter.tick^[t.due later % 2 ^ 64] (t.counters i) = _
      rw [h.counters i, ← iterate_add_apply, hdue, lag_add h.lag_le]
  next hge =>
    have hle : later ≤ t.totalUsec := h.totalUsec ▸ BitVec.not_lt.mp hge
    rw [due_of_le ht hle, advanceTo, if_neg (BitVec.not_lt.mpr hle)]
    exact h

/-! ## Reachable states -/

theorem regular_new : new.Regular where
  near := by
    unfold Near
    decide
  carry := by decide

theorem regular_updateCounter (h : s.Regular) (i : Fin 3) {f : PitCounter → PitCounter}
    (hf : ∀ c : PitCounter, c.Near → (f c).Near) : (s.updateCounter i f).Regular := by
  refine { h with near := fun j => ?_ }
  show (update s.counters i (f (s.counters i)) j).Near
  by_cases hj : j = i
  · rw [hj, update_self]
    exact hf _ (h.near i)
  · rw [update_of_ne hj]
    exact h.near j

theorem regular_syncToIcount (h : s.Regular) (clock : VmClock) : (s.syncToIcount clock).Regular :=
  regular_advanceTo (s := { s with
    icountAtLastSync := clock.now
    usecRemainder := clock.microsPhase.remainder }) { h with } _

theorem regular_readCounter (h : s.Regular) (i : Fin 3) : (s.readCounter i).2.Regular :=
  regular_updateCounter h i (f := fun c => c.read.2) fun c hc => by
    rwa [Near, nextChangeTime_read]

theorem regular_drainIrq0Events (h : s.Regular) : s.drainIrq0Events.2.Regular :=
  regular_updateCounter h 0 (f := fun c => c.takeOutTransitions.2) fun _ hc => hc

theorem near_latchCount (c : PitCounter) (h : c.Near) : c.latchCount.Near := by
  rwa [Near, nextChangeTime_latchCount]

theorem near_readBackCounter (value : BitVec 8) (c : PitCounter) (h : c.Near) :
    (readBackCounter value c).Near := by
  have hlatched : (if value &&& 0x20#8 = 0#8 then c.latchCount else c).Near :=
    near_of_ite (near_latchCount c h) h
  refine near_of_ite ?_ hlatched
  rwa [Near, nextChangeTime_latchStatus]

theorem regular_writeControl (h : s.Regular) (value : BitVec 8) :
    (s.writeControl value).Regular := by
  have hcommand (i : Fin 3) :
      (if value >>> 4 &&& 3#8 = 0#8 then s.updateCounter i latchCount
        else s.updateCounter i (·.program value)).Regular := by
    split
    · exact regular_updateCounter h i near_latchCount
    · exact regular_updateCounter h i fun _ _ => near_zero
  rw [writeControl]
  split
  · exact hcommand 0
  · exact hcommand 1
  · exact hcommand 2
  · exact { h with
      near := fun i => near_of_ite (near_readBackCounter value _ (h.near i)) (h.near i) }

theorem regular_writePort61 (h : s.Regular) (value : BitVec 8) : (s.writePort61 value).Regular := by
  have hgate := regular_updateCounter h 2 fun c hc =>
    near_setGate hc (value &&& 1#8 != 0#8)
  rw [writePort61]
  split <;> exact { hgate with }

theorem regular_step (h : s.Regular) (op : PitOp) : (s.step op).Regular := by
  cases op with
  | read port clock =>
    have hsynced := regular_syncToIcount h clock
    rw [step, read]
    split
    · exact regular_readCounter hsynced 0
    · exact regular_readCounter hsynced 1
    · exact regular_readCounter hsynced 2
    all_goals exact hsynced
  | write port value clock =>
    have hsynced := regular_syncToIcount h clock
    rw [step, write]
    split
    · exact regular_updateCounter hsynced 0 fun c hc => near_write hc _
    · exact regular_updateCounter hsynced 1 fun c hc => near_write hc _
    · exact regular_updateCounter hsynced 2 fun c hc => near_write hc _
    · exact regular_writeControl hsynced _
    · exact regular_writePort61 hsynced _
    · exact hsynced
  | timerCallback clock => exact regular_drainIrq0Events (regular_advanceTo h _)
  | syncToIcount clock => exact regular_syncToIcount h clock
  | syncToSystemTicks clock => exact regular_advanceTo h _
  | drainIrq0Events => exact regular_drainIrq0Events h
  | setGate2 gate => exact regular_updateCounter h 2 fun c hc => near_setGate hc gate
  | enableIrq enabled | setTimerHandle handle | initIcountSync icount ips => exact { h with }
  | init => exact { regular_new with }

theorem regular_run (ops : List PitOp) : (new.run ops).Regular :=
  foldlRecOn ops step regular_new fun _ h op _ => regular_step h op

/-! ## Paths -/

/-- The two ways to move the PIT to a reading of the clock. -/
inductive SyncCall
  | syncToIcount
  | syncToSystemTicks

/-- A call with its reading, at a fixed rate of the clock. -/
def sync (rate : ClockHz) (s : BxPitC) : SyncCall × BitVec 64 → BxPitC
  | (.syncToIcount, now) => s.syncToIcount ⟨now, rate⟩
  | (.syncToSystemTicks, now) => s.syncToSystemTicks ⟨now, rate⟩

def microsAt (rate : ClockHz) (now : BitVec 64) : BitVec 64 := VmClock.micros ⟨now, rate⟩

theorem toNat_microsAt (now : BitVec 64) :
    (microsAt rate now).toNat = min (now.toNat * 1000000 / rate.hz.toNat) (2 ^ 64 - 1) :=
  toNat_saturate _

theorem microsAt_mono {earlier : BitVec 64} (h : earlier ≤ now) :
    microsAt rate earlier ≤ microsAt rate now := by
  have hdiv : earlier.toNat * 1000000 / rate.hz.toNat ≤ now.toNat * 1000000 / rate.hz.toNat :=
    Nat.div_le_div_right (mul_le_mul_right _ h)
  rw [BitVec.le_def, toNat_microsAt, toNat_microsAt]
  omega

theorem regular_sync (h : s.Regular) (rate : ClockHz) (call : SyncCall × BitVec 64) :
    (sync rate s call).Regular := by
  obtain ⟨_ | _, now⟩ := call
  · exact regular_syncToIcount h _
  · exact regular_advanceTo h _

theorem lags_sync (ht : t.Regular) (h : Lags s usec lag t) (rate : ClockHz)
    (call : SyncCall × BitVec 64) :
    Lags s (latest usec (microsAt rate call.2)) (lag + t.due (microsAt rate call.2) / 2 ^ 64)
      (sync rate t call) := by
  obtain ⟨_ | _, now⟩ := call
  · exact lags_advanceTo (t := { t with
      icountAtLastSync := now
      usecRemainder := (VmClock.microsPhase ⟨now, rate⟩).remainder }) { ht with } { h with } _
  · exact lags_advanceTo ht h _

theorem lags_syncs {bound : BitVec 64} (ht : t.Regular) (h : Lags s usec lag t)
    (husec : usec ≤ bound) (calls : List (SyncCall × BitVec 64))
    (hcalls : ∀ call ∈ calls, microsAt rate call.2 ≤ bound) :
    ∃ usec' lag', usec' ≤ bound ∧ Lags s usec' lag' (calls.foldl (sync rate) t) ∧
      (calls.foldl (sync rate) t).Regular := by
  induction calls generalizing t usec lag with
  | nil => exact ⟨usec, lag, husec, h, ht⟩
  | cons call calls ih =>
    obtain ⟨hcall, hcalls⟩ := List.forall_mem_cons.mp hcalls
    refine ih (regular_sync ht rate call) (lags_sync ht h rate call) ?_ hcalls
    rw [latest]
    split
    · exact hcall
    · exact husec

theorem latest_eq {first : BitVec 64} (hfirst : first ≤ usec)
    (hlast : usec ≤ latest first later) : latest usec later = latest first later := by
  rw [latest] at hlast
  rw [latest, latest]
  split_ifs at hlast ⊢ <;> bv_omega

variable {calls : List (SyncCall × BitVec 64)}

/-- Whatever the way, the end of a path lags behind by some number of wraps. -/
theorem lags_path (h : s.Regular) (rate : ClockHz) (hcalls : ∀ call ∈ calls, call.2 ≤ now)
    (last : SyncCall) :
    ∃ lag, Lags s (latest s.totalUsec (microsAt rate now)) lag
      ((calls ++ [(last, now)]).foldl (sync rate) s) := by
  have hmicros : microsAt rate now ≤ latest s.totalUsec (microsAt rate now) := by
    rw [latest]
    split_ifs <;> bv_omega
  have hstart : s.totalUsec ≤ latest s.totalUsec (microsAt rate now) := by
    rw [latest]
    split_ifs <;> bv_omega
  obtain ⟨usec, lag, hbound, hlags, hregular⟩ := lags_syncs rate h (lags_refl h) hstart calls
    fun call hcall => BitVec.le_trans (microsAt_mono rate (hcalls call hcall)) hmicros
  have hlast := lags_sync hregular hlags rate (last, now)
  rw [latest_eq hlags.later hbound] at hlast
  rw [foldl_append]
  exact ⟨_, hlast⟩

theorem due_latest (h : s.Regular) (usec : BitVec 64) :
    s.due (latest s.totalUsec usec) = s.due usec := by
  rw [latest]
  split
  · rfl
  next hge => rw [due_of_le h (BitVec.not_lt.mp hge), due_of_le h (BitVec.le_refl _)]

/-- The whole range of the clock is less than two wraps. -/
theorem due_lt (h : s.Regular) (usec : BitVec 64) : s.due usec < 2 * 2 ^ 64 := by
  have hcarry : s.pitUsecAccumulator < 1000000 := h.carry
  refine Nat.div_lt_of_lt_mul ?_
  show s.pitUsecAccumulator + (usec.toNat - s.totalUsec.toNat) * 1193181 < 1000000 * (2 * 2 ^ 64)
  omega

theorem lags_single (h : s.Regular) (rate : ClockHz) (single : SyncCall) (now : BitVec 64) :
    Lags s (latest s.totalUsec (microsAt rate now)) (s.due (microsAt rate now) / 2 ^ 64)
      (sync rate s (single, now)) := by
  have hlags := lags_sync h (lags_refl h) rate (single, now)
  rwa [zero_add] at hlags

/-- A stop on the way keeps two parts from being cut off that are too long together. -/
theorem lags_two (h : s.Regular) (rate : ClockHz) {first : BitVec 64} (hle : first ≤ now)
    (hstart : s.totalUsec ≤ microsAt rate first) (hfirst : s.due (microsAt rate first) < 2 ^ 64)
    (hrest : s.due (microsAt rate now) < s.due (microsAt rate first) + 2 ^ 64)
    (call last : SyncCall) :
    Lags s (latest s.totalUsec (microsAt rate now)) 0
      (sync rate (sync rate s (call, first)) (last, now)) := by
  have hone := lags_single h rate call first
  have hlatest : latest s.totalUsec (microsAt rate first) = microsAt rate first := by
    rw [latest]
    split_ifs <;> bv_omega
  rw [hlatest, Nat.div_eq_of_lt hfirst] at hone
  have hdue := due_of_lags hone (microsAt_mono rate hle)
  have htwo := lags_sync (regular_sync h rate _) hone rate (last, now)
  have hcut : (sync rate s (call, first)).due (microsAt rate now) < 2 ^ 64 := by omega
  have hend : latest (microsAt rate first) (microsAt rate now) =
      latest s.totalUsec (microsAt rate now) := by
    have hmono := microsAt_mono rate hle
    rw [latest, latest]
    split_ifs <;> bv_omega
  rwa [hend, Nat.div_eq_of_lt hcut] at htwo

/-- The readings of the clock are at most a second apart. -/
theorem reading_near {hz : Nat} (hhz : 0 < hz) (usec : Nat) :
    usec * hz / 1000000 * 1000000 / hz ≤ usec ∧
      usec ≤ usec * hz / 1000000 * 1000000 / hz + 1000000 := by
  have hbelow : usec * hz / 1000000 * 1000000 ≤ usec * hz := Nat.div_mul_le_self _ _
  constructor
  · exact Nat.div_le_of_le_mul (mul_comm usec hz ▸ hbelow)
  · rw [← add_mul_div_right _ _ hhz, le_div_iff_mul_le hhz]
    have hsecond : 1000000 ≤ 1000000 * hz := Nat.le_mul_of_pos_right _ hhz
    omega

theorem exists_reading {usec : Nat} (husec : usec < (microsAt rate now).toNat) :
    ∃ first, first ≤ now ∧ (microsAt rate first).toNat ≤ usec ∧
      usec ≤ (microsAt rate first).toNat + 1000000 := by
  obtain ⟨hbelow, habove⟩ := reading_near rate.hz_pos usec
  generalize usec * rate.hz.toNat / 1000000 = reading at hbelow habove
  rw [toNat_microsAt] at husec
  have hreading : reading ≤ now.toNat := by
    by_contra hlater
    have hmono : now.toNat * 1000000 / rate.hz.toNat ≤ reading * 1000000 / rate.hz.toNat :=
      Nat.div_le_div_right (by omega)
    omega
  have hfits : (BitVec.ofNat 64 reading).toNat = reading := by
    rw [BitVec.toNat_ofNat, Nat.mod_eq_of_lt (lt_of_le_of_lt hreading now.isLt)]
  refine ⟨BitVec.ofNat 64 reading, ?_, ?_⟩
  · rwa [BitVec.le_def, hfits]
  · rw [toNat_microsAt, hfits]
    omega

/-- Where a single sync is cut off, there is a stop on the way: some 10 ^ 19 microseconds after
the start. -/
theorem exists_stop (h : s.Regular) (rate : ClockHz) (hdue : 2 ^ 64 ≤ s.due (microsAt rate now)) :
    ∃ first, first ≤ now ∧ s.totalUsec ≤ microsAt rate first ∧
      s.due (microsAt rate first) < 2 ^ 64 ∧
      s.due (microsAt rate now) < s.due (microsAt rate first) + 2 ^ 64 := by
  have hcarry : s.pitUsecAccumulator < 1000000 := h.carry
  have hend := (microsAt rate now).isLt
  -- the time at the end is more than 10 ^ 19 after the start
  have hfar : s.totalUsec.toNat + 10 ^ 19 < (microsAt rate now).toNat := by
    have hmul := (le_div_iff_mul_le (by decide)).mp hdue
    have helapsed : 2 ^ 64 * 1000000 ≤ s.pitUsecAccumulator +
        ((microsAt rate now).toNat - s.totalUsec.toNat) * 1193181 := hmul
    omega
  obtain ⟨first, hle, hbelow, habove⟩ := exists_reading rate hfar
  refine ⟨first, hle, BitVec.le_def.mpr (by omega), ?_, ?_⟩
  · refine Nat.div_lt_of_lt_mul ?_
    show s.pitUsecAccumulator + ((microsAt rate first).toNat - s.totalUsec.toNat) * 1193181 <
      1000000 * 2 ^ 64
    omega
  · have hstop : 2 ^ 63 ≤ s.due (microsAt rate first) := by
      refine (le_div_iff_mul_le (by decide)).mpr ?_
      show 2 ^ 63 * 1000000 ≤ s.pitUsecAccumulator +
        ((microsAt rate first).toNat - s.totalUsec.toNat) * 1193181
      omega
    have hwhole : s.due (microsAt rate now) < 2 ^ 63 + 2 ^ 64 := by
      refine Nat.div_lt_of_lt_mul ?_
      show s.pitUsecAccumulator + ((microsAt rate now).toNat - s.totalUsec.toNat) * 1193181 <
        1000000 * (2 ^ 63 + 2 ^ 64)
      omega
    exact Nat.lt_of_lt_of_le hwhole (Nat.add_le_add_right hstop _)

/-! ## Path independence -/

/-- What a guest or a snapshot sees of the time: the counters with their pending transitions, and
the position of the device. -/
structure SameTime (s t : BxPitC) : Prop where
  counters : ∀ i, (s.counters i).observed = (t.counters i).observed
  totalUsec : s.totalUsec = t.totalUsec
  totalTicks : s.totalTicks = t.totalTicks
  accumulator : s.pitUsecAccumulator = t.pitUsecAccumulator

theorem sameTime_of_lags {lag' : Nat} (hs : Lags r usec lag s) (ht : Lags r usec lag' t)
    (hcounters : ∀ i, (s.counters i).observed = (t.counters i).observed) : SameTime s t :=
  ⟨hcounters, hs.totalUsec.trans ht.totalUsec.symm, hs.totalTicks.trans ht.totalTicks.symm,
    hs.accumulator.trans ht.accumulator.symm⟩

theorem readings_le {last : SyncCall}
    (h : ((calls ++ [(last, now)]).map Prod.snd).Pairwise (· ≤ ·)) :
    ∀ call ∈ calls, call.2 ≤ now := by
  intro call hcall
  rw [map_append, pairwise_append] at h
  exact h.2.2 _ (mem_map_of_mem hcall) now (mem_singleton_self now)

theorem due_div_eq_one (h : s.Regular) (hdue : 2 ^ 64 ≤ s.due usec) : s.due usec / 2 ^ 64 = 1 := by
  have hlt := due_lt h usec
  omega

/-- While fewer than 2 ^ 64 clocks are due, nothing is cut off on any path. -/
theorem sameTime_of_due_lt (h : s.Regular) (rate : ClockHz)
    (hdue : s.due (microsAt rate now) < 2 ^ 64) (hcalls : ∀ call ∈ calls, call.2 ≤ now)
    (last single : SyncCall) :
    SameTime ((calls ++ [(last, now)]).foldl (sync rate) s) (sync rate s (single, now)) := by
  obtain ⟨lag, hpath⟩ := lags_path h rate hcalls last
  have hsingle := lags_single h rate single now
  rw [Nat.div_eq_of_lt hdue] at hsingle
  have hlag := hpath.lag_le
  rw [due_latest h] at hlag
  obtain rfl : lag = 0 := by omega
  exact sameTime_of_lags hpath hsingle fun i =>
    congrArg observed ((hpath.counters i).trans (hsingle.counters i).symm)

/-- From a reachable state, all paths to a reading agree with the single sync, exactly if fewer
than 2 ^ 64 clocks are due or the last 2 ^ 64 of them change nothing that is seen. The clocks of a
counter add up unless mode 3 loses a carry. -/
theorem pit_path_independent_iff (ops : List PitOp) (rate : ClockHz) (now : BitVec 64) :
    ((∀ (calls : List (SyncCall × BitVec 64)) (last single : SyncCall),
        ((calls ++ [(last, now)]).map Prod.snd).Pairwise (· ≤ ·) →
        SameTime ((calls ++ [(last, now)]).foldl (sync rate) (new.run ops))
          (sync rate (new.run ops) (single, now))) ↔
      (new.run ops).due (microsAt rate now) < 2 ^ 64 ∨
        ∀ i, (PitCounter.tick^[(new.run ops).due (microsAt rate now)]
            ((new.run ops).counters i)).observed =
          (PitCounter.tick^[(new.run ops).due (microsAt rate now) - 2 ^ 64]
            ((new.run ops).counters i)).observed) ∧
    ∀ (c : PitCounter) (a b : Nat), a + b < 2 ^ 32 →
      (c.clockMultiple (a + b) = (c.clockMultiple a).clockMultiple b ↔ ¬ c.LosesCarry a b) := by
  have h := regular_run ops
  generalize new.run ops = s at h
  refine ⟨⟨fun hpaths => ?_, fun hcases calls last single hordered => ?_⟩,
    fun c a b => PitCounter.clockMultiple_add_iff⟩
  · by_cases hdue : s.due (microsAt rate now) < 2 ^ 64
    · exact .inl hdue
    · refine .inr fun i => ?_
      -- a path with one stop is not cut off, and ends one wrap ahead
      obtain ⟨first, hle, hstart, hfirst, hrest⟩ := exists_stop h rate (Nat.not_lt.mp hdue)
      have hpath := (hpaths [(.syncToIcount, first)] .syncToIcount .syncToIcount
        (by simpa using hle)).counters i
      have htwo := lags_two h rate hle hstart hfirst hrest .syncToIcount .syncToIcount
      have hone := lags_single h rate .syncToIcount now
      rw [due_div_eq_one h (Nat.not_lt.mp hdue)] at hone
      rw [foldl_append, foldl_cons, foldl_cons, foldl_nil, foldl_nil, htwo.counters, hone.counters,
        due_latest h, Nat.zero_mul, Nat.one_mul] at hpath
      exact hpath
  · have hcalls := readings_le hordered
    by_cases hdue : s.due (microsAt rate now) < 2 ^ 64
    · exact sameTime_of_due_lt h rate hdue hcalls last single
    · obtain ⟨lag, hpath⟩ := lags_path h rate hcalls last
      have hsingle := lags_single h rate single now
      rw [due_div_eq_one h (Nat.not_lt.mp hdue)] at hsingle
      have hlag := hpath.lag_le
      have hlt := due_lt h (microsAt rate now)
      rw [due_latest h] at hlag
      refine sameTime_of_lags hpath hsingle fun i => ?_
      rw [hpath.counters, hsingle.counters]
      obtain rfl | rfl : lag = 0 ∨ lag = 1 := by omega
      · rw [due_latest h, Nat.zero_mul, Nat.one_mul]
        exact hcases.resolve_left hdue i
      · rfl

/-! ## A counter that runs freely in BCD -/

section

def oneHz : ClockHz := ⟨1#64, by decide⟩

/-- Counter 0 in mode 0, BCD, with a count of 1. -/
def bcdOps : List PitOp :=
  [.write 0x43#16 0x11#32 ⟨0#64, oneHz⟩, .write 0x40#16 0x01#32 ⟨0#64, oneHz⟩]

variable {c : PitCounter}

/-- From 0 a BCD counter is back at 0 after 10000 steps. -/
theorem isPeriodicPt_lower (hbcd : c.bcdMode = true) (hbinary : c.countBinary = 0#16)
    (hcount : c.count = 0#16) : IsPeriodicPt lower 10000 c := by
  have hvalue : c.wrapped.countBinary = 9999#16 := if_pos hbcd
  have hsteps := iterate_lower_of_le (c := c.wrapped) (n := 9999) (by decide)
    (by rw [hvalue]; decide)
  show lower^[9999 + 1] c = c
  rw [iterate_succ_apply, show c.lower = c.wrapped from if_pos hbinary, hsteps, hvalue]
  have hself : { c with count := 0#16, countBinary := 0#16 } = c := by
    cases c
    simp only at hcount hbinary
    rw [hcount, hbinary]
  have hend : 9999#16 - BitVec.ofNat 16 9999 = 0#16 := by decide
  have hdigits : (if c.bcdMode then bcdDigits 0#16 else 0#16) = 0#16 := by
    rw [hbcd]
    decide
  refine Eq.trans ?_ hself
  show { c with count := if c.bcdMode then bcdDigits 0#16 else 0#16, countBinary := 0#16 } = _
  rw [hdigits]

/-- A count between two rounds. -/
theorem count_iterate_lower (hbcd : c.bcdMode = true) (hbinary : c.countBinary = 0#16)
    (hcount : c.count = 0#16) (hn : 2 ≤ n % 10000) :
    (lower^[n] c).count =
      bcdDigits (BitVec.ofNat 16 (10000 - n % 10000)) := by
  rw [← (isPeriodicPt_lower hbcd hbinary hcount).iterate_mod_apply n]
  have hlt : n % 10000 < 10000 := mod_lt _ (by decide)
  obtain ⟨k, hk⟩ : ∃ k, n % 10000 = k + 1 := ⟨n % 10000 - 1, by omega⟩
  rw [hk] at hn hlt ⊢
  have hvalue : c.wrapped.countBinary = 9999#16 := if_pos hbcd
  have hsteps := iterate_lower_of_le (c := c.wrapped) (n := k) (by omega)
    (by rw [hvalue]; show k ≤ 9999; omega)
  rw [iterate_succ_apply, show c.lower = c.wrapped from if_pos hbinary, hsteps, hvalue]
  have hrest : 9999#16 - BitVec.ofNat 16 k = BitVec.ofNat 16 (10000 - (k + 1)) := by bv_omega
  rw [hrest]
  exact if_pos hbcd

/-- Two clocks after the count was written, counter 0 runs freely. -/
theorem count_after_bcdOps (hn : 2 ≤ n % 10000) :
    (PitCounter.tick^[n + 2] ((new.run bcdOps).counters 0)).count =
      bcdDigits (BitVec.ofNat 16 (10000 - n % 10000)) := by
  have hmode : (PitCounter.tick^[2] ((new.run bcdOps).counters 0)).mode.toNat = 0 := by
    decide +kernel
  have hidle : (PitCounter.tick^[2] ((new.run bcdOps).counters 0)).nextChangeTime = 0#32 := by
    decide +kernel
  have hcounting : (PitCounter.tick^[2] ((new.run bcdOps).counters 0)).Counting := by decide +kernel
  rw [iterate_add_apply, iterate_tick_idle (by omega) hidle, if_pos hcounting,
    iterate_lowerClock_of_ne (by omega), decrementMultiple_eq]
  exact count_iterate_lower (by decide +kernel) (by decide +kernel) (by decide +kernel) hn

/-- At one tick per second, sixteen million million seconds are 19090896000000000000 clocks, more
than 2 ^ 64. A stop half way leaves counter 0 at 2, a single sync at 1618. -/
theorem bcd_count_depends_on_path :
    (([(.syncToIcount, 8000000000000#64), (.syncToIcount, 16000000000000#64)].foldl (sync oneHz)
      (new.run bcdOps)).counters 0).count = 0x0002#16 ∧
    ((sync oneHz (new.run bcdOps) (.syncToIcount, 16000000000000#64)).counters 0).count =
      0x1618#16 := by
  have h := regular_run bcdOps
  have hdue : (new.run bcdOps).due (latest (new.run bcdOps).totalUsec
      (microsAt oneHz 16000000000000#64)) = 19090896000000000000 := by decide +kernel
  have hle : 8000000000000#64 ≤ 16000000000000#64 := by decide
  have htwo := lags_two h oneHz hle (by decide +kernel) (by decide +kernel) (by decide +kernel)
    .syncToIcount .syncToIcount
  have hone := lags_single h oneHz .syncToIcount 16000000000000#64
  have hlag : (new.run bcdOps).due (microsAt oneHz 16000000000000#64) / 2 ^ 64 = 1 := by
    decide +kernel
  rw [hlag] at hone
  have htwoTicks : 19090896000000000000 - 0 * 2 ^ 64 = 19090895999999999998 + 2 := by decide
  have honeTicks : 19090896000000000000 - 1 * 2 ^ 64 = 644151926290448382 + 2 := by decide
  rw [foldl_cons, foldl_cons, foldl_nil, htwo.counters 0, hone.counters 0, hdue,
    htwoTicks, honeTicks, count_after_bcdOps (by decide), count_after_bcdOps (by decide)]
  decide

end

end BxPitC

end RustyBox
