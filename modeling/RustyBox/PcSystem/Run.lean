-- SUMMARY: Runs of the timer wheel from `new` and `initialize`, and the exactness of their ticks.
import RustyBox.PcSystem.Tick
import RustyBox.Lib.Reachability

/-!
# Runs of the wheel

A run starts from `new` and `initialize` and calls the public operations of the
wheel in any order, whether they succeed or fail; it ends where a tick overflows a
`u64`. Every wheel of a run is well formed, so its ticks are exact.
-/

namespace RustyBox

open PcSystem

/-- A call on the wheel, with arguments of the source's widths. -/
inductive TimerOp
  | registerTimer (owner : TimerOwner) (period : UInt64) (continuous active : Bool)
      (id : List UInt8)
  | registerTimerUsec (owner : TimerOwner) (useconds : UInt32) (continuous active : Bool)
      (id : List UInt8)
  | activateTimerAtTicks (timerIndex : Nat) (deadlineTicks : UInt64) (continuous : Bool)
  | activateTimerAtTicksWithPeriod (timerIndex : Nat) (deadlineTicks period : UInt64)
      (continuous : Bool)
  | activateTimer (timerIndex : Nat) (period : UInt64) (continuous : Bool)
  | activateTimerUsec (timerIndex : Nat) (useconds : UInt32) (continuous : Bool)
  | activateTimerNsec (timerIndex : Nat) (nseconds : UInt64) (continuous : Bool)
  | reactivateTimerRelative (timerIndex : Nat) (period : UInt64)
  | deactivateTimer (timerIndex : Nat)
  | unregisterTimer (timerIndex : Nat)
  | tickn (n : UInt32)
  | tick1
  | takeFiredTimers

/-- The wheel after a call; `none` when a tick sum overflows. -/
def PcSystem.step (s : PcSystem) : TimerOp → Option PcSystem
  | .registerTimer owner period continuous active id =>
    some (s.registerTimer owner period.toNat continuous active id).2
  | .registerTimerUsec owner useconds continuous active id =>
    some (s.registerTimerUsec owner useconds.toNat continuous active id).2
  | .activateTimerAtTicks i d continuous => some (s.activateTimerAtTicks i d.toNat continuous).2
  | .activateTimerAtTicksWithPeriod i d p continuous =>
    some (s.activateTimerAtTicksWithPeriod i d.toNat p.toNat continuous).2
  | .activateTimer i p continuous => some (s.activateTimer i p.toNat continuous).2
  | .activateTimerUsec i u continuous => some (s.activateTimerUsec i u.toNat continuous).2
  | .activateTimerNsec i u continuous => some (s.activateTimerNsec i u.toNat continuous).2
  | .reactivateTimerRelative i p => some (s.reactivateTimerRelative i p.toNat).2
  | .deactivateTimer i => some (s.deactivateTimer i).2
  | .unregisterTimer i => some (s.unregisterTimer i).2
  | .tickn n => (s.tickn n.toNat).map Prod.fst
  | .tick1 => s.tick1.map Prod.fst
  | .takeFiredTimers => some s.takeFiredTimers.2

/-- The wheels of the runs all of whose calls meet `ok`. -/
def RunReaches (ok : PcSystem → TimerOp → Prop) (s : PcSystem) : Prop :=
  ∃ ips : UInt32, Lib.Reachable (fun s op s' => s.step op = some s') ok
    (new.initializeWith ips.toNat) s

/-- The wheels reached from `new` and `initialize`. -/
def PcSystem.Reachable (s : PcSystem) : Prop := RunReaches (fun _ _ => True) s

theorem UInt64.toNat_le_u64Max (x : UInt64) : x.toNat ≤ u64Max := Nat.le_of_lt_succ x.toNat_lt

theorem WellFormed.tickn {s s' : PcSystem} (h : WellFormed s) {n : Nat}
    (ht : (s.tickn n).map Prod.fst = some s') : WellFormed s' := by
  obtain ⟨⟨s₁, fires⟩, heq, rfl⟩ := Option.map_eq_some_iff.mp ht
  exact (tickn_ticked h heq).wellFormed

/-- The calls that start a timer. -/
def TimerOp.Starts : TimerOp → Prop
  | .activateTimerAtTicks .. | .activateTimerAtTicksWithPeriod .. | .activateTimer ..
  | .activateTimerUsec .. | .activateTimerNsec .. | .reactivateTimerRelative .. => True
  | _ => False

theorem arming_step {s s' : PcSystem} {op : TimerOp} (hop : op.Starts)
    (hs : s.step op = some s') : Arming s s' := by
  cases op with
  | activateTimerAtTicks i d c =>
    cases hs; exact arming_activateTimerAtTicks s i c (UInt64.toNat_le_u64Max d)
  | activateTimerAtTicksWithPeriod i d p c =>
    cases hs
    exact arming_activateTimerAtTicksWithPeriod s i _ c (UInt64.toNat_le_u64Max d)
      (UInt64.toNat_le_u64Max p)
  | activateTimer => cases hs; exact arming_activateTimer ..
  | activateTimerUsec => cases hs; exact arming_activateTimerUsec ..
  | activateTimerNsec => cases hs; exact arming_activateTimerNsec ..
  | reactivateTimerRelative => cases hs; exact arming_reactivateTimerRelative ..
  | _ => cases hop

/-- Every call keeps the invariant. -/
theorem WellFormed.step {s s' : PcSystem} (h : WellFormed s) {op : TimerOp}
    (hs : s.step op = some s') : WellFormed s' := by
  cases op with
  | registerTimer => cases hs; exact h.registerTimer _ _ _ _ _
  | registerTimerUsec => cases hs; exact h.registerTimerUsec _ _ _ _ _
  | deactivateTimer => cases hs; exact h.deactivateTimer _
  | unregisterTimer => cases hs; exact h.unregisterTimer _
  | tickn n => exact h.tickn hs
  | tick1 => exact h.tickn (n := 1) (by rw [← h.tick1_eq]; exact hs)
  | takeFiredTimers => cases hs; exact { h with queue := queueOk_nil }
  | _ => exact (arming_step (by trivial) hs).wellFormed h

theorem RunReaches.wellFormed {ok : PcSystem → TimerOp → Prop} {s : PcSystem}
    (h : RunReaches ok s) : WellFormed s := by
  obtain ⟨ips, h⟩ := h
  exact h.invariant (start_wellFormed _) fun _ _ _ hs _ hstep => hs.step hstep

/-! ## Exactness -/

/-- The fires recorded for `owner` in a list of fires of `s`. -/
def PcSystem.firesOf (s : PcSystem) (fires : List Fire) (owner : TimerOwner) : Nat :=
  (fires.map fun f => (s.timers f.2).owner).count owner

theorem recordFires_eq (s : PcSystem) (fires : List Fire) :
    s.recordFires (fires.map Prod.snd) =
      (fires.map fun f => (s.timers f.2).owner).foldl recordFiredOwner s.fired := by
  simp [recordFires, List.foldl_map]

theorem QueueOk.firedCount_le {q : List (TimerOwner × Nat)} (h : QueueOk q) (o : TimerOwner) :
    firedCount q o ≤ u32Max := by
  have hle := h.count_le
  clear h
  induction q with
  | nil => exact Nat.zero_le _
  | cons e rest ih =>
    simp only [firedCount]
    split_ifs
    · exact hle e (by simp)
    · exact ih fun e he => hle e (by simp [he])

/-- Timer wheel exactness. From every reachable wheel, `tickn(n)` advances time by
exactly `n`; a slot fires at tick `x` exactly when its timer is active on entry and
due at `x` within the call, and never twice at one tick. The queue counts fires per
owner: an owner in the queue afterwards has grown by the fires of all its timers, up
to saturation, and an owner that is not had no fire or met a full queue. The call
returns whenever the rearmed deadlines fit in a `u64`, and `tick1` is `tickn(1)`. -/
theorem tickn_exact {s : PcSystem} (hs : s.Reachable) (n : UInt32) :
    (∀ s' fires, s.tickn n.toNat = some (s', fires) →
      s'.timeTicks = s.timeTicks + n.toNat ∧
      fires.Nodup ∧
      (∀ x i, (x, i) ∈ fires ↔ (s.timers i).flags.active ∧
        (if (s.timers i).flags.continuous
          then ∃ k, x = (s.timers i).timeToFire + k * (s.timers i).period
          else x = (s.timers i).timeToFire) ∧
        s.timeTicks < x ∧ x ≤ s.timeTicks + n.toNat) ∧
      (∀ o, o ≠ .nullTimer → o ∈ s'.fired.map Prod.fst →
        firedCount s'.fired o = min (firedCount s.fired o + s.firesOf fires o) u32Max) ∧
      (∀ o, o ≠ .nullTimer → o ∉ s'.fired.map Prod.fst →
        s.firesOf fires o = 0 ∨ s'.fired.length = maxTimers) ∧
      .nullTimer ∉ s'.fired.map Prod.fst) ∧
    (RoomFor s n.toNat → ∃ s' fires, s.tickn n.toNat = some (s', fires)) ∧
    s.tick1 = s.tickn 1 := by
  have hw := RunReaches.wellFormed hs
  refine ⟨fun s' fires ht => ?_, tickn_returns hw, hw.tick1_eq⟩
  have h := tickn_ticked hw ht
  have hq := h.queue.trans (recordFires_eq s fires)
  refine ⟨h.time, h.nodup, fun x i => ?_, fun o ho hm => ?_, fun o ho hm => ?_,
    h.wellFormed.queue.not_null⟩
  · rw [h.fires_iff, Timer.DueAt, and_assoc]
  · rw [hq] at hm ⊢
    exact foldl_record_count ho hm (hw.queue.firedCount_le o)
  · rw [hq] at hm
    refine (foldl_record_absent ho hm).imp_right fun hfull => ?_
    exact le_antisymm h.wellFormed.queue.length_le (hq ▸ hfull)

/-- A fresh wheel with two continuous PIT timers of period 5 in slots 1 and 2. -/
def pitPair : PcSystem :=
  (((new.initializeWith 1000000).registerTimer .pit 5 true true []).2.registerTimer
    .pit 5 true true []).2

theorem pitPair_reachable : pitPair.Reachable :=
  ⟨1000000, .step (a := .registerTimer .pit 5 true true [])
    (.step (a := .registerTimer .pit 5 true true []) .start trivial rfl) trivial rfl⟩

instance (s : PcSystem) (n : Nat) : Decidable (RoomFor s n) := by
  unfold RoomFor; infer_instance

theorem pitPair_ticks : ∃ s' fires, pitPair.tickn 12 = some (s', fires) ∧
    s'.timeTicks = pitPair.timeTicks + 12 ∧ fires.Nodup ∧ (10, 1) ∈ fires := by
  have h := tickn_exact pitPair_reachable 12
  obtain ⟨s', fires, ht⟩ := h.2.1 (by decide +kernel)
  obtain ⟨htime, hnd, hmem, -⟩ := h.1 s' fires ht
  refine ⟨s', fires, ht, htime, hnd, (hmem 10 1).mpr ⟨by decide +kernel, ?_, by decide +kernel⟩⟩
  rw [if_pos (by decide +kernel)]
  exact ⟨1, by decide +kernel⟩

/-- In every wheel that is reached an active timer is due in the future, and the queue of the fired
ones holds no owner twice. -/
theorem no_deadline_passed {s : PcSystem} (hs : s.Reachable) :
    (∀ i, (s.timers i).flags.active → s.timeTicks < (s.timers i).timeToFire) ∧ QueueOk s.fired := by
  have h := RunReaches.wellFormed hs
  refine ⟨fun i hact => ?_, h.queue⟩
  have hhorizon := (h.slots i).horizon_le hact
  have hpos := h.countdown_pos
  have hle := h.countdown_le
  unfold timeTicks
  omega

theorem pitPair_deadline_ahead : pitPair.timeTicks < (pitPair.timers 1).timeToFire :=
  (no_deadline_passed pitPair_reachable).1 1 (by decide +kernel)

/-- Two timers of one owner share its count: 1 fires once in five ticks, and the
count recorded for its owner grows by two. -/
theorem shared_owner_count : ∃ (s s' : PcSystem) (fires : List Fire),
    s.Reachable ∧ s.tickn 5 = some (s', fires) ∧
    (s.timers 1).flags.active ∧ (s.timers 1).flags.continuous ∧
    (fires.map Prod.snd).count 1 = 1 ∧
    firedCount s'.fired (s.timers 1).owner ≠ firedCount s.fired (s.timers 1).owner + 1 := by
  have h : (pitPair.tickn 5).map (fun r => (r.2, firedCount r.1.fired .pit)) =
      some ([(5, 1), (5, 2)], 2) := by decide +kernel
  obtain ⟨⟨s', fires⟩, ht, hr⟩ := Option.map_eq_some_iff.mp h
  obtain ⟨hfires, hcount⟩ := Prod.mk.inj hr
  have howner : (pitPair.timers 1).owner = .pit := by decide +kernel
  refine ⟨pitPair, s', fires, pitPair_reachable, ht, by decide +kernel, by decide +kernel, ?_, ?_⟩
  · have : fires = [(5, 1), (5, 2)] := hfires
    rw [this]
    decide +kernel
  · have : firedCount s'.fired .pit = 2 := hcount
    rw [howner, this]
    decide +kernel

/-! ## Batches -/

theorem WellFormed.tick1_iterate {s : PcSystem} (h : WellFormed s) (n : Nat) :
    (fun o : Option PcSystem => o.bind fun s' => s'.step .tick1)^[n] (some s) =
      (s.tickn n).map Prod.fst := by
  induction n with
  | zero =>
    rw [h.tickn_eq, if_neg (Nat.not_le_of_lt h.countdown_pos)]
    rfl
  | succ n ih =>
    rw [Function.iterate_succ_apply', ih, ← h.tickn_add]
    refine Option.bind_congr fun s' hs' => ?_
    rw [PcSystem.step, (h.tickn hs').tick1_eq]

/-- From every reachable wheel, ticks may be taken in batches of any size: cutting a stretch of
ticks in two leaves the same wheel, and so does taking them one by one. A stretch in which a
deadline overflows fails either way. -/
theorem tick_batching {s : PcSystem} (hs : s.Reachable) :
    (∀ a b : UInt32, a.toNat + b.toNat < 2 ^ 32 →
      ((s.step (.tickn a)).bind fun s' => s'.step (.tickn b)) = s.step (.tickn (a + b))) ∧
    ∀ n : UInt32, (fun o : Option PcSystem => o.bind fun s' => s'.step .tick1)^[n.toNat] (some s) =
      s.step (.tickn n) := by
  have hw := RunReaches.wellFormed hs
  refine ⟨fun a b hfit => ?_, fun n => hw.tick1_iterate n.toNat⟩
  have hsum : (a + b).toNat = a.toNat + b.toNat :=
    (UInt32.toNat_add a b).trans (Nat.mod_eq_of_lt hfit)
  rw [step, step, hsum]
  exact hw.tickn_add a.toNat b.toNat

theorem pitPair_batching :
    ((pitPair.step (.tickn 5)).bind fun s' => s'.step (.tickn 7)) = pitPair.step (.tickn 12) :=
  (tick_batching pitPair_reachable).1 5 7 (by decide)

end RustyBox
