-- SUMMARY: Saving the timer wheel: the validator, the byte stream, and which wheels it accepts.
import RustyBox.PcSystem.Run
import RustyBox.Lib.ExceptRules

/-!
# Saving the wheel

`save` first runs `validateSnapshotStateFields` and then streams every slot and the
fired queue. On a well-formed wheel most of the validator's rules hold already;
`save_iff` says what is left: owners that are encodable, distinct and not null,
identifiers without a NUL inside, and a registered timer behind every queued fire.
-/

namespace RustyBox

open PcSystem Lib

/-- `SnapError`; the save path only ever raises `Invalid`. -/
inductive SnapError
  | invalid (message : String)
  deriving DecidableEq, Repr

abbrev SnapResult (α : Type) := Except SnapError α

def snapshotUsizeToU32 (value : Nat) : SnapResult Nat :=
  if value ≤ u32Max then .ok value else .error (.invalid "snapshot value does not fit in u32")

/-- The wire form of an owner whose argument is below `bound`. -/
def rangedOwner (tag bound : Nat) (message : String) (arg : Nat) : SnapResult (Nat × Nat) := do
  failIf (bound ≤ arg) (.invalid message)
  let arg ← snapshotUsizeToU32 arg
  .ok (tag, arg)

/-- `timer_owner_wire_parts`: the tag and the argument an owner is written as. -/
def timerOwnerWireParts : TimerOwner → SnapResult (Nat × Nat)
  | .nullTimer => .ok (0, 0)
  | .pciIdeCh0 => .ok (1, 0)
  | .pciIdeCh1 => .ok (2, 0)
  | .pit => .ok (3, 0)
  | .keyboard => .ok (4, 0)
  | .cmosPeriodic => .ok (5, 0)
  | .cmosOneSecond => .ok (6, 0)
  | .cmosUip => .ok (7, 0)
  | .acpiPmOverflow => .ok (8, 0)
  | .vgaVertical => .ok (15, 0)
  | .serialFifo port => rangedOwner 9 4 "serial timer owner is out of range" port
  | .serialTx port => rangedOwner 14 4 "serial timer owner is out of range" port
  | .lapic cpu => rangedOwner 10 254 "LAPIC timer owner is out of range" cpu
  | .slowdown => .ok (11, 0)
  | .hdSeek param => rangedOwner 12 4 "HD seek timer owner is out of range" param
  | .hpet index => rangedOwner 13 3 "HPET timer owner is out of range" index

/-- The loop of `validate_timer_id`; the result says whether a NUL was seen. -/
def timerIdLoop : Bool → List UInt8 → SnapResult Bool
  | terminated, [] => .ok terminated
  | terminated, byte :: rest =>
    if byte = 0 then timerIdLoop true rest
    else if terminated then
      .error (.invalid "timer identifier has nonzero bytes after its terminator")
    else timerIdLoop terminated rest

def validateTimerId (id : Vector UInt8 maxTimerIdLen) : SnapResult Unit := do
  let terminated ← timerIdLoop false id.toList
  failIf (terminated = false) (.invalid "timer identifier is not terminated")

/-- `timer_owner_is_registered`. -/
def Registered (s : PcSystem) (owner : TimerOwner) : Prop :=
  ∃ i, (s.timers i).flags.inUse ∧ (s.timers i).owner = owner

instance (s : PcSystem) (owner : TimerOwner) : Decidable (Registered s owner) :=
  inferInstanceAs (Decidable (∃ i, (s.timers i).flags.inUse ∧ (s.timers i).owner = owner))

/-- The slot carries no flag, owner or identifier. -/
def Timer.Blank (t : Timer) : Prop :=
  t.flags = .empty ∧ t.owner = .nullTimer ∧ t.id = zeroId

instance (t : Timer) : Decidable t.Blank := inferInstanceAs (Decidable (_ ∧ _))

/-- The validator's checks of one slot, in its order. -/
def validateSlot (s : PcSystem) (now nextCountdownEvent : Nat) (index : Fin maxTimers) :
    SnapResult Unit :=
  let timer := s.timers index
  if s.numTimers ≤ index.val then
    failIf (¬ timer.Blank) (.invalid "timer outside registered range carries live state")
  else do
    failIf (index = slot0 ∧ (timer.flags ≠ ⟨true, true, true⟩ ∨
      timer.period ≠ nullTimerInterval ∨ timer.owner ≠ .nullTimer ∨ timer.id ≠ zeroId))
      (.invalid "null timer state is inconsistent")
    if timer.flags.inUse = false then
      failIf (¬ timer.Blank) (.invalid "unused timer has live state")
    else do
      validateTimerId timer.id
      let _ ← timerOwnerWireParts timer.owner
      failIf (index ≠ slot0 ∧ timer.owner = .nullTimer)
        (.invalid "non-null timer uses null owner")
      failIf (index ≠ slot0 ∧ ∃ previous, previous < index ∧
        (s.timers previous).flags.inUse = true ∧ (s.timers previous).owner = timer.owner)
        (.invalid "timer owner is registered more than once")
      failIf (timer.period < minAllowableTimerPeriod) (.invalid "timer period is zero")
      failIf (timer.flags.active = true ∧ timer.timeToFire ≤ now)
        (.invalid "active timer deadline is not in the future")
      failIf (timer.flags.active = true ∧ timer.timeToFire < nextCountdownEvent)
        (.invalid "active timer precedes the next countdown event")

/-- The validator's loop over the fired queue; `seen` are the owners before. -/
def validateFired (s : PcSystem) : List TimerOwner → List (TimerOwner × Nat) → SnapResult Unit
  | _, [] => .ok ()
  | seen, (owner, count) :: rest => do
    let _ ← timerOwnerWireParts owner
    failIf (owner = .nullTimer) (.invalid "null timer cannot be pending for dispatch")
    failIf (count = 0) (.invalid "fired timer count is zero")
    failIf (owner ∈ seen) (.invalid "fired timer owner is duplicated")
    failIf (¬ Registered s owner)
      (.invalid "fired timer owner does not map to a registered timer")
    validateFired s (seen ++ [owner]) rest

/-- `validate_snapshot_state_fields`. -/
def validateSnapshotStateFields (s : PcSystem) : SnapResult Unit := do
  failIf (s.ips = 0) (.invalid "configured IPS is zero")
  failIf (s.numTimers = 0 ∨ maxTimers < s.numTimers ∨ 2 ^ 20 < s.numTimers)
    (.invalid "timer count is out of range")
  failIf (maxTimers < s.fired.length ∨ 2 ^ 16 < s.fired.length)
    (.invalid "fired timer queue count is out of range")
  failIf (s.currCountdown = 0 ∨ s.currCountdownPeriod = 0 ∨
    s.currCountdownPeriod < s.currCountdown) (.invalid "countdown state is inconsistent")
  let elapsed := s.currCountdownPeriod - s.currCountdown
  failIf (u64Max < s.ticksTotal + elapsed) (.invalid "timer epoch overflows")
  let now := s.ticksTotal + elapsed
  failIf (u64Max < s.ticksTotal + s.currCountdownPeriod)
    (.invalid "next countdown event overflows")
  let nextCountdownEvent := s.ticksTotal + s.currCountdownPeriod
  failIf (s.a20Mask ≠ if s.enableA20 then 0xFFFFFFFFFFFFFFFF else 0xFFFFFFFFFFEFFFFF)
    (.invalid "A20 state and mask disagree")
  forM (List.finRange maxTimers) (validateSlot s now nextCountdownEvent)
  failIf (maxTimers ≤ s.triggeredTimer) (.invalid "triggered timer is out of range")
  failIf (s.numTimers ≤ s.triggeredTimer ∨
    ¬ (s.timers (Fin.ofNat maxTimers s.triggeredTimer)).flags.inUse)
    (.invalid "triggered timer is not registered")
  validateFired s [] s.fired

/-! ## The byte stream -/

/-- The `width` little-endian bytes of `value`. -/
def leBytes : Nat → Nat → List UInt8
  | 0, _ => []
  | width + 1, value => UInt8.ofNat value :: leBytes width (value / 256)

def boolByte (b : Bool) : List UInt8 := [if b then 1 else 0]

def writeTimerOwner (owner : TimerOwner) : SnapResult (List UInt8) := do
  let (tag, argument) ← timerOwnerWireParts owner
  .ok (leBytes 1 tag ++ leBytes 4 argument)

def TimerFlags.bits (f : TimerFlags) : Nat :=
  f.inUse.toNat + 2 * f.active.toNat + 4 * f.continuous.toNat

def writeTimer (timer : Timer) : SnapResult (List UInt8) := do
  let owner ← writeTimerOwner timer.owner
  .ok (leBytes 1 timer.flags.bits ++ leBytes 8 timer.period ++ leBytes 8 timer.timeToFire ++
    owner ++ timer.id.toList)

def writeFired (entry : TimerOwner × Nat) : SnapResult (List UInt8) := do
  let owner ← writeTimerOwner entry.1
  .ok (owner ++ leBytes 4 entry.2)

def resetRequestByte : Option ResetReason → Nat
  | none => 0
  | some .software => 1
  | some .hardware => 2

/-- The fields before the slots. -/
def writeHeader (s : PcSystem) : List UInt8 :=
  leBytes 4 1 ++ leBytes 8 s.ips ++ leBytes 4 s.currCountdown ++
    leBytes 4 s.currCountdownPeriod ++ leBytes 8 s.ticksTotal ++ leBytes 8 s.lastTimeUsec ++
    leBytes 8 s.usecSinceLast ++ boolByte s.enableA20 ++ leBytes 8 s.a20Mask ++
    boolByte s.hrq ++ boolByte s.hrqPending ++ boolByte s.asyncEventPending ++
    boolByte s.intrRaised ++ boolByte s.intrCleared ++ boolByte s.killBochsRequest ++
    leBytes 1 (resetRequestByte s.resetRequest) ++ leBytes 4 maxTimers ++
    leBytes 4 s.numTimers ++ leBytes 4 s.triggeredTimer

/-- `save`: the bytes written to a sink that takes everything. -/
def PcSystem.save (s : PcSystem) : SnapResult (List UInt8) := do
  validateSnapshotStateFields s
  let timers ← (List.finRange maxTimers).mapM fun i => writeTimer (s.timers i)
  let fired ← s.fired.mapM writeFired
  .ok (writeHeader s ++ timers.flatten ++ leBytes 4 s.fired.length ++ fired.flatten)

/-! ## What the validator asks -/

/-- The owner has a wire form. -/
def Encodable : TimerOwner → Prop
  | .serialFifo port => port < 4
  | .serialTx port => port < 4
  | .lapic cpu => cpu < 254
  | .hdSeek param => param < 4
  | .hpet index => index < 3
  | _ => True

/-- No nonzero byte follows a NUL. -/
def NulPadded (id : List UInt8) : Prop := ∀ b ∈ id.dropWhile (· ≠ 0), b = 0

/-- What saving asks of a well-formed wheel. -/
structure SnapshotReady (s : PcSystem) : Prop where
  id : ∀ i, (s.timers i).flags.inUse → NulPadded (s.timers i).id.toList
  encodable : ∀ i, (s.timers i).flags.inUse → Encodable (s.timers i).owner
  not_null : ∀ i, i ≠ slot0 → (s.timers i).flags.inUse → (s.timers i).owner ≠ .nullTimer
  owner_inj : ∀ i j, (s.timers i).flags.inUse → (s.timers j).flags.inUse →
    (s.timers i).owner = (s.timers j).owner → i = j
  fired : ∀ o ∈ s.fired.map Prod.fst, Registered s o

theorem rangedOwner_ok {tag bound arg : Nat} {message : String} (hb : bound ≤ 254) :
    (∃ w, rangedOwner tag bound message arg = .ok w) ↔ arg < bound := by
  have hu : (254 : Nat) ≤ u32Max := by decide
  constructor
  · rintro ⟨w, hw⟩
    simp only [rangedOwner, bind_eq_ok, failIf_eq_ok] at hw
    obtain ⟨-, hlt, -⟩ := hw
    exact Nat.lt_of_not_le hlt
  · intro h
    refine ⟨(tag, arg), ?_⟩
    simp only [rangedOwner, bind_eq_ok, failIf_eq_ok]
    exact ⟨(), Nat.not_le.mpr h, arg, if_pos (by omega), rfl⟩

theorem timerOwnerWireParts_ok {o : TimerOwner} :
    (∃ w, timerOwnerWireParts o = .ok w) ↔ Encodable o := by
  cases o with
  | serialFifo port | serialTx port | lapic cpu | hdSeek param | hpet index =>
    exact rangedOwner_ok (by decide)
  | _ => simp [timerOwnerWireParts, Encodable]

theorem timerIdLoop_true {l : List UInt8} {t : Bool} :
    timerIdLoop true l = .ok t ↔ t = true ∧ ∀ b ∈ l, b = 0 := by
  induction l with
  | nil => simp [timerIdLoop, eq_comm]
  | cons b rest ih =>
    by_cases hb : b = 0
    · simp [timerIdLoop, hb, ih]
    · simp [timerIdLoop, hb]

theorem timerIdLoop_false {l : List UInt8} {t : Bool} :
    timerIdLoop false l = .ok t ↔ t = decide (0 ∈ l) ∧ NulPadded l := by
  induction l with
  | nil => simp [timerIdLoop, NulPadded, eq_comm]
  | cons b rest ih =>
    by_cases hb : b = 0
    · simp [timerIdLoop, hb, timerIdLoop_true, NulPadded]
    · simp [timerIdLoop, hb, ih, NulPadded, Ne.symm hb]

theorem validateTimerId_ok {id : Vector UInt8 maxTimerIdLen} (hterm : id[31] = 0) :
    validateTimerId id = .ok () ↔ NulPadded id.toList := by
  have hmem : (0 : UInt8) ∈ id.toList := by
    rw [← hterm, Vector.mem_toList_iff]
    exact Vector.getElem_mem _
  simp only [validateTimerId, bind_eq_ok, timerIdLoop_false, failIf_eq_ok, hmem]
  constructor
  · rintro ⟨-, ⟨-, h⟩, -⟩
    exact h
  · intro h
    exact ⟨true, ⟨by simp, h⟩, by simp⟩

variable {s : PcSystem}

/-- What the validator's checks of one slot add to the invariant. -/
theorem validateSlot_ok (h : WellFormed s) (i : Fin maxTimers) :
    validateSlot s s.timeTicks (s.ticksTotal + s.currCountdownPeriod) i = .ok () ↔
      ((s.timers i).flags.inUse → NulPadded (s.timers i).id.toList ∧
        Encodable (s.timers i).owner ∧
        (i ≠ slot0 → (s.timers i).owner ≠ .nullTimer ∧ ∀ j, j < i →
          (s.timers j).flags.inUse → (s.timers j).owner ≠ (s.timers i).owner)) := by
  have hs := h.slots i
  unfold validateSlot
  by_cases hu : (s.timers i).flags.inUse
  · have hlt := hs.inUse_lt hu
    have hnull : ¬ (i = slot0 ∧ ((s.timers i).flags ≠ ⟨true, true, true⟩ ∨
        (s.timers i).period ≠ nullTimerInterval ∨ (s.timers i).owner ≠ .nullTimer ∨
        (s.timers i).id ≠ zeroId)) := by
      rintro ⟨h0, hne⟩
      rw [hs.null_slot h0] at hne
      simp [nullTimer] at hne
    have hnow : ¬ ((s.timers i).flags.active = true ∧ (s.timers i).timeToFire ≤ s.timeTicks) := by
      rintro ⟨ha, hle⟩
      have := hs.horizon_le ha
      have := h.horizon_eq
      have := h.countdown_pos
      omega
    have hnext : ¬ ((s.timers i).flags.active = true ∧
        (s.timers i).timeToFire < s.ticksTotal + s.currCountdownPeriod) := by
      rintro ⟨ha, hl⟩
      exact absurd (hs.horizon_le ha) (Nat.not_le.mpr hl)
    have hper : ¬ (s.timers i).period < minAllowableTimerPeriod := Nat.not_lt.mpr (hs.period_pos hu)
    simp only [Nat.not_le.mpr hlt, ↓reduceIte, hu, Bool.true_eq_false, bind_eq_ok, failIf_eq_ok,
      hnull, hnow, hnext, hper, validateTimerId_ok hs.id_terminated, not_false_eq_true,
      true_and, exists_const, forall_const, and_true, not_and, not_exists]
    rw [← timerOwnerWireParts_ok]
    constructor
    · rintro ⟨hid, w, hw, hn, hd⟩
      exact ⟨hid, ⟨w, hw⟩, fun hi => ⟨hn hi, hd hi⟩⟩
    · rintro ⟨hid, ⟨w, hw⟩, hrest⟩
      exact ⟨hid, w, hw, fun hi => (hrest hi).1, fun hi => (hrest hi).2⟩
  · have hu' : (s.timers i).flags.inUse = false := by simpa using hu
    have hblank : (s.timers i).Blank := hs.unused hu'
    have hne : i ≠ slot0 := by
      intro h0
      rw [hs.null_slot h0] at hu
      exact hu rfl
    by_cases hlt : s.numTimers ≤ i.val
    · simp [hlt, hblank, hu']
    · simp [hlt, hblank, hu', hne]

theorem validateFired_ok {seen : List TimerOwner} {l : List (TimerOwner × Nat)} :
    validateFired s seen l = .ok () ↔
      (∀ e ∈ l, Encodable e.1 ∧ e.1 ≠ .nullTimer ∧ e.2 ≠ 0 ∧ Registered s e.1) ∧
        (l.map Prod.fst).Nodup ∧ ∀ o ∈ l.map Prod.fst, o ∉ seen := by
  induction l generalizing seen with
  | nil => simp [validateFired]
  | cons e rest ih =>
    obtain ⟨o, c⟩ := e
    have hstep : validateFired s seen ((o, c) :: rest) = .ok () ↔
        Encodable o ∧ o ≠ .nullTimer ∧ c ≠ 0 ∧ o ∉ seen ∧ Registered s o ∧
          validateFired s (seen ++ [o]) rest = .ok () := by
      simp only [validateFired, bind_eq_ok, failIf_eq_ok, exists_const, not_not,
        ← timerOwnerWireParts_ok, exists_and_right]
    rw [hstep, ih]
    simp only [List.mem_cons, forall_eq_or_imp, List.map_cons, List.nodup_cons,
      List.mem_append, List.not_mem_nil, or_false, not_or]
    constructor
    · rintro ⟨h1, h2, h3, h4, h5, h6, h7, h8⟩
      exact ⟨⟨⟨h1, h2, h3, h5⟩, h6⟩, ⟨fun ho => (h8 o ho).2 rfl, h7⟩, h4, fun a ha => (h8 a ha).1⟩
    · rintro ⟨⟨⟨h1, h2, h3, h5⟩, h6⟩, ⟨hn, h7⟩, h4, h8⟩
      exact ⟨h1, h2, h3, h4, h5, h6, h7, fun a ha => ⟨h8 a ha, fun he => hn (he ▸ ha)⟩⟩

theorem validateSnapshotStateFields_ok (h : WellFormed s) :
    validateSnapshotStateFields s = .ok () ↔
      (∀ i, validateSlot s s.timeTicks (s.ticksTotal + s.currCountdownPeriod) i = .ok ()) ∧
        validateFired s [] s.fired = .ok () := by
  have hips := h.ips_pos
  have hn := h.numTimers_pos
  have hm := h.numTimers_le
  have hmax : maxTimers ≤ 2 ^ 16 := by decide
  have hq := h.queue.length_le
  have hc := h.countdown_pos
  have hcp := h.countdown_le
  have hnow := h.timeTicks_fits
  have hhor := h.horizon_fits
  have hslot : (s.timers (Fin.ofNat maxTimers s.triggeredTimer)).flags.inUse := by
    rw [h.triggered]
    change (s.timers slot0).flags.inUse = true
    rw [h.null_slot]
    rfl
  have hcount : ¬ (s.numTimers = 0 ∨ maxTimers < s.numTimers ∨ 2 ^ 20 < s.numTimers) := by omega
  have hlen : ¬ (maxTimers < s.fired.length ∨ 2 ^ 16 < s.fired.length) := by omega
  have hcd : ¬ (s.currCountdown = 0 ∨ s.currCountdownPeriod = 0 ∨
      s.currCountdownPeriod < s.currCountdown) := by omega
  have hepoch : ¬ u64Max < s.ticksTotal + (s.currCountdownPeriod - s.currCountdown) :=
    Nat.not_lt.mpr hnow
  have htrig : ¬ maxTimers ≤ s.triggeredTimer := by rw [h.triggered]; decide
  have htrig' : ¬ (s.numTimers ≤ s.triggeredTimer ∨
      ¬ (s.timers (Fin.ofNat maxTimers s.triggeredTimer)).flags.inUse) := by
    rintro (hle | hu)
    · rw [h.triggered] at hle
      omega
    · exact hu hslot
  unfold validateSnapshotStateFields
  simp only [bind_eq_ok, failIf_eq_ok, exists_const, hips.ne', hcount, hlen, hcd, hepoch,
    Nat.not_lt.mpr hhor, h.a20, ne_eq, not_true_eq_false, not_false_eq_true, true_and, htrig,
    htrig', exists_and_right, exists_unit_eq_ok]
  rw [forM_eq_ok]
  exact and_congr_left fun _ => ⟨fun hall i => hall i (List.mem_finRange i), fun hall i _ => hall i⟩

/-- A well-formed wheel passes the validator exactly when it is ready. -/
theorem validate_iff (h : WellFormed s) :
    validateSnapshotStateFields s = .ok () ↔ SnapshotReady s := by
  rw [validateSnapshotStateFields_ok h, validateFired_ok]
  simp only [validateSlot_ok h]
  constructor
  · rintro ⟨hslots, hfired, -, -⟩
    refine ⟨fun i hi => (hslots i hi).1, fun i hi => (hslots i hi).2.1,
      fun i h0 hi => ((hslots i hi).2.2 h0).1, fun i j hi hj he => ?_, fun o ho => ?_⟩
    · -- the later of two slots sees the earlier one
      rcases lt_trichotomy i j with hlt | heq | hlt
      · exact absurd he (((hslots j hj).2.2 (Fin.pos_iff_ne_zero.mp
          (lt_of_le_of_lt (Fin.zero_le _) hlt))).2 i hlt hi)
      · exact heq
      · exact absurd he.symm (((hslots i hi).2.2 (Fin.pos_iff_ne_zero.mp
          (lt_of_le_of_lt (Fin.zero_le _) hlt))).2 j hlt hj)
    · obtain ⟨e, he, rfl⟩ := List.mem_map.mp ho
      exact (hfired e he).2.2.2
  · intro hr
    refine ⟨fun i hi => ⟨hr.id i hi, hr.encodable i hi, fun h0 => ⟨hr.not_null i h0 hi,
      fun j hj hju heq => ?_⟩⟩, fun e he => ?_, h.queue.nodup, by simp⟩
    · exact absurd (hr.owner_inj j i hju hi heq) (ne_of_lt hj)
    · have hmem : e.1 ∈ s.fired.map Prod.fst := List.mem_map_of_mem he
      obtain ⟨i, hi, ho⟩ := hr.fired e.1 hmem
      exact ⟨ho ▸ hr.encodable i hi, fun hn => h.queue.not_null (hn ▸ hmem),
        Nat.one_le_iff_ne_zero.mp (h.queue.count_pos e he), i, hi, ho⟩

/-- Once the validator has passed, every owner written has a wire form. -/
theorem save_ok_of_ready (h : WellFormed s) (hr : SnapshotReady s) :
    ∃ bytes, s.save = .ok bytes := by
  have howner : ∀ o, Encodable o → ∃ b, writeTimerOwner o = .ok b := by
    intro o ho
    obtain ⟨⟨tag, arg⟩, hw⟩ := timerOwnerWireParts_ok.mpr ho
    exact ⟨_, bind_eq_ok.mpr ⟨(tag, arg), hw, rfl⟩⟩
  have hslot : ∀ i, Encodable (s.timers i).owner := by
    intro i
    by_cases hu : (s.timers i).flags.inUse
    · exact hr.encodable i hu
    · rw [((h.slots i).unused (by simpa using hu)).2.1]
      trivial
  obtain ⟨ts, hts⟩ : ∃ ts, (List.finRange maxTimers).mapM (fun i => writeTimer (s.timers i)) =
      .ok ts := by
    apply mapM_ok_of_forall
    intro i _
    obtain ⟨b, hb⟩ := howner _ (hslot i)
    exact ⟨_, bind_eq_ok.mpr ⟨b, hb, rfl⟩⟩
  obtain ⟨fs, hfs⟩ : ∃ fs, s.fired.mapM writeFired = .ok fs := by
    apply mapM_ok_of_forall
    intro e he
    obtain ⟨i, hi, ho⟩ := hr.fired e.1 (List.mem_map_of_mem he)
    obtain ⟨b, hb⟩ := howner e.1 (ho ▸ hr.encodable i hi)
    exact ⟨_, bind_eq_ok.mpr ⟨b, hb, rfl⟩⟩
  exact ⟨_, bind_eq_ok.mpr ⟨(), (validate_iff h).mpr hr,
    bind_eq_ok.mpr ⟨ts, hts, bind_eq_ok.mpr ⟨fs, hfs, rfl⟩⟩⟩⟩

theorem save_iff (h : WellFormed s) : (∃ bytes, s.save = .ok bytes) ↔ SnapshotReady s := by
  constructor
  · rintro ⟨bytes, hb⟩
    obtain ⟨⟨⟩, hv, -⟩ := bind_eq_ok.mp hb
    exact (validate_iff h).mp hv
  · exact save_ok_of_ready h

end RustyBox
