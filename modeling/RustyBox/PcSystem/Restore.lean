-- SUMMARY: Restoring the timer wheel: the two-phase decoder and the length of what is written.
import RustyBox.PcSystem.SnapshotRuns
import RustyBox.Snapshot.Reader

/-!
# Restoring the wheel

`restore` reads every field into locals, runs the validator that `save` runs, and only then
assigns them. It undoes `save` on a wheel with the same configured IPS, and where it fails the
wheel is as it was.
-/

namespace RustyBox

open PcSystem Lib

/-- An owner without an argument. -/
def fixedOwner (owner : TimerOwner) (argument : Nat) : Except SnapFailure TimerOwner :=
  if argument = 0 then .ok owner else .error (snapshotInvalid "fixed timer owner has an argument")

/-- An owner whose argument is below `bound`. -/
def boundedOwner (owner : Nat → TimerOwner) (bound : Nat) (message : String) (argument : Nat) :
    Except SnapFailure TimerOwner :=
  if bound ≤ argument then .error (snapshotInvalid message) else .ok (owner argument)

/-- The owner that a tag and an argument stand for. -/
def timerOwnerOf (tag argument : Nat) : Except SnapFailure TimerOwner :=
  match tag with
  | 0 => fixedOwner .nullTimer argument
  | 1 => fixedOwner .pciIdeCh0 argument
  | 2 => fixedOwner .pciIdeCh1 argument
  | 3 => fixedOwner .pit argument
  | 4 => fixedOwner .keyboard argument
  | 5 => fixedOwner .cmosPeriodic argument
  | 6 => fixedOwner .cmosOneSecond argument
  | 7 => fixedOwner .cmosUip argument
  | 8 => fixedOwner .acpiPmOverflow argument
  | 9 => boundedOwner .serialFifo 4 "serial timer owner is out of range" argument
  | 10 => boundedOwner .lapic 254 "LAPIC timer owner is out of range" argument
  | 11 => fixedOwner .slowdown argument
  | 12 => boundedOwner .hdSeek 4 "HD seek timer owner is out of range" argument
  | 13 => boundedOwner .hpet 3 "HPET timer owner is out of range" argument
  | 14 => boundedOwner .serialTx 4 "serial timer owner is out of range" argument
  | 15 => fixedOwner .vgaVertical argument
  | _ => .error (snapshotInvalid "unknown timer owner tag")

section

variable {σ : Type}

def readTimerOwner : SnapRead σ TimerOwner := do
  let tag ← readU8
  let argument ← readU32
  fromExcept (timerOwnerOf tag argument)

/-- `TimerFlags::from_bits`. -/
def timerFlagsOf (bits : Nat) : Except SnapFailure TimerFlags :=
  if bits < 8 then .ok ⟨bits.testBit 0, bits.testBit 1, bits.testBit 2⟩
  else .error (snapshotInvalid "timer flags contain unknown bits")

def readTimer : SnapRead σ Timer := do
  let flags ← readU8
  let flags ← fromExcept (timerFlagsOf flags)
  let period ← readU64
  let timeToFire ← readU64
  let owner ← readTimerOwner
  let id ← takeBytes .truncated maxTimerIdLen
  pure ⟨flags, period, timeToFire, owner, .ofFn fun k => id.getD k 0⟩

def readFired : SnapRead σ (TimerOwner × Nat) := do
  let owner ← readTimerOwner
  let count ← readU32
  pure (owner, count)

def resetRequestOf : Nat → Except SnapFailure (Option ResetReason)
  | 0 => .ok none
  | 1 => .ok (some .software)
  | 2 => .ok (some .hardware)
  | _ => .error (snapshotInvalid "processor reset request is invalid")

end

/-- The first phase of `restore`: what is read, and validated as a whole. -/
def readPcSystem : SnapRead PcSystem PcSystem := do
  let sectionVersion ← readU32
  refuseIf (sectionVersion ≠ 1) (snapshotInvalid "unsupported PC-system section version")
  let ips ← readU64
  let s ← live
  refuseIf (ips = 0 ∨ ips ≠ s.ips) (snapshotInvalid "configured IPS does not match")
  let currCountdown ← readU32
  let currCountdownPeriod ← readU32
  let ticksTotal ← readU64
  let lastTimeUsec ← readU64
  let usecSinceLast ← readU64
  let enableA20 ← readBool
  let a20Mask ← readU64
  let hrq ← readBool
  let hrqPending ← readBool
  let asyncEventPending ← readBool
  let intrRaised ← readBool
  let intrCleared ← readBool
  let killBochsRequest ← readBool
  let resetRequest ← readU8
  let resetRequest ← fromExcept (resetRequestOf resetRequest)
  let savedTimerCapacity ← readCount maxTimers
  refuseIf (savedTimerCapacity ≠ maxTimers) (snapshotInvalid "timer capacity does not match")
  let numTimers ← readCount maxTimers
  let triggeredTimer ← readCount (maxTimers - 1)
  let timers ← times readTimer maxTimers
  let numFired ← readCount (min maxTimers (2 ^ 16))
  let fired ← times readFired numFired
  let restored : PcSystem :=
    { timers := fun i => timers.getD i .unused, numTimers, triggeredTimer, currCountdown,
      currCountdownPeriod, ticksTotal, lastTimeUsec, usecSinceLast, a20Mask, enableA20, ips, hrq,
      hrqPending, asyncEventPending, intrRaised, intrCleared, killBochsRequest, resetRequest, fired }
  validated (validateSnapshotStateFields restored)
  pure restored

/-- `restore`. The configured IPS is not assigned: it was found to be the same. -/
def PcSystem.restore : SnapRead PcSystem Unit :=
  restoring readPcSystem fun restored s => { restored with ips := s.ips }

/-- The lengths of the fields before the slots. -/
def headerFieldLens : List Nat :=
  [4, 8, 4, 4, 8, 8, 8, 1, 8, 1, 1, 1, 1, 1, 1, 1, 4, 4, 4]

/-- `snapshot_len`. -/
def PcSystem.snapshotLen (s : PcSystem) : Except SnapFailure Nat := do
  (validateSnapshotStateFields s).mapError .snap
  let len ← headerFieldLens.foldlM checkedSnapshotLenAdd 0
  let timerWireLen ← checkedSnapshotLenAdd 17 5
  let timerWireLen ← checkedSnapshotLenAdd timerWireLen maxTimerIdLen
  let timers ← checkedSnapshotLenMul timerWireLen maxTimers
  let len ← checkedSnapshotLenAdd len timers
  let len ← checkedSnapshotLenAdd len 4
  let fired ← checkedSnapshotLenMul 9 s.fired.length
  checkedSnapshotLenAdd len fired

/-! ## Timers -/

section

variable {σ : Type} {self : σ} {bytes : List UInt8}

theorem lt_of_le_u64Max {v : Nat} (h : v ≤ u64Max) : v < 256 ^ 8 := Nat.lt_of_le_of_lt h (by decide)

theorem lt_of_le_u32Max {v : Nat} (h : v ≤ u32Max) : v < 256 ^ 4 := Nat.lt_of_le_of_lt h (by decide)

theorem rangedOwner_eq_ok {tag bound arg : Nat} {message : String} {w : Nat × Nat}
    (h : rangedOwner tag bound message arg = .ok w) :
    w = (tag, arg) ∧ arg < bound ∧ arg ≤ u32Max := by
  simp only [rangedOwner, bind_eq_ok, failIf_eq_ok, snapshotUsizeToU32] at h
  obtain ⟨_, hlt, value, hvalue, hw⟩ := h
  split at hvalue
  next hfits =>
    obtain rfl := Except.ok.inj hvalue
    exact ⟨(Except.ok.inj hw).symm, Nat.lt_of_not_le hlt, hfits⟩
  · exact nomatch hvalue

variable {o : TimerOwner}

/-- Every owner is read back from the parts it is written as. -/
theorem timerOwnerOf_wireParts {tag arg : Nat} (h : timerOwnerWireParts o = .ok (tag, arg)) :
    timerOwnerOf tag arg = .ok o ∧ tag < 256 ∧ arg ≤ u32Max := by
  cases o with
  | serialFifo _ | serialTx _ | lapic _ | hdSeek _ | hpet _ =>
    obtain ⟨hw, hlt, hfits⟩ := rangedOwner_eq_ok h
    obtain ⟨rfl, rfl⟩ := Prod.mk.inj hw
    exact ⟨if_neg hlt.not_ge, by decide, hfits⟩
  | _ =>
    obtain ⟨rfl, rfl⟩ := Prod.mk.inj (Except.ok.inj h)
    exact ⟨rfl, by decide, by decide⟩

theorem decodes_readTimerOwner (h : writeTimerOwner o = .ok bytes) :
    Decodes readTimerOwner self bytes o := by
  obtain ⟨⟨tag, arg⟩, hparts, hbytes⟩ := bind_eq_ok.mp h
  obtain ⟨howner, htag, harg⟩ := timerOwnerOf_wireParts hparts
  obtain rfl := Except.ok.inj hbytes
  refine (decodes_readLe (by omega)).bind ?_
  exact (decodes_readLe (lt_of_le_u32Max harg)).bind_last (decodes_fromExcept howner)

theorem length_writeTimerOwner (h : writeTimerOwner o = .ok bytes) : bytes.length = 5 := by
  obtain ⟨_, _, hbytes⟩ := bind_eq_ok.mp h
  obtain rfl := Except.ok.inj hbytes
  simp

theorem timerFlagsOf_bits (f : TimerFlags) : timerFlagsOf f.bits = .ok f ∧ f.bits < 256 ^ 1 := by
  obtain ⟨inUse, active, continuous⟩ := f
  cases inUse <;> cases active <;> cases continuous <;> decide

theorem ofFn_getD_toList {n : Nat} (v : Vector UInt8 n) :
    Vector.ofFn (fun k : Fin n => v.toList.getD k 0) = v := by
  apply Vector.ext
  intro k hk
  simp

/-- The values that the types of a timer's fields allow. -/
def Timer.Typed (t : Timer) : Prop := t.period ≤ u64Max ∧ t.timeToFire ≤ u64Max

instance (t : Timer) : Decidable t.Typed := inferInstanceAs (Decidable (_ ∧ _))

theorem decodes_readTimer {t : Timer} (ht : t.Typed) (h : writeTimer t = .ok bytes) :
    Decodes readTimer self bytes t := by
  obtain ⟨owner, howner, hbytes⟩ := bind_eq_ok.mp h
  obtain ⟨hflags, hbits⟩ := timerFlagsOf_bits t.flags
  obtain rfl := Except.ok.inj hbytes
  refine (decodes_readLe hbits).bind ((decodes_fromExcept hflags).bind_nil ?_)
  refine (decodes_readLe (lt_of_le_u64Max ht.1)).bind ?_
  refine (decodes_readLe (lt_of_le_u64Max ht.2)).bind ?_
  refine (decodes_readTimerOwner howner).bind ((decodes_takeBytes t.id.length_toList).bind_last ?_)
  rw [ofFn_getD_toList]
  exact Decodes.pure t

theorem length_writeTimer {t : Timer} (h : writeTimer t = .ok bytes) : bytes.length = 54 := by
  obtain ⟨owner, howner, hbytes⟩ := bind_eq_ok.mp h
  have hid : t.id.toList.length = 32 := t.id.length_toList
  obtain rfl := Except.ok.inj hbytes
  simp [length_writeTimerOwner howner, hid]

theorem decodes_readFired {entry : TimerOwner × Nat} (hcount : entry.2 ≤ u32Max)
    (h : writeFired entry = .ok bytes) : Decodes readFired self bytes entry := by
  obtain ⟨owner, howner, hbytes⟩ := bind_eq_ok.mp h
  obtain rfl := Except.ok.inj hbytes
  refine (decodes_readTimerOwner howner).bind ?_
  exact (decodes_readLe (lt_of_le_u32Max hcount)).map fun count => (entry.1, count)

theorem length_writeFired {entry : TimerOwner × Nat} (h : writeFired entry = .ok bytes) :
    bytes.length = 9 := by
  obtain ⟨owner, howner, hbytes⟩ := bind_eq_ok.mp h
  obtain rfl := Except.ok.inj hbytes
  simp [length_writeTimerOwner howner]

end

/-! ## The wheel -/

/-- The values that the types of the wheel's fields allow. -/
structure PcSystem.Typed (s : PcSystem) : Prop where
  ips : s.ips ≤ u64Max
  currCountdown : s.currCountdown ≤ u32Max
  currCountdownPeriod : s.currCountdownPeriod ≤ u32Max
  ticksTotal : s.ticksTotal ≤ u64Max
  lastTimeUsec : s.lastTimeUsec ≤ u64Max
  usecSinceLast : s.usecSinceLast ≤ u64Max
  a20Mask : s.a20Mask ≤ u64Max
  timers : ∀ i, (s.timers i).Typed
  fired : ∀ entry ∈ s.fired, entry.2 ≤ u32Max

theorem resetRequestOf_byte (r : Option ResetReason) :
    resetRequestOf (resetRequestByte r) = .ok r ∧ resetRequestByte r < 256 ^ 1 := by
  rcases r with _ | _ | _ <;> decide

theorem getD_finRange_map {n : Nat} {α : Type} (f : Fin n → α) (d : α) (i : Fin n) :
    ((List.finRange n).map f).getD i d = f i := by
  simp

variable {s : PcSystem}

/-- What the validator says of the counts that are written. -/
theorem counts_of_validate (h : validateSnapshotStateFields s = .ok ()) :
    s.ips ≠ 0 ∧ s.numTimers ≤ maxTimers ∧ s.fired.length ≤ maxTimers ∧
      s.triggeredTimer ≤ maxTimers - 1 := by
  simp only [validateSnapshotStateFields, bind_eq_ok, failIf_eq_ok] at h
  omega

variable {bytes : List UInt8} {σ : Type}

/-- What `save` writes, piece by piece. -/
theorem save_eq_ok (hs : s.Typed) (h : s.save = .ok bytes) :
    validateSnapshotStateFields s = .ok () ∧ ∃ timers fired,
      List.Forall₂ (fun t b => Timer.Typed t ∧ writeTimer t = .ok b)
        ((List.finRange maxTimers).map s.timers) timers ∧
      List.Forall₂ (fun e b => e.2 ≤ u32Max ∧ writeFired e = .ok b) s.fired fired ∧
      bytes = writeHeader s ++ timers.flatten ++ leBytes 4 s.fired.length ++ fired.flatten := by
  simp only [save, bind_eq_ok] at h
  obtain ⟨_, hvalid, timers, htimers, fired, hfired, hbytes⟩ := h
  refine ⟨hvalid, timers, fired, ?_, forall₂_of_mapM hs.fired hfired, (Except.ok.inj hbytes).symm⟩
  exact List.forall₂_map_left_iff.mpr (forall₂_of_mapM (fun i _ => hs.timers i) htimers)

theorem decodes_readPcSystem {t : PcSystem} (hs : s.Typed) (hsave : s.save = .ok bytes)
    (hips : t.ips = s.ips) : Decodes readPcSystem t bytes s := by
  obtain ⟨hvalid, timers, fired, htimers, hfired, hbytes⟩ := save_eq_ok hs hsave
  obtain ⟨hpos, hnum, hlen, htriggered⟩ := counts_of_validate hvalid
  obtain ⟨hreset, hbyte⟩ := resetRequestOf_byte s.resetRequest
  have hmax : maxTimers = 275 := rfl
  have hcount : maxCount = 1048576 := rfl
  rw [hbytes]
  delta writeHeader
  simp only [List.append_assoc]
  refine (decodes_readLe (by decide)).bind (.check (fun h => h rfl) ?_)
  refine (decodes_readLe (lt_of_le_u64Max hs.ips)).bind (decodes_live.bind_nil ?_)
  refine .check (fun h => h.elim hpos fun hne => hne hips.symm) ?_
  refine (decodes_readLe (lt_of_le_u32Max hs.currCountdown)).bind ?_
  refine (decodes_readLe (lt_of_le_u32Max hs.currCountdownPeriod)).bind ?_
  refine (decodes_readLe (lt_of_le_u64Max hs.ticksTotal)).bind ?_
  refine (decodes_readLe (lt_of_le_u64Max hs.lastTimeUsec)).bind ?_
  refine (decodes_readLe (lt_of_le_u64Max hs.usecSinceLast)).bind ?_
  refine (decodes_readBool _).bind ((decodes_readLe (lt_of_le_u64Max hs.a20Mask)).bind ?_)
  iterate 6 refine (decodes_readBool _).bind ?_
  refine (decodes_readLe hbyte).bind ((decodes_fromExcept hreset).bind_nil ?_)
  refine (decodes_readCount (by omega)).bind (.check (fun h => h rfl) ?_)
  refine (decodes_readCount (by omega)).bind ((decodes_readCount (by omega)).bind ?_)
  refine (decodes_times ((List.length_map _).trans List.length_finRange)
    (htimers.imp fun _ _ h => decodes_readTimer h.1 h.2)).bind ?_
  refine (decodes_readCount (by omega)).bind ?_
  refine (decodes_times rfl (hfired.imp fun _ _ h => decodes_readFired h.1 h.2)).bind_last ?_
  have hslots : (fun i : Fin maxTimers => ((List.finRange maxTimers).map s.timers).getD i .unused) =
      s.timers := funext fun i => getD_finRange_map s.timers _ i
  rw [hslots]
  exact (decodes_validated hvalid).bind_nil (Decodes.pure s)

/-! ## Lengths -/

theorem length_flatten_of_forall₂ {α : Type} {R : α → List UInt8 → Prop} {n : Nat}
    (hR : ∀ a b, R a b → b.length = n) {as : List α} {chunks : List (List UInt8)}
    (h : List.Forall₂ R as chunks) : chunks.flatten.length = n * as.length := by
  induction h with
  | nil => rfl
  | @cons a chunk as chunks ha _ ih =>
    rw [List.flatten_cons, List.length_append, ih, hR a chunk ha, List.length_cons]
    ring

theorem length_save (hs : s.Typed) (hsave : s.save = .ok bytes) :
    bytes.length = 14926 + 9 * s.fired.length := by
  obtain ⟨_, timers, fired, htimers, hfired, hbytes⟩ := save_eq_ok hs hsave
  have htimers := length_flatten_of_forall₂ (fun _ _ h => length_writeTimer h.2) htimers
  have hfired := length_flatten_of_forall₂ (fun _ _ h => length_writeFired h.2) hfired
  rw [List.length_map, List.length_finRange] at htimers
  rw [hbytes]
  delta writeHeader
  simp only [List.length_append, length_leBytes, length_boolByte, htimers, hfired]
  have hmax : maxTimers = 275 := rfl
  omega

/-- `snapshot_len` is the number of bytes that `save` writes. -/
theorem snapshotLen_eq (hs : s.Typed)
    (hsave : s.save = .ok bytes) : s.snapshotLen = .ok bytes.length := by
  obtain ⟨hvalid, -⟩ := save_eq_ok hs hsave
  have hlen := (counts_of_validate hvalid).2.2.1
  have hmax : maxTimers = 275 := rfl
  have hsection : maxSectionLen = 4294967296 := rfl
  have hheader : headerFieldLens.foldlM checkedSnapshotLenAdd 0 = .ok 72 := by decide
  have hfired : checkedSnapshotLenMul 9 s.fired.length = .ok (9 * s.fired.length) :=
    checkedSnapshotLenMul_ok (by omega)
  have htotal : checkedSnapshotLenAdd 14926 (9 * s.fired.length) = .ok (14926 + 9 * s.fired.length) :=
    checkedSnapshotLenAdd_ok (by omega)
  rw [length_save hs hsave, snapshotLen, hvalid, hheader, hfired]
  exact htotal

/-! ## The round trip -/

theorem untouched_readTimerOwner : untouched.Holds (readTimerOwner : SnapRead σ TimerOwner) :=
  (untouched_readLe 1).bind fun _ => (untouched_readLe 4).bind fun _ => untouched_fromExcept _

theorem untouched_readTimer : untouched.Holds (readTimer : SnapRead σ Timer) :=
  (untouched_readLe 1).bind fun _ => (untouched_fromExcept _).bind fun _ =>
    (untouched_readLe 8).bind fun _ => (untouched_readLe 8).bind fun _ =>
      untouched_readTimerOwner.bind fun _ => (untouched_takeBytes _ _).bind fun _ => .pure _

theorem untouched_readPcSystem : untouched.Holds readPcSystem := by
  refine (untouched_readLe 4).bind fun _ => (untouched_refuseIf _ _).bind fun _ => ?_
  refine (untouched_readLe 8).bind fun _ => untouched_live.bind fun _ => ?_
  refine (untouched_refuseIf _ _).bind fun _ => ?_
  iterate 5 refine (untouched_readLe _).bind fun _ => ?_
  refine untouched_readBool.bind fun _ => (untouched_readLe 8).bind fun _ => ?_
  iterate 6 refine untouched_readBool.bind fun _ => ?_
  refine (untouched_readLe 1).bind fun _ => (untouched_fromExcept _).bind fun _ => ?_
  refine (untouched_readCount _).bind fun _ => (untouched_refuseIf _ _).bind fun _ => ?_
  refine (untouched_readCount _).bind fun _ => (untouched_readCount _).bind fun _ => ?_
  refine (untouched_times untouched_readTimer _).bind fun _ =>
    (untouched_readCount _).bind fun _ => ?_
  refine (untouched_times (untouched_readTimerOwner.bind fun _ =>
    (untouched_readLe 4).bind fun _ => .pure _) _).bind fun _ => ?_
  exact (untouched_fromExcept _).bind fun _ => .pure _

/-- What `save` accepts comes back from `restore`, in the length that `snapshot_len` says, and a
failed `restore` leaves the wheel alone. -/
theorem wheel_round_trip :
    (∀ (s t : PcSystem) (bytes rest : List UInt8), s.Typed → s.save = .ok bytes → t.ips = s.ips →
      restore.run ⟨t, bytes ++ rest⟩ = .ok () ⟨s, rest⟩ ∧
        s.snapshotLen = .ok bytes.length) ∧
      ∀ (t : PcSystem) (input : List UInt8) (e : SnapFailure) (st : Stream PcSystem),
        restore.run ⟨t, input⟩ = .error e st → st.self = t := by
  constructor
  · intro s t bytes rest hs hsave hips
    refine ⟨?_, snapshotLen_eq hs hsave⟩
    have hrun : restore.run ⟨t, bytes ++ rest⟩ = .ok () ⟨{ s with ips := t.ips }, rest⟩ :=
      run_restoring (decodes_readPcSystem hs hsave hips) rest
    rwa [hips] at hrun
  · intro t input e st hfail
    exact self_of_restoring_error untouched_readPcSystem hfail

/-- A wheel with another configured IPS refuses what was saved. -/
theorem restore_of_ips_ne {t : PcSystem} (hs : s.Typed) (hsave : s.save = .ok bytes)
    (hips : t.ips ≠ s.ips) :
    ∃ st, restore.run ⟨t, bytes⟩ =
      .error (snapshotInvalid "configured IPS does not match") st := by
  obtain ⟨tail, htail⟩ : ∃ tail, bytes = leBytes 4 1 ++ (leBytes 8 s.ips ++ tail) := by
    obtain ⟨_, timers, fired, _, _, hbytes⟩ := save_eq_ok hs hsave
    rw [hbytes]
    delta writeHeader
    simp only [List.append_assoc]
    exact ⟨_, rfl⟩
  have hread : readPcSystem.run ⟨t, bytes⟩ =
      .error (snapshotInvalid "configured IPS does not match") ⟨t, tail⟩ := by
    rw [htail]
    refine ((decodes_readLe (by decide)).run_bind _ _).trans ?_
    refine ((decodes_refuseIf fun h => h rfl).run_bind _ _).trans ?_
    refine ((decodes_readLe (lt_of_le_u64Max hs.ips)).run_bind _ _).trans ?_
    exact (decodes_live.run_bind _ _).trans (run_refuseIf (.inr hips.symm) _ _)
  exact ⟨_, run_bind_of_error hread⟩

/-- A fresh wheel, with its null timer. -/
def freshWheel (ips : Nat) : PcSystem := new.initializeWith ips

theorem typed_freshWheel : (freshWheel 1000000).Typed := by
  constructor <;> decide +kernel

/-- With a continuous PIT timer of period 5. -/
def pitWheel : PcSystem := ((freshWheel 1000000).registerTimer .pit 5 true true []).2

/-- Seven ticks later: the timer has fired once, and its fire is still queued. -/
def tickedWheel : PcSystem := ((pitWheel.tickn 7).map Prod.fst).getD pitWheel

theorem step_tickedWheel : pitWheel.step (.tickn 7) = some tickedWheel := by
  have hticks : (pitWheel.tickn 7).isSome := by decide +kernel
  obtain ⟨r, hr⟩ := Option.isSome_iff_exists.mp hticks
  have hstep : pitWheel.step (.tickn 7) = (pitWheel.tickn 7).map Prod.fst := rfl
  rw [hstep, tickedWheel, hr]
  rfl

theorem tickedWheel_saved : ∃ bytes, tickedWheel.save = .ok bytes := by
  have hsafe : RegistrationSafe (freshWheel 1000000) .pit [] :=
    ⟨by decide, trivial, by decide +kernel, nofun⟩
  exact save_of_safe ⟨1000000, .step (a := .tickn 7) (.step
    (a := .registerTimer .pit 5 true true []) .start hsafe rfl) trivial step_tickedWheel⟩

/-- The ticked wheel, restored into one that has the same timer and has not ticked. -/
theorem tickedWheel_restored :
    tickedWheel.fired = [(.pit, 1)] ∧ tickedWheel.timeTicks = 7 ∧
    (tickedWheel.timers 1).timeToFire = 10 ∧ (pitWheel.timers 1).timeToFire = 5 ∧
    ∃ bytes, tickedWheel.save = .ok bytes ∧
      restore.run ⟨pitWheel, bytes⟩ = .ok () ⟨tickedWheel, []⟩ ∧
      tickedWheel.snapshotLen = .ok bytes.length := by
  obtain ⟨bytes, hsave⟩ := tickedWheel_saved
  have htyped : tickedWheel.Typed := by constructor <;> decide +kernel
  have h := wheel_round_trip.1 tickedWheel pitWheel bytes [] htyped hsave (by decide +kernel)
  rw [List.append_nil] at h
  refine ⟨?_, ?_, ?_, ?_, bytes, hsave, h⟩ <;> decide +kernel

theorem other_ips_refused : ∃ bytes, (freshWheel 1000000).save = .ok bytes ∧
    (freshWheel 2000000).timers = (freshWheel 1000000).timers ∧
    ∃ st, restore.run ⟨freshWheel 2000000, bytes⟩ =
      .error (snapshotInvalid "configured IPS does not match") st := by
  obtain ⟨bytes, hsave⟩ := (save_iff (start_wellFormed 1000000)).mpr (start_ready 1000000)
  exact ⟨bytes, hsave, rfl, restore_of_ips_ne typed_freshWheel hsave (by decide)⟩

end RustyBox
