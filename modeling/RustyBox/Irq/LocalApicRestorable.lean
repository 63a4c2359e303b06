-- SUMMARY: The local APIC states that can be restored: an invariant of all operations, and the mode change that breaks the rule for the LDR.
import RustyBox.Irq.LocalApicSnapshot
import RustyBox.Lib.Reachability
import Mathlib.Tactic.IntervalCases

/-!
# Restorable states of the local APIC

`Sound` holds of every state reached from reset, and once the timer requests and the IPIs are
drained it gives every rule of `restore` but the LDR's. That rule fails exactly when `setBase`
leaves x2APIC mode on a processor whose logical x2APIC ID does not fit in eight bits.
-/

namespace RustyBox

open Lib BitVec Function ApicVectors

/-! ## Vectors -/

section

variable {reg : VectorBits} {u v : BitVec 8}

/-- No vector below 0x10. -/
def NoLowVector (reg : VectorBits) : Prop := ∀ v, v < 0x10#8 → getVector reg v = false

theorem not_hasLowVector (h : NoLowVector reg) : ¬ HasLowVector reg := by
  intro hlow
  obtain ⟨i, hbit, hmask⟩ := and_ne_zero_iff.mp hlow
  have hlow : ∀ i < 32, (0xFFFF#32).getLsbD i → i < 16 ∧ BitVec.ofNat 8 i < 0x10#8 := by decide
  obtain ⟨hi, hbelow⟩ := hlow i (lt_of_getLsbD hmask) hmask
  have hget : getVector reg (BitVec.ofNat 8 i) = (reg 0).getLsbD i := by
    rw [getVector, WordSet.mem, hasBit_eq_getLsbD]
    interval_cases i <;> rfl
  rw [h _ hbelow] at hget
  exact Bool.false_ne_true (hget.trans hbit)

theorem noLowVector_setVector (h : NoLowVector reg) (hv : ¬ v < 0x10#8) :
    NoLowVector (setVector reg v) := by
  intro u hu
  have hne : u ≠ v := fun heq => hv (heq ▸ hu)
  rw [getVector_setVector, h u hu, decide_eq_false hne, Bool.false_or]

theorem noLowVector_clearVector (h : NoLowVector reg) : NoLowVector (clearVector reg v) := by
  intro u hu
  rw [getVector_clearVector, h u hu, Bool.false_and]

end

namespace ApicVectors

variable {p q : ApicVectors} {v : BitVec 8}

/-- What the rules say of the interrupt registers. -/
structure Sound (p : ApicVectors) : Prop where
  isr : NoLowVector p.isr
  tmr : NoLowVector p.tmr
  irr : NoLowVector p.irr
  taskPriority : p.taskPriority &&& ~~~0xFF#32 = 0#32

theorem sound_empty : ({} : ApicVectors).Sound where
  isr _ _ := getVector_zero
  tmr _ _ := getVector_zero
  irr _ _ := getVector_zero
  taskPriority := zero_and

theorem sound_service (h : p.Sound) : p.serviceLocalApic.Sound := by
  obtain ⟨hisr, htmr, hirr, htpr⟩ := h
  constructor <;> simpa only [serviceLocalApic_frame]

theorem getVector_of_highest {reg : VectorBits} (h : p.highestPriorityInt reg = some v) :
    getVector reg v := by
  obtain ⟨i, hi, rfl⟩ := Option.map_eq_some_iff.mp h
  have hmem := (WordSet.highest_eq_some.mp hi).1
  rw [WordSet.mem, hasBit_and, Bool.and_eq_true] at hmem
  exact hmem.1

theorem byte_and_upper (x : BitVec 8) : x.setWidth 32 &&& ~~~0xFF#32 = 0#32 := by
  decide +revert

theorem sound_step (h : p.Sound) (hstep : VectorStep p q) : q.Sound := by
  cases hstep with
  | same => exact h
  | accept vector triggerMode bypassIrrIsr hvector =>
    rw [accept]
    split
    · exact h
    · refine sound_service ⟨h.isr, ?_, noLowVector_setVector h.irr hvector, h.taskPriority⟩
      split
      · exact noLowVector_setVector h.tmr hvector
      · exact noLowVector_clearVector h.tmr
  | retire vector =>
    rw [retire]
    split
    · exact sound_service
        ⟨noLowVector_clearVector h.isr, noLowVector_clearVector h.tmr, h.irr, h.taskPriority⟩
    · exact sound_service ⟨noLowVector_clearVector h.isr, h.tmr, h.irr, h.taskPriority⟩
  | setTpr priority =>
    rw [setTpr]
    split
    · exact sound_service ⟨h.isr, h.tmr, h.irr, byte_and_upper priority⟩
    · exact ⟨h.isr, h.tmr, h.irr, byte_and_upper priority⟩
  | untriggerIrq vector => exact ⟨h.isr, h.tmr, noLowVector_clearVector h.irr, h.taskPriority⟩
  | acknowledge =>
    rw [acknowledge]
    split
    · exact ⟨h.isr, h.tmr, h.irr, h.taskPriority⟩
    next vector hfirst =>
      have hvector : ¬ vector < 0x10#8 := fun hlow =>
        Bool.false_ne_true ((h.irr vector hlow).symm.trans (getVector_of_highest hfirst))
      split
      · exact ⟨h.isr, h.tmr, h.irr, h.taskPriority⟩
      · exact sound_service
          (p := { p with irr := clearVector p.irr vector, isr := setVector p.isr vector, intr := false })
          ⟨noLowVector_setVector h.isr hvector, h.tmr, noLowVector_clearVector h.irr, h.taskPriority⟩
  | setIer ier | takeIntrPending => exact ⟨h.isr, h.tmr, h.irr, h.taskPriority⟩
  | reset => exact sound_empty

end ApicVectors

/-! ## The timer -/

namespace ApicTimer

variable {t : ApicTimer} {tsc : Bool}

/-- What the rules say of the timer, in TSC-deadline mode or not. -/
structure Sound (tsc : Bool) (t : ApicTimer) : Prop where
  handle : t.timerHandle ≠ none
  divisor : ¬ DivisorInvalid t.timerDivconf t.timerDivideFactor
  active : t.timerActive = true → t.timerInitial ≠ 0#32 ∨ tsc = true
  current : t.timerCurrent ≤ t.timerInitial

/-- A timer that does not run fits every mode. -/
theorem sound_disarm (h : t.Sound tsc) (tsc' : Bool) : t.disarm.Sound tsc' := by
  rw [disarm, stop]
  split
  · exact ⟨h.handle, h.divisor, (nomatch ·), h.current⟩
  next hidle => exact ⟨h.handle, h.divisor, fun hactive => absurd hactive hidle, h.current⟩

theorem sound_start (h : t.Sound tsc) (hcount : t.timerInitial ≠ 0#32 ∨ tsc = true)
    (currentTicks : BitVec 64) : (t.start currentTicks).Sound tsc :=
  ⟨h.handle, h.divisor, fun _ => hcount, BitVec.le_refl _⟩

theorem sound_setInitialTimerCount (h : t.Sound tsc) (value : BitVec 32) (currentTicks : BitVec 64) :
    (t.setInitialTimerCount tsc value currentTicks).Sound tsc := by
  have hdisarm := sound_disarm h tsc
  have hidle : t.disarm.timerActive = false := by
    rw [disarm, stop]
    split
    · rfl
    next hidle => exact Bool.eq_false_iff.mpr hidle
  have hstopped : Sound tsc { t.disarm with timerInitial := value, timerCurrent := 0#32 } :=
    ⟨hdisarm.handle, hdisarm.divisor, fun hactive => absurd (hidle.symm.trans hactive) Bool.false_ne_true,
      Nat.zero_le _⟩
  rw [setInitialTimerCount]
  split
  · exact h
  · split
    next hvalue => exact sound_start hstopped (.inl hvalue) currentTicks
    · exact hstopped

theorem sound_reload (h : t.Sound tsc) (hactive : t.timerActive = true) (periodicMode : Bool)
    (currentTicks : BitVec 64) : (t.reload periodicMode currentTicks).Sound tsc := by
  rw [reload]
  split
  · exact sound_start h (h.active hactive) currentTicks
  · exact ⟨h.handle, h.divisor, (nomatch ·), Nat.zero_le _⟩

theorem sound_setTscDeadline (h : t.Sound true) (deadline : BitVec 64) :
    (t.setTscDeadline deadline).Sound true := by
  have hdisarm := sound_disarm h true
  rw [setTscDeadline]
  split
  · exact ⟨hdisarm.handle, hdisarm.divisor, fun _ => .inr rfl, hdisarm.current⟩
  · exact ⟨hdisarm.handle, hdisarm.divisor, hdisarm.active, hdisarm.current⟩

theorem sound_setDivideConfiguration (h : t.Sound tsc) (value : BitVec 32) :
    (t.setDivideConfiguration value).Sound tsc := by
  refine ⟨h.handle, ?_, h.active, h.current⟩
  rintro (hmask | ⟨-, hfactor⟩)
  · refine hmask ?_
    show value &&& 0xB#32 &&& ~~~0xB#32 = 0#32
    rw [BitVec.and_assoc, show 0xB#32 &&& ~~~0xB#32 = 0#32 by decide, BitVec.and_zero]
  · exact hfactor rfl

theorem sound_applyRequests (h : t.Sound tsc) : t.applyRequests.Sound tsc := by
  rw [applyRequests]
  split <;> exact ⟨h.handle, h.divisor, h.active, h.current⟩

end ApicTimer

/-! ## The device -/

/-- The VMX and MWAITX timers are never armed. -/
structure AuxiliaryTimers.Idle (a : AuxiliaryTimers) : Prop where
  vmxTimerHandle : a.vmxTimerHandle = none
  mwaitxTimerHandle : a.mwaitxTimerHandle = none
  vmxRate : ¬ 64#32 ≤ a.vmxPreemptionTimerRate
  vmxTimerActive : a.vmxTimerActive = false
  mwaitxTimerActive : a.mwaitxTimerActive = false

namespace BxLocalApic

variable {s t : BxLocalApic}

structure Sound (s : BxLocalApic) : Prop extends s.RegistersLegal where
  logicalId : s.mode = .x2apicMode → s.ldr = logicalX2apicId s.identity.apicId
  vectors : s.vectors.Sound
  timer : s.timer.Sound s.tscDeadlineMode
  auxiliary : s.auxiliary.Idle

/-- The requests of the timer are applied and the IPIs are routed. -/
def drained (s : BxLocalApic) : BxLocalApic :=
  { s with pendingIpis := [], timer := s.timer.applyRequests }

theorem requests_applyRequests (t : ApicTimer) :
    t.applyRequests.timerActivateRequest = none ∧ t.applyRequests.timerDeactivateRequest = false := by
  rw [ApicTimer.applyRequests]
  split <;> exact ⟨rfl, rfl⟩

theorem validateTimers_of_sound (htimer : s.timer.Sound s.tscDeadlineMode)
    (haux : s.auxiliary.Idle) (hactivate : s.timer.timerActivateRequest = none) :
    s.validateTimers = .ok () := by
  have hconsistent : ¬ s.TimerInconsistent := by
    rintro (⟨hactive, hnone | ⟨hzero, hmode⟩⟩ | hmwaitx | ⟨hcount, -⟩)
    · exact htimer.handle hnone
    · exact (htimer.active hactive).elim (fun h => h hzero) hmode
    · exact Bool.false_ne_true (haux.mwaitxTimerActive.symm.trans hmwaitx)
    · exact BitVec.not_lt.mpr htimer.current hcount
  rw [validateTimers, haux.vmxTimerHandle, haux.mwaitxTimerHandle, hactivate, haux.vmxTimerActive,
    failIf, failIf, failIf, if_neg hconsistent]
  rfl

theorem coherent_drained (h : s.Sound) : s.drained.Coherent where
  toRegistersLegal := { h with }
  taskPriority := h.vectors.taskPriority
  isr := not_hasLowVector h.vectors.isr
  tmr := not_hasLowVector h.vectors.tmr
  irr := not_hasLowVector h.vectors.irr
  divisor := (ApicTimer.sound_applyRequests h.timer).divisor
  vmxRate := h.auxiliary.vmxRate
  ipis := ⟨Nat.zero_le _, fun _ hipi => nomatch hipi⟩
  timers := validateTimers_of_sound (s := s.drained) (ApicTimer.sound_applyRequests h.timer)
    h.auxiliary (requests_applyRequests s.timer).1

/-! ### Operations -/

/-- What an operation keeps: the invariant, and the rule for the LDR. -/
structure Keeps (s t : BxLocalApic) : Prop where
  sound : s.Sound → t.Sound
  ldr : s.LdrOk → t.LdrOk

theorem Keeps.refl (s : BxLocalApic) : Keeps s s := ⟨fun h => h, fun h => h⟩

theorem Keeps.trans {r s t : BxLocalApic} (hrs : Keeps r s) (hst : Keeps s t) : Keeps r t :=
  ⟨fun h => hst.sound (hrs.sound h), fun h => hst.ldr (hrs.ldr h)⟩

theorem keeps_busStep (h : BusStep s t) : Keeps s t := by
  obtain ⟨hvectors, hevents, hframe⟩ := h
  constructor
  · intro hs
    have hsound : s.vectors.Sound → t.vectors.Sound := fun hp => sound_step hp hvectors
    rw [hframe]
    exact { hs with vectors := hsound hs.vectors, cpuEvents := hevents hs.cpuEvents }
  · intro hs
    rw [hframe]
    exact hs

theorem keeps_vectors {p : ApicVectors} (hstep : VectorStep s.vectors p) :
    Keeps s { s with vectors := p } :=
  ⟨fun h => { h with vectors := sound_step h.vectors hstep }, fun h => h⟩

theorem keeps_timer {timer : ApicTimer}
    (htimer : s.timer.Sound s.tscDeadlineMode → timer.Sound s.tscDeadlineMode) :
    Keeps s { s with timer } :=
  ⟨fun h => { h with timer := htimer h.timer }, fun h => h⟩

theorem keeps_retire {vector : BitVec 8} (hvector : getVector s.vectors.isr vector) :
    Keeps s (s.retire vector) := by
  refine ⟨fun h => ?_, fun h => h⟩
  have hlow : ¬ vector < 0x10#8 := fun hlow =>
    Bool.false_ne_true ((h.vectors.isr vector hlow).symm.trans hvector)
  refine { h with vectors := sound_step h.vectors (.retire vector), eoi := ?_ }
  intro v hv
  rw [retire] at hv
  split at hv
  · obtain rfl := Option.some.inj hv
    exact hlow
  · exact h.eoi v hv

theorem keeps_receiveEoi (s : BxLocalApic) : Keeps s s.receiveEoi := by
  rw [receiveEoi]
  split
  · exact .refl s
  next vector hfirst =>
    split
    · exact .refl s
    · exact keeps_retire (getVector_of_highest hfirst)

theorem keeps_receiveSeoi (s : BxLocalApic) (vector : BitVec 8) : Keeps s (s.receiveSeoi vector) := by
  rw [receiveSeoi]
  split
  · exact .refl s
  · split
    next hvector => exact keeps_retire hvector
    · exact .refl s

/-! The TSC-deadline bit and the mask bit of an LVT entry are in its write mask, and differ. -/

theorem lvtMasked_and_mask (i : LvtIndex) : lvtMasked &&& ~~~lvtMasks i = 0#32 := by
  revert i
  decide

theorem masked_or_tscDeadline (x : BitVec 32) :
    (x ||| lvtMasked) &&& lvtTimerTscDeadline = x &&& lvtTimerTscDeadline := by
  rw [and_or_distrib_right, show lvtMasked &&& lvtTimerTscDeadline = 0#32 by decide, or_zero]

theorem keeps_writeSpuriousInterruptRegister (s : BxLocalApic) (value : BitVec 32) :
    Keeps s (s.writeSpuriousInterruptRegister value) := by
  refine ⟨fun h => ?_, fun h => h⟩
  have hmode : (s.writeSpuriousInterruptRegister value).tscDeadlineMode = s.tscDeadlineMode := by
    rw [tscDeadlineMode, writeSpuriousInterruptRegister]
    dsimp only
    split
    · rfl
    · rw [masked_or_tscDeadline, tscDeadlineMode]
  refine { h with lvt := fun i => ?_, tscDeadline := ?_, timer := ?_ }
  · show (if _ then _ else _) &&& _ = _
    split
    · exact h.lvt i
    · rw [and_or_distrib_right, h.lvt i, lvtMasked_and_mask, or_zero]
  · rw [hmode]
    exact h.tscDeadline
  · rw [hmode]
    exact h.timer

/-- What is stored of a value written to an LVT entry. -/
def lvtStored (s : BxLocalApic) (entry : LvtIndex) (value : BitVec 32) : BitVec 32 :=
  if s.softwareEnabled then value &&& lvtMasks entry else value &&& lvtMasks entry ||| lvtMasked

theorem lvtStored_and_mask (s : BxLocalApic) (entry : LvtIndex) (value : BitVec 32) :
    s.lvtStored entry value &&& ~~~lvtMasks entry = 0#32 := by
  have hwritten : value &&& lvtMasks entry &&& ~~~lvtMasks entry = 0#32 := by
    rw [BitVec.and_assoc, BitVec.and_not_self]
    exact and_zero
  rw [lvtStored]
  split
  · exact hwritten
  · rw [and_or_distrib_right, hwritten, lvtMasked_and_mask, or_zero]

theorem lvtStored_tscDeadline (s : BxLocalApic) (value : BitVec 32) :
    s.lvtStored lvtTimer value &&& lvtTimerTscDeadline = value &&& lvtTimerTscDeadline := by
  have hwritten :
      value &&& lvtMasks lvtTimer &&& lvtTimerTscDeadline = value &&& lvtTimerTscDeadline := by
    rw [BitVec.and_assoc,
      show lvtMasks lvtTimer &&& lvtTimerTscDeadline = lvtTimerTscDeadline by decide]
  rw [lvtStored]
  split
  · exact hwritten
  · rw [masked_or_tscDeadline, hwritten]

theorem and_eq_of_xor_and {x y b : BitVec 32} (h : (x ^^^ y) &&& b = 0#32) : x &&& b = y &&& b := by
  refine eq_of_getLsbD_eq fun i _ => ?_
  have hbit := congrArg (fun z => getLsbD z i) h
  simp only [getLsbD_and, getLsbD_xor, getLsbD_zero] at hbit ⊢
  generalize x.getLsbD i = p, y.getLsbD i = q, b.getLsbD i = r at hbit ⊢
  revert p q r
  decide

/-- The value that a write to an LVT entry stands for: without the capability, the timer's
TSC-deadline bit does not count. -/
def lvtValue (s : BxLocalApic) (entry : LvtIndex) (value : BitVec 32) : BitVec 32 :=
  if entry = lvtTimer ∧ ¬ s.identity.tscDeadlineSupported then value &&& ~~~lvtTimerTscDeadline
  else value

theorem setLvtEntry_eq (s : BxLocalApic) (entry : LvtIndex) (value : BitVec 32) :
    s.setLvtEntry entry value =
      { s with
        timer :=
          if entry = lvtTimer ∧ (s.lvtValue entry value ^^^ s.lvt entry) &&& lvtTimerTscDeadline ≠ 0#32
          then s.timer.disarm
          else s.timer
        lvt := update s.lvt entry (s.lvtStored entry (s.lvtValue entry value)) } := rfl

theorem lvt_update (h : ∀ i, s.lvt i &&& ~~~lvtMasks i = 0#32) (entry : LvtIndex)
    (value : BitVec 32) (i : LvtIndex) :
    update s.lvt entry (s.lvtStored entry value) i &&& ~~~lvtMasks i = 0#32 := by
  by_cases hi : i = entry
  · subst hi
    rw [update_self]
    exact lvtStored_and_mask s i value
  · rw [update_of_ne hi]
    exact h i

theorem sound_setLvtTimer (h : s.Sound) (value : BitVec 32) :
    (s.setLvtEntry lvtTimer value).Sound := by
  rw [setLvtEntry_eq]
  generalize hvalue : s.lvtValue lvtTimer value = stored
  have hstored : update s.lvt lvtTimer (s.lvtStored lvtTimer stored) lvtTimer &&&
      lvtTimerTscDeadline = stored &&& lvtTimerTscDeadline := by
    rw [update_self, lvtStored_tscDeadline]
  refine { h with lvt := lvt_update h.lvt lvtTimer stored, tscDeadline := ?_, timer := ?_ }
  · intro hmode
    by_contra hunsupported
    rw [tscDeadlineMode, hstored, ← hvalue, lvtValue, if_pos ⟨rfl, hunsupported⟩, BitVec.and_assoc,
      show ~~~lvtTimerTscDeadline &&& lvtTimerTscDeadline = 0#32 by decide, and_zero] at hmode
    exact absurd hmode (by decide)
  · split
    · exact ApicTimer.sound_disarm h.timer _
    next hsame =>
      have hbits : stored &&& lvtTimerTscDeadline = s.lvt lvtTimer &&& lvtTimerTscDeadline :=
        and_eq_of_xor_and (not_not.mp fun hne => hsame ⟨rfl, hne⟩)
      rw [tscDeadlineMode, hstored, hbits]
      exact h.timer

theorem sound_setLvtOther (h : s.Sound) {entry : LvtIndex} (hentry : entry ≠ lvtTimer)
    (value : BitVec 32) : (s.setLvtEntry entry value).Sound := by
  have hmode : (s.setLvtEntry entry value).tscDeadlineMode = s.tscDeadlineMode := by
    show (update s.lvt entry _ lvtTimer &&& lvtTimerTscDeadline != 0#32) = _
    rw [update_of_ne (Ne.symm hentry)]
    rfl
  refine { h with lvt := lvt_update h.lvt entry _, tscDeadline := ?_, timer := ?_ }
  · rw [hmode]
    exact h.tscDeadline
  · rw [hmode, setLvtEntry_eq, if_neg fun hcond => hentry hcond.1]
    exact h.timer

theorem keeps_setLvtEntry (s : BxLocalApic) (entry : LvtIndex) (value : BitVec 32) :
    Keeps s (s.setLvtEntry entry value) := by
  refine ⟨fun h => ?_, fun h => h⟩
  by_cases hentry : entry = lvtTimer
  · rw [hentry]
    exact sound_setLvtTimer h value
  · exact sound_setLvtOther h hentry value

theorem keeps_writeRegister (s : BxLocalApic) {register : Register}
    (hregister : register = .ldr → s.mode ≠ .x2apicMode) (value : BitVec 32)
    (currentTicks : BitVec 64) : Keeps s (s.writeRegister register value currentTicks) := by
  cases register with
  | tpr => exact keeps_vectors (.setTpr _)
  | eoi => exact keeps_receiveEoi s
  | ldr =>
    have hmode := hregister rfl
    refine ⟨fun h => { h with logicalId := fun hx2 => absurd hx2 hmode }, fun _ _ => ?_⟩
    show value >>> 24 &&& s.apicIdMask &&& ~~~s.apicIdMask = 0#32
    rw [BitVec.and_assoc, BitVec.and_not_self]
    exact and_zero
  | destinationFormat =>
    refine ⟨fun h => { h with destFormat := ?_ }, fun h => h⟩
    show value >>> 28 &&& 0xF#32 &&& ~~~0x0F#32 = 0#32
    rw [BitVec.and_assoc]
    exact and_zero
  | spuriousVector => exact keeps_writeSpuriousInterruptRegister s value
  | esr => exact ⟨fun h => { h with }, fun h => h⟩
  | icrLo =>
    have hicr : Keeps s { s with icrLo := value &&& ~~~(1#32 <<< 12) } :=
      ⟨fun h => { h with }, fun h => h⟩
    exact hicr.trans (keeps_busStep (busStep_sendIpi _ _ _))
  | icrHi => exact ⟨fun h => { h with }, fun h => h⟩
  | lvt entry => exact keeps_setLvtEntry s entry value
  | timerInitialCount =>
    exact keeps_timer fun h => ApicTimer.sound_setInitialTimerCount h value currentTicks
  | timerDivideCfg => exact keeps_timer fun h => ApicTimer.sound_setDivideConfiguration h value
  | extApicControl =>
    refine ⟨fun h => { h with xapicExt := ?_ }, fun h => h⟩
    show value &&& (xapicExtSupportIer ||| xapicExtSupportSeoi) &&& _ = 0#32
    rw [BitVec.and_assoc]
    exact and_zero
  | specificEoi => exact keeps_receiveSeoi s _
  | ier index =>
    rw [writeRegister]
    split
    · exact .refl s
    · exact keeps_vectors (.setIer _)
  | readOnly | illegal => exact .refl s

theorem keeps_periodic (s : BxLocalApic) (currentTicks : BitVec 64) :
    Keeps s (s.periodic currentTicks) := by
  rw [periodic]
  split
  · exact .refl s
  next hactive =>
    have hactive : s.timer.timerActive = true := by simpa using hactive
    dsimp only
    generalize htriggered : (if s.lvt lvtTimer &&& lvtMasked = 0#32 then
      s.triggerIrq ((s.lvt lvtTimer &&& 0xFF#32).setWidth 8) 0#8 false else s) = triggered
    have hbus : BusStep s triggered := by
      rw [← htriggered]
      split
      · exact busStep_triggerIrq ..
      · exact busStep_refl s
    have htimer : triggered.timer.timerActive = true := by rwa [hbus.frame]
    exact (keeps_busStep hbus).trans (keeps_timer fun h => ApicTimer.sound_reload h htimer _ _)

theorem lvt_reset (s : BxLocalApic) (i : LvtIndex) : s.reset.lvt i &&& ~~~lvtMasks i = 0#32 := by
  have hlint0 : s.presetLint0 &&& ~~~lvtMasks lvtLint0 = 0#32 := by
    rw [presetLint0]
    split <;> decide
  show update (fun _ => lvtMasked) lvtLint0 s.presetLint0 i &&& _ = _
  by_cases hi : i = lvtLint0
  · rw [hi]
    exact hlint0
  · rw [update_of_ne hi]
    exact lvtMasked_and_mask i

theorem tscDeadlineMode_reset (s : BxLocalApic) : s.reset.tscDeadlineMode = false := by
  show (update (fun _ => lvtMasked) lvtLint0 s.presetLint0 lvtTimer &&&
    lvtTimerTscDeadline != 0#32) = false
  rw [update_of_ne (by decide)]
  decide

/-- Reset keeps the identity, the handle of the timer and the other timers. -/
theorem sound_reset (hxapic : s.identity.xapic = true) (hcpus : s.identity.busCpuCount ≠ 0#32)
    (hhandle : s.timer.timerHandle ≠ none) (hauxiliary : s.auxiliary.Idle) : s.reset.Sound where
  baseAddr := show 0xFEE00000#64 &&& 0xFFF#64 = 0#64 by decide
  xapic := hxapic
  xapicExt := zero_and
  busCpuCount := hcpus
  destFormat := show 0xF#32 &&& ~~~0x0F#32 = 0#32 by decide
  logicalId := (nomatch ·)
  vectors := sound_empty
  lvt := lvt_reset s
  tscDeadline := fun hmode => nomatch (tscDeadlineMode_reset s).symm.trans hmode
  timer := ⟨hhandle, show ¬ DivisorInvalid 0#32 1#32 by decide, (nomatch ·), Nat.le_refl _⟩
  auxiliary := { hauxiliary with vmxTimerActive := rfl, mwaitxTimerActive := rfl }
  cpuEvents := Nat.zero_le _
  eoi := fun _ hv => nomatch hv

/-! ### Changes of the mode -/

/-- The operation leaves x2APIC mode on a processor whose logical x2APIC ID is too wide for the
LDR of the other modes. -/
def StraysFromX2apic (s : BxLocalApic) : ApicOp → Prop
  | .setBase newbase =>
    s.mode = .x2apicMode ∧ ApicMode.fromRaw (newbase >>> 10) ≠ .x2apicMode ∧
      logicalX2apicId s.identity.apicId &&& ~~~0xFF#32 ≠ 0#32
  | _ => False

theorem sound_setBase (h : s.Sound) (newbase : BitVec 64) : (s.setBase newbase).Sound := by
  rw [setBase]
  generalize ApicMode.fromRaw (newbase >>> 10) = mode
  have hmoved : Sound
      { s with
        mode
        baseAddr := newbase &&& ~~~0xFFF#64
        ldr := if mode = .x2apicMode then logicalX2apicId s.identity.apicId else s.ldr } := by
    refine { h with baseAddr := ?_, logicalId := fun hmode => if_pos hmode }
    rw [BitVec.and_assoc, show ~~~0xFFF#64 &&& 0xFFF#64 = 0#64 by decide, BitVec.and_zero]
  split
  · exact (keeps_writeSpuriousInterruptRegister _ _).sound hmoved
  · exact hmoved

theorem ldrOk_setBase_iff (h : s.Sound) (hldr : s.LdrOk) (newbase : BitVec 64) :
    (s.setBase newbase).LdrOk ↔ ¬ s.StraysFromX2apic (.setBase newbase) := by
  have hmask : s.apicIdMask = 0xFF#32 := if_pos h.xapic
  have hmoved : (s.setBase newbase).LdrOk ↔
      (ApicMode.fromRaw (newbase >>> 10) ≠ .x2apicMode → s.ldr &&& ~~~0xFF#32 = 0#32) := by
    rw [setBase]
    generalize ApicMode.fromRaw (newbase >>> 10) = mode
    rw [← hmask]
    refine Iff.trans (b := mode ≠ .x2apicMode →
      (if mode = .x2apicMode then logicalX2apicId s.identity.apicId else s.ldr) &&&
        ~~~s.apicIdMask = 0#32) ?_ (forall_congr' fun hmode => by rw [if_neg hmode])
    split <;> exact Iff.rfl
  rw [hmoved, StraysFromX2apic]
  by_cases hmode : s.mode = .x2apicMode
  · rw [h.logicalId hmode]
    tauto
  · have hnarrow := hldr hmode
    rw [hmask] at hnarrow
    exact iff_of_true (fun _ => hnarrow) fun hstray => hmode hstray.1

theorem keeps_step (s : BxLocalApic) {op : ApicOp} (hop : ∀ newbase, op ≠ .setBase newbase) :
    Keeps s (s.step op) := by
  cases op with
  | mmioWrite addr value len currentTicks =>
    rw [step]
    split
    next hselected =>
      have hmode : s.mode = .xapicMode := by
        rw [isSelected, Bool.and_eq_true] at hselected
        exact beq_iff_eq.mp hselected.1
      rw [write]
      split
      · exact .refl s
      · split
        · exact .refl s
        · exact keeps_writeRegister s (fun _ => by rw [hmode]; decide) value currentTicks
    · exact .refl s
  | x2apicWrite index value currentTicks =>
    rw [step]
    split
    · refine writeX2apic_rule (P := Keeps s) (.refl s) (fun icrLo icrHi => ?_)
        (fun _ => keeps_busStep (busStep_triggerIrq ..))
        (fun _ _ hne => keeps_writeRegister s (fun h => absurd h hne) _ _) index value
      have hicr : Keeps s { s with icrLo, icrHi } := ⟨fun h => { h with }, fun h => h⟩
      exact hicr.trans (keeps_busStep (busStep_sendIpi _ _ _))
    · exact .refl s
  | setBase newbase => exact absurd rfl (hop newbase)
  | setTpr priority => exact keeps_vectors (.setTpr priority)
  | setTscDeadline deadline =>
    rw [step, setTscDeadline]
    split
    next hmode =>
      refine keeps_timer fun h => ?_
      rw [hmode] at h ⊢
      exact ApicTimer.sound_setTscDeadline h deadline
    · exact .refl s
  | deliver vector deliveryMode trigMode => exact keeps_busStep (busStep_deliver ..)
  | triggerIrq vector triggerMode bypassIrrIsr => exact keeps_busStep (busStep_triggerIrq ..)
  | untriggerIrq vector => exact keeps_vectors (.untriggerIrq vector)
  | acknowledgeInt => exact keeps_vectors .acknowledge
  | timerFires => exact keeps_timer fun h => ⟨h.handle, h.divisor, h.active, h.current⟩
  | timerExpires currentTicks =>
    have hfired : Keeps s { s with timer := { s.timer with timerFired := false } } :=
      keeps_timer fun h => ⟨h.handle, h.divisor, h.active, h.current⟩
    exact hfired.trans (keeps_periodic _ currentTicks)
  | applyTimerRequests => exact keeps_timer ApicTimer.sound_applyRequests
  | takePendingIpi => exact ⟨fun h => { h with }, fun h => h⟩
  | takePendingCpuEvent =>
    refine ⟨fun h => { h with cpuEvents := ?_ }, fun h => h⟩
    show s.pendingCpuEvents.tail.length ≤ _
    rw [List.length_tail]
    exact (Nat.sub_le _ _).trans h.cpuEvents
  | takePendingEoi => exact ⟨fun h => { h with eoi := fun _ hv => by cases hv }, fun h => h⟩
  | takeIntrPending => exact keeps_vectors .takeIntrPending
  | recordTxAcceptError => exact keeps_busStep (busStep_recordTxAcceptError s)
  | sync clock => exact ⟨fun h => { h with }, fun h => h⟩
  | enableXapicExtensions =>
    exact ⟨fun h => { h with xapicExt := and_not_self _ }, fun h => h⟩
  | reset =>
    exact ⟨fun h => sound_reset h.xapic h.busCpuCount h.timer.handle h.auxiliary,
      fun _ _ => zero_and⟩

theorem sound_step (h : s.Sound) (op : ApicOp) : (s.step op).Sound := by
  by_cases hop : ∃ newbase, op = .setBase newbase
  · obtain ⟨newbase, rfl⟩ := hop
    exact sound_setBase h newbase
  · exact (keeps_step s fun newbase heq => hop ⟨newbase, heq⟩).sound h

theorem ldrOk_step_iff (h : s.Sound) (hldr : s.LdrOk) (op : ApicOp) :
    (s.step op).LdrOk ↔ ¬ s.StraysFromX2apic op := by
  by_cases hop : ∃ newbase, op = .setBase newbase
  · obtain ⟨newbase, rfl⟩ := hop
    exact ldrOk_setBase_iff h hldr newbase
  · have hkeeps := keeps_step s fun newbase heq => hop ⟨newbase, heq⟩
    refine iff_of_true (hkeeps.ldr hldr) ?_
    cases op <;> first | exact fun hstray => hstray | exact absurd ⟨_, rfl⟩ hop

/-! ### Runs -/

/-- The device as it is built for a processor, with its timer registered, and reset. -/
def powerOn (apicId cpuCount : BitVec 32) (tscDeadlineSupported : Bool) (timerHandle : BitVec 64) :
    BxLocalApic :=
  ({ identity :=
      { apicId
        busCpuCount := if cpuCount = 0#32 then 1#32 else cpuCount
        tscDeadlineSupported }
     timer := { timerHandle := some timerHandle } } : BxLocalApic).reset

section

variable (apicId cpuCount : BitVec 32) (tscDeadlineSupported : Bool) (timerHandle : BitVec 64)

theorem sound_powerOn : (powerOn apicId cpuCount tscDeadlineSupported timerHandle).Sound := by
  refine sound_reset rfl ?_ (nomatch ·) ⟨rfl, rfl, show ¬ 64#32 ≤ 0#32 by decide, rfl, rfl⟩
  show (if cpuCount = 0#32 then 1#32 else cpuCount) ≠ 0#32
  split
  · decide
  · assumption

/-- Along a run from power-on every drained state round trips, exactly if no operation strays
from x2APIC mode. -/
theorem local_apic_round_trips_iff (ops : List ApicOp) :
    (∀ s ∈ ops.scanl step (powerOn apicId cpuCount tscDeadlineSupported timerHandle),
      s.drained.RoundTrips) ↔
    StepsMeet step (fun s op => ¬ s.StraysFromX2apic op)
      (powerOn apicId cpuCount tscDeadlineSupported timerHandle) ops := by
  have hstart := sound_powerOn apicId cpuCount tscDeadlineSupported timerHandle
  refine forall_scanl_iff_stepsMeet_of_inv (I := Sound) (fun s op h _ => sound_step h op)
    (fun s op h hround => ?_) hstart
    ((roundTrips_iff (coherent_drained hstart)).mpr fun _ => zero_and) ops
  rw [roundTrips_iff (coherent_drained (sound_step h op))]
  exact ldrOk_step_iff h ((roundTrips_iff (coherent_drained h)).mp hround) op

end

/-- Processor 8 enters x2APIC mode and leaves it, which keeps 0x100 in its LDR: the device is saved,
and what is saved is refused. -/
theorem left_x2apic_unrestorable :
    ∃ bytes stream,
      let s := ((powerOn 8#32 9#32 false 0#64).run
        [.setBase 0xFEE00C00#64, .setBase 0xFEE00000#64]).drained
      s.saveSnapshotV3Body = .ok bytes ∧
        restoreSnapshotV3Body.run ⟨s, bytes⟩ =
          .error (snapshotInvalid "LAPIC LDR has reserved bits") stream := by
  have hsound : ((powerOn 8#32 9#32 false 0#64).run
      [.setBase 0xFEE00C00#64, .setBase 0xFEE00000#64]).Sound :=
    sound_step (sound_step (sound_powerOn 8#32 9#32 false 0#64) (.setBase 0xFEE00C00#64))
      (.setBase 0xFEE00000#64)
  have hcoherent := coherent_drained hsound
  have hldr : ¬ ((powerOn 8#32 9#32 false 0#64).run
      [.setBase 0xFEE00C00#64, .setBase 0xFEE00000#64]).drained.LdrOk := by
    rw [LdrOk]
    decide
  obtain ⟨stream, hrefused⟩ := restore_refused hcoherent hldr []
  rw [List.append_nil] at hrefused
  exact ⟨_, stream, save_of_queues hcoherent.ipis.1 hcoherent.cpuEvents, hrefused⟩

end BxLocalApic

end RustyBox
