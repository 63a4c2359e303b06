-- SUMMARY: The line an INTA cycle of the 8259 pair takes, and when it is still requested.
import RustyBox.Irq.PicStranded

/-!
# The latched line

`service` latches a line when it asserts INT, and `iac` takes the latched line after it has
checked only that some line is requested. So the vector is that of a requested line as long
as nothing withdraws or masks the latched line in between, `latched_step`; when something does
and another line is requested, the withdrawn line is delivered.
-/

namespace RustyBox

open Lib Pic8259State Positions

namespace BxPicC

variable {s : BxPicC} {line : Fin 8} {m : Bool} {f : Pic8259State → Pic8259State}

/-- The chip and line whose vector an INTA cycle returns; none when the vector is spurious. -/
def acknowledged (s : BxPicC) : Option (Bool × Fin 8) :=
  if s.master.unmaskedRequests = 0#8 then none
  else if s.master.irq ≠ 2 then some (true, s.master.irq)
  else if s.slave.unmaskedRequests = 0#8 then none
  else some (false, s.slave.irq)

/-- The vector of a line, or vector 7 of the chip that had nothing to report. -/
def vectorOf (s : BxPicC) : Option (Bool × Fin 8) → BitVec 8
  | some (m, line) => BitVec.ofNat 8 line.val + (s.pic m).interruptOffset
  | none => (s.pic (decide (s.master.unmaskedRequests = 0#8))).interruptOffset + 7

theorem iac_vector (s : BxPicC) : s.iac.2 = s.vectorOf s.acknowledged := by
  have hmaster : s.deassert.master.unmaskedRequests = s.master.unmaskedRequests := rfl
  have hslave : s.deassert.cascade.slave.unmaskedRequests = s.slave.unmaskedRequests := rfl
  have hirq : s.deassert.master.irq = s.master.irq := rfl
  simp only [iac, acknowledged, hmaster, hslave, hirq]
  split_ifs with h1 h2 h3
  · rw [vectorOf, decide_eq_true h1]
    rfl
  · rfl
  · rw [vectorOf, decide_eq_false h1]
    rfl
  · rfl

/-- The line an INTA cycle takes is requested. -/
def Sound (s : BxPicC) : Prop :=
  ∀ m line, s.acknowledged = some (m, line) → (s.pic m).Requested line

/-- A chip the INTA cycle asks has requests, but not on the line it has latched. -/
def Stale (s : BxPicC) : Prop :=
  s.master.unmaskedRequests ≠ 0#8 ∧
    if s.master.irq = 2 then
      s.slave.unmaskedRequests ≠ 0#8 ∧ ¬ s.slave.Requested s.slave.irq
    else ¬ s.master.Requested s.master.irq

theorem sound_iff_not_stale : s.Sound ↔ ¬ s.Stale := by
  rw [Sound, Stale, acknowledged]
  by_cases hmaster : s.master.unmaskedRequests = 0#8
  · simp [hmaster]
  by_cases hirq : s.master.irq = 2
  · by_cases hslave : s.slave.unmaskedRequests = 0#8
    · simp [hirq, hslave]
    · simp [hirq, pic]
  · simp [hirq, pic]

/-! ## Withdrawing the latched request -/

/-- The step takes the request away from the line a chip has latched while it asserts INT:
the line goes down, or the mask register now covers it. -/
def Withdraws (s : BxPicC) : PicOp → Prop
  | .lowerIrq irqNo =>
    (s.master.intPin ∧ irqNo = s.master.irq.val) ∨ (s.slave.intPin ∧ irqNo = 8 + s.slave.irq.val)
  | .write port value =>
    ∃ m, port = (if m then picMasterData else picSlaveData) ∧ (s.pic m).init.inInit = false ∧
      (s.pic m).intPin ∧ hasBit (value.setWidth 8) (s.pic m).irq
  | _ => False

/-- Both chips hold what they have latched. -/
structure Latched (s : BxPicC) : Prop where
  master : s.master.Held
  slave : s.slave.Held

theorem latched_serviceMaster (h : s.Latched) : s.serviceMaster.Latched :=
  ⟨held_service h.master, h.slave⟩

/-- More requests leave the latched one in place. -/
theorem latched_raiseMaster (h : s.Latched) : (s.raiseMaster line).1.Latched := by
  rw [raiseMaster]
  split
  · exact ⟨h.master, h.slave⟩
  · refine latched_serviceMaster ⟨fun hpin => ⟨?_, (h.master hpin).2⟩, h.slave⟩
    simp [(h.master hpin).1]

theorem latched_lowerMaster (h : s.Latched) (hline : s.master.intPin → line ≠ s.master.irq) :
    (s.lowerMaster line).1.Latched := by
  rw [lowerMaster]
  split
  · refine ⟨fun hpin => ⟨?_, (h.master hpin).2⟩, h.slave⟩
    simp [(h.master hpin).1, Ne.symm (hline hpin)]
  · exact h

/-- Servicing the slave never lowers the cascade line while the slave holds its request. -/
theorem latched_serviceSlave (hw : s.slave.master = false) (h : s.Latched) :
    s.serviceSlave.Latched := by
  obtain ⟨hserve, -⟩ | ⟨irq, -, hreq, hserve⟩ | ⟨hpin, hreq, hserve⟩ := s.slave.service_cases
  · rw [serviceSlave, hserve]
    exact h
  · rw [if_neg (Bool.eq_false_iff.mp hw)] at hserve
    rw [serviceSlave, hserve]
    exact latched_raiseMaster ⟨h.master, fun _ => hreq⟩
  · exact absurd hreq (Pic8259State.unmaskedRequests_ne_zero.mpr ⟨_, h.slave hpin⟩)

theorem latched_dispatch (hw : s.slave.master = false) (h : s.Latched) :
    (s.servicePicDispatch m).Latched := by
  cases m
  · exact latched_serviceSlave hw h
  · exact latched_serviceMaster h

theorem latched_modify (h : s.Latched) (hf : (f (s.pic m)).Held) : (s.modify m f).Latched := by
  cases m
  · exact ⟨h.master, hf⟩
  · exact ⟨hf, h.slave⟩

theorem held_pic (h : s.Latched) : (s.pic m).Held := by
  cases m
  · exact h.slave
  · exact h.master

/-! ## Steps -/

theorem Inside.latched (hf : Inside f) (h : s.Latched) : (s.modify m f).Latched := by
  refine latched_modify h fun hpin => ?_
  obtain ⟨hirr, himr, -, hint, hirq, -⟩ := hf.spec (s.pic m)
  rw [hint] at hpin
  simpa only [Requested, hirr, himr, hirq] using held_pic h hpin

theorem Access.latched {lowest : Option (Fin 8)} {s' : BxPicC} (ha : s.Access m lowest s')
    (hw : s.Wired) (h : s.Latched) : s'.Latched := by
  cases ha with
  | still => exact h
  | serviced hf =>
    exact latched_dispatch (hf.keeps.wired hw).slave (hf.latched h)
  | stored hf _ => exact hf.latched h
  | rotated lowest => exact Inside.latched (fun _ => rfl) h

section

variable (hw : s.Wired) (h : s.Latched)
include hw h

theorem latched_writeCmd (value : BitVec 8) : (s.writeCmd value m).Latched := by
  by_cases hicw : value &&& 0x10#8 ≠ 0#8
  · rw [writeCmd, if_pos hicw]
    split
    · exact ⟨fun hpin => absurd hpin Bool.false_ne_true, h.slave⟩
    · exact ⟨h.master, fun hpin => absurd hpin Bool.false_ne_true⟩
  · exact (access_writeCmd hicw).latched hw h

/-- A mask that leaves the latched line uncovered. -/
theorem latched_writeData (value : BitVec 8)
    (hmask : (s.pic m).init.inInit = false → (s.pic m).intPin →
      hasBit value (s.pic m).irq = false) : (s.writeData value m).Latched := by
  by_cases hinit : (s.pic m).init.inInit = true
  · exact (access_writeData hinit).latched hw h
  · rw [writeData, if_neg hinit]
    refine latched_dispatch ((keeps_modify ?_).wired hw).slave
      (latched_modify h fun hpin => ⟨?_, ?_⟩)
    · exact fun _ _ => ⟨rfl, fun _ _ => rfl, fun _ _ => id⟩
    · exact (held_pic h hpin).1
    · exact hmask (Bool.eq_false_iff.mpr hinit) hpin

theorem latched_write (port : BitVec 16) (value : BitVec 32)
    (hop : ¬ s.Withdraws (.write port value)) : (s.write port value).Latched := by
  have hmask (m : Bool) (hport : port = if m then picMasterData else picSlaveData)
      (hinit : (s.pic m).init.inInit = false) (hpin : (s.pic m).intPin) :
      hasBit (value.setWidth 8) (s.pic m).irq = false :=
    Bool.eq_false_iff.mpr fun hbit => hop ⟨m, hport, hinit, hpin, hbit⟩
  rw [write]
  split_ifs with h1 h2 h3 h4
  · exact latched_writeCmd hw h _
  · exact latched_writeData hw h _ (hmask true h2)
  · exact latched_writeCmd hw h _
  · exact latched_writeData hw h _ (hmask false h4)
  · exact h

theorem latched_iac : s.iac.1.Latched := by
  have hpin : s.deassert.master.acknowledge.intPin = false := by
    rw [acknowledge_eq]
    rfl
  have hmaster : s.deassert.master.acknowledge.Held := fun hp => absurd hp (by rw [hpin]; decide)
  have hcascade : s.deassert.cascade.master.Held := fun hp => absurd hp (by
    rw [cascade, hpin]
    decide)
  simp only [iac]
  split_ifs
  · exact ⟨fun hp => absurd hp Bool.false_ne_true, h.slave⟩
  · exact latched_serviceMaster ⟨hmaster, h.slave⟩
  · exact ⟨hcascade, fun hp => absurd hp Bool.false_ne_true⟩
  · refine latched_serviceMaster (latched_serviceSlave ?_ ⟨hcascade, fun hp => ?_⟩)
    · rw [acknowledge_eq]
      exact hw.slave
    · rw [acknowledge_eq] at hp
      exact absurd hp Bool.false_ne_true

/-- A step that withdraws no latched request keeps every latched request in place. -/
theorem latched_step {op : PicOp} (hop : ¬ s.Withdraws op) : (s.step op).Latched := by
  cases op with
  | raiseIrq irqNo =>
    simp only [step, raiseIrq, raiseSlave]
    split_ifs
    · exact latched_raiseMaster h
    · exact ⟨h.master, h.slave⟩
    · refine latched_serviceSlave hw.slave ⟨h.master, fun hpin => ⟨?_, (h.slave hpin).2⟩⟩
      simp [(h.slave hpin).1]
    · exact h
  | lowerIrq irqNo =>
    simp only [Withdraws, not_or, not_and] at hop
    simp only [step, lowerIrq, lowerSlave]
    split_ifs with h8 h16
    · refine latched_lowerMaster h fun hpin hline => hop.1 hpin ?_
      rw [← hline, Fin.val_ofNat, Nat.mod_eq_of_lt h8]
    · refine ⟨h.master, fun hpin => ⟨?_, (h.slave hpin).2⟩⟩
      have hline : s.slave.irq ≠ Fin.ofNat 8 (irqNo - 8) := fun heq => hop.2 hpin (by
        rw [heq, Fin.val_ofNat]
        omega)
      simpa [(h.slave hpin).1] using hline
    · exact h
    · exact h
  | write port value => exact latched_write hw h port value hop
  | read port ioLen =>
    obtain ⟨m, ha⟩ := s.access_read port ioLen
    exact ha.latched hw h
  | inta => exact latched_iac hw h
  | setMode isMaster mode => exact (s.access_setMode isMaster mode).latched hw h
  | reset =>
    exact ⟨fun hp => absurd hp Bool.false_ne_true, fun hp => absurd hp Bool.false_ne_true⟩

end

/-! ## Runs -/

theorem latched_run {ops : List PicOp} (hw : s.Wired) (h : s.Latched)
    (hops : StepsMeet step (fun s op => ¬ s.Withdraws op) s ops) : (s.run ops).Latched := by
  induction ops generalizing s with
  | nil => exact h
  | cons op ops ih => exact ih (wired_step hw op) (latched_step hw h hops.1) hops.2

/-- When the chips an INTA cycle asks assert INT and hold what they latched, the line taken
is requested. -/
theorem not_stale_of_latched (h : s.Latched) (hpin : s.master.intPin)
    (hcascade : s.master.irq = 2 → s.slave.intPin) : ¬ s.Stale := by
  rintro ⟨-, hstale⟩
  by_cases hirq : s.master.irq = 2
  · rw [if_pos hirq] at hstale
    exact hstale.2 (h.slave (hcascade hirq))
  · rw [if_neg hirq] at hstale
    exact hstale (h.master hpin)

/-- After every run an INTA cycle returns the vector of the acknowledged line. In a run that
withdraws and masks no latched line, that line is requested whenever INT is asserted; after any
run it is requested exactly when no chip the cycle asks has latched one line and has requests on
others only. -/
theorem inta_takes_requested_line_iff (ops : List PicOp) :
    (new.run ops).iac.2 = (new.run ops).vectorOf (new.run ops).acknowledged ∧
      (StepsMeet step (fun s op => ¬ s.Withdraws op) new ops → (new.run ops).master.intPin →
        ((new.run ops).master.irq = 2 → (new.run ops).slave.intPin) → (new.run ops).Sound) ∧
      ((new.run ops).Sound ↔ ¬ (new.run ops).Stale) := by
  refine ⟨iac_vector _, fun hops hpin hcascade => sound_iff_not_stale.mpr ?_,
    sound_iff_not_stale⟩
  refine not_stale_of_latched (latched_run ⟨rfl, rfl⟩ ⟨?_, ?_⟩ hops) hpin hcascade
  iterate 2 exact fun hp => absurd hp Bool.false_ne_true

/-- Lines 3 and 4 are raised and line 3 goes down again before the CPU answers. -/
def withdrawOps : List PicOp :=
  [.write picMasterData 0x00, .raiseIrq 3, .raiseIrq 4, .lowerIrq 3]

/-- The CPU gets the vector of line 3, which is no longer requested; line 4 waits. -/
theorem withdrawn_line_delivered :
    (new.run withdrawOps).acknowledged = some (true, 3) ∧ (new.run withdrawOps).iac.2 = 0x0B#8 ∧
      hasBit (new.run withdrawOps).master.irr 3 = false ∧ ¬ (new.run withdrawOps).Sound := by
  have hline : (new.run withdrawOps).acknowledged = some (true, 3) := by decide +kernel
  have hirr : hasBit (new.run withdrawOps).master.irr 3 = false := by decide +kernel
  exact ⟨hline, by decide +kernel, hirr, fun h => Bool.eq_false_iff.mp hirr (h true 3 hline).1⟩

end BxPicC

end RustyBox
