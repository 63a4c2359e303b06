-- SUMMARY: Which steps of the 8259 pair leave a request without INT.
import RustyBox.Irq.PicService
import RustyBox.Lib.Reachability

/-!
# Stranded requests

A pair is `NoStranded` when every eligible request of a chip asserts the chip's INT, and the
slave's INT is seen at line 2 of the master. Nearly every operation services the chip it
changed and so keeps this; the exceptions are listed in `BxPicC.Strands`:

- the set-priority command, which rotates a chip without servicing it;
- an INTA cycle that is answered with the slave's spurious vector: it returns before the
  master is serviced again;
- ICW1 on the master, and lowering line 2 from outside, while the slave asserts INT: the
  master forgets the cascade request, and the slave does not repeat it.
-/

namespace RustyBox

open Lib Pic8259State Function Positions

namespace Pic8259State

/-- A change of a chip that drives none of the inputs and makes no request on them. -/
structure Quiet (lines : Fin 8 → Prop) (c c' : Pic8259State) : Prop where
  place : c'.master = c.master
  irqIn : ∀ i, lines i → c'.irqIn i = c.irqIn i
  irr : ∀ i, lines i → hasBit c'.irr i → hasBit c.irr i

variable {lines : Fin 8 → Prop} {c c' c'' : Pic8259State}

theorem Quiet.refl (c : Pic8259State) : Quiet lines c c := ⟨rfl, fun _ _ => rfl, fun _ _ => id⟩

theorem Quiet.trans (h : Quiet lines c c') (h' : Quiet lines c' c'') : Quiet lines c c'' where
  place := h'.place.trans h.place
  irqIn i hi := (h'.irqIn i hi).trans (h.irqIn i hi)
  irr i hi := h.irr i hi ∘ h'.irr i hi

theorem quiet_service (c : Pic8259State) : Quiet lines c c.service.1 := by
  rw [service_eq]
  exact ⟨rfl, fun _ _ => rfl, fun _ _ => id⟩

theorem quiet_acknowledge (c : Pic8259State) : Quiet lines c c.acknowledge where
  place := by rw [acknowledge_eq]
  irqIn i _ := by rw [acknowledge_eq]
  irr i _ h := by
    by_cases hi : i = c.irq
    · simp only [acknowledge] at h
      split_ifs at h <;> simp_all
    · rwa [hasBit_acknowledge hi] at h

/-- ICW1 drops all requests. -/
theorem quiet_writeIcw1 (c : Pic8259State) (value : BitVec 8) : Quiet lines c (c.writeIcw1 value) :=
  ⟨rfl, fun _ _ => rfl, fun i _ h => by simp [writeIcw1] at h⟩

end Pic8259State

namespace BxPicC

variable {s : BxPicC} {line : Fin 8} {m : Bool} {f : Pic8259State → Pic8259State}

structure NoStranded (s : BxPicC) : Prop where
  master : s.master.Served
  slave : s.slave.Served
  cascade : s.slave.intPin → hasBit s.master.irr 2

/-- Each chip knows its place. -/
structure Wired (s : BxPicC) : Prop where
  master : s.master.master = true
  slave : s.slave.master = false

variable (value : BitVec 8)

/-- The set-priority command, with the line that becomes the lowest. -/
def setsPriority : Prop := 0xC0#8 ≤ value ∧ value ≤ 0xC7#8

instance (value : BitVec 8) : Decidable (setsPriority value) := inferInstanceAs (Decidable (_ ∧ _))

/-- The steps after which a request is without INT. -/
def Strands (s : BxPicC) : PicOp → Prop
  | .write port value =>
    (port = picMasterCmd ∧ value.setWidth 8 &&& 0x10#8 ≠ 0#8 ∧ s.slave.intPin) ∨
    ∃ m, port = (if m then picMasterCmd else picSlaveCmd) ∧ setsPriority (value.setWidth 8) ∧
      (s.pic m).intPin = false ∧ ∃ line, { s.pic m with
        lowestPriority := Fin.ofNat 8 (value.setWidth 8 - 0xC0#8).toNat : Pic8259State }.Eligible line
  | .lowerIrq irqNo => irqNo = 2 ∧ s.master.irqIn 2 ∧ s.slave.intPin
  | .inta =>
    s.master.unmaskedRequests ≠ 0#8 ∧ s.master.irq = 2 ∧ s.slave.unmaskedRequests = 0#8 ∧
      ∃ line, s.master.acknowledge.Eligible line
  | _ => False

/-! ## Lines -/

theorem raiseMaster_slave : (s.raiseMaster line).1.slave = s.slave := by
  rw [raiseMaster]
  split <;> rfl

theorem hasBit_raiseMaster : hasBit (s.raiseMaster line).1.master.irr line := by
  rw [raiseMaster]
  split
  · assumption
  · simp [serviceMaster]

theorem hasBit_raiseMaster_of {i : Fin 8} (h : hasBit s.master.irr i) :
    hasBit (s.raiseMaster line).1.master.irr i := by
  rw [raiseMaster]
  split
  · exact h
  · simp [serviceMaster, h]

theorem served_raiseMaster (h : s.master.Served) : (s.raiseMaster line).1.master.Served := by
  rw [raiseMaster]
  split
  · exact h.shrink (fun _ => id) rfl rfl rfl rfl
  · exact served_service _

theorem lowerMaster_slave : (s.lowerMaster line).1.slave = s.slave := by
  rw [lowerMaster]
  split <;> rfl

theorem served_lowerMaster (h : s.master.Served) : (s.lowerMaster line).1.master.Served := by
  rw [lowerMaster]
  split
  · refine h.shrink (fun i hi => ⟨?_, hi.2⟩) rfl rfl rfl rfl
    have := hi.1
    simp only [hasBit_clearBit, Bool.and_eq_true] at this
    exact this.1
  · exact h

theorem hasBit_lowerMaster {i : Fin 8} (hi : i ≠ line) :
    hasBit (s.lowerMaster line).1.master.irr i = hasBit s.master.irr i := by
  rw [lowerMaster]
  split
  · simp [hi]
  · rfl

/-! ## Servicing the slave -/

/-- Everything servicing the slave can do to the pair. -/
theorem serviceSlave_cases (hw : s.slave.master = false) :
    (s.serviceSlave = s ∧ s.slave.Served) ∨
    (∃ irq, s.slave.Requested irq ∧ s.serviceSlave =
      ({ s with slave := { s.slave with intPin := true, irq := irq } }.raiseMaster 2).1) ∨
    (s.slave.unmaskedRequests = 0#8 ∧
      s.serviceSlave = ({ s with slave.intPin := false }.lowerMaster 2).1) := by
  obtain ⟨h, hserved⟩ | ⟨irq, -, hreq, h⟩ | ⟨-, hreq, h⟩ := s.slave.service_cases
  · exact .inl ⟨by rw [serviceSlave, h], hserved⟩
  · rw [if_neg (Bool.eq_false_iff.mp hw)] at h
    exact .inr (.inl ⟨irq, hreq, by rw [serviceSlave, h]; rfl⟩)
  · rw [if_neg (Bool.eq_false_iff.mp hw)] at h
    exact .inr (.inr ⟨hreq, by rw [serviceSlave, h]; rfl⟩)

/-- Servicing the slave puts the slave and the cascade line in order. -/
theorem serviceSlave_slave (hw : s.slave.master = false)
    (hcas : s.slave.intPin → hasBit s.master.irr 2) :
    s.serviceSlave.slave.Served ∧
      (s.serviceSlave.slave.intPin → hasBit s.serviceSlave.master.irr 2) := by
  obtain ⟨h, hserved⟩ | ⟨irq, -, h⟩ | ⟨hreq, h⟩ := serviceSlave_cases hw <;> rw [h]
  · exact ⟨hserved, hcas⟩
  · rw [raiseMaster_slave]
    exact ⟨served_of_intPin rfl, fun _ => hasBit_raiseMaster⟩
  · rw [lowerMaster_slave]
    exact ⟨served_of_no_request hreq, fun h => absurd h Bool.false_ne_true⟩

theorem serviceSlave_master (hw : s.slave.master = false) (h : s.master.Served) :
    s.serviceSlave.master.Served := by
  obtain ⟨heq, -⟩ | ⟨irq, -, heq⟩ | ⟨-, heq⟩ := serviceSlave_cases hw <;> rw [heq]
  · exact h
  · exact served_raiseMaster h
  · exact served_lowerMaster h

theorem noStranded_serviceSlave (hw : s.slave.master = false) (hmaster : s.master.Served)
    (hcas : s.slave.intPin → hasBit s.master.irr 2) : s.serviceSlave.NoStranded :=
  ⟨serviceSlave_master hw hmaster, (serviceSlave_slave hw hcas).1, (serviceSlave_slave hw hcas).2⟩

theorem noStranded_serviceMaster (hslave : s.slave.Served)
    (hcas : s.slave.intPin → hasBit s.master.irr 2) : s.serviceMaster.NoStranded where
  master := served_service _
  slave := hslave
  cascade h := by simpa [serviceMaster] using hcas h

/-! ## Changes to one chip -/

/-- What a command may do to a chip before it services it. -/
structure KeepsRequests (f : Pic8259State → Pic8259State) : Prop where
  irr : ∀ c, (f c).irr = c.irr
  intPin : ∀ c, (f c).intPin = c.intPin
  master : ∀ c, (f c).master = c.master

/-- A command that leaves requests and INT alone and then services the chip strands
nothing, whatever it does to masks, priorities and the lines in service. -/
theorem noStranded_modify_dispatch (hw : s.Wired) (h : s.NoStranded) (hf : KeepsRequests f) :
    ((s.modify m f).servicePicDispatch m).NoStranded := by
  cases m with
  | true =>
    refine noStranded_serviceMaster h.slave fun hpin => ?_
    simpa [modify, hf.irr] using h.cascade hpin
  | false =>
    refine noStranded_serviceSlave ?_ h.master fun hpin => ?_
    · simpa [modify, hf.master] using hw.slave
    · exact h.cascade (by simpa [modify, hf.intPin] using hpin)

/-- Without the service the chip itself has to be in order. -/
theorem noStranded_modify_iff (h : s.NoStranded) (hf : KeepsRequests f) :
    (s.modify m f).NoStranded ↔ (f (s.pic m)).Served := by
  cases m with
  | true => exact ⟨fun h => h.master, fun hc => ⟨hc, h.slave, fun hp => by
      simpa [modify, hf.irr] using h.cascade hp⟩⟩
  | false => exact ⟨fun h => h.slave, fun hc => ⟨h.master, hc, fun hp =>
      h.cascade (by simpa [modify, hf.intPin] using hp)⟩⟩

/-! ## Lines raised and lowered from outside -/

theorem noStranded_raiseMaster (h : s.NoStranded) : (s.raiseMaster line).1.NoStranded where
  master := served_raiseMaster h.master
  slave := by rw [raiseMaster_slave]; exact h.slave
  cascade hpin := by
    rw [raiseMaster_slave] at hpin
    exact hasBit_raiseMaster_of (h.cascade hpin)

/-- Lowering a line strands the slave's request when the line is the cascade. -/
theorem noStranded_lowerMaster_iff (h : s.NoStranded) :
    (s.lowerMaster line).1.NoStranded ↔ ¬(line = 2 ∧ s.master.irqIn 2 ∧ s.slave.intPin) := by
  constructor
  · rintro hafter ⟨rfl, hin, hpin⟩
    have := hafter.cascade (by rw [lowerMaster_slave]; exact hpin)
    rw [lowerMaster, if_pos hin] at this
    simp at this
  · intro hnot
    refine ⟨served_lowerMaster h.master, by rw [lowerMaster_slave]; exact h.slave, fun hpin => ?_⟩
    rw [lowerMaster_slave] at hpin
    by_cases hline : line = 2
    · subst hline
      have hin : ¬ s.master.irqIn 2 := fun hin => hnot ⟨rfl, hin, hpin⟩
      rw [lowerMaster, if_neg hin]
      exact h.cascade hpin
    · rw [hasBit_lowerMaster (Ne.symm hline)]
      exact h.cascade hpin

theorem noStranded_raiseSlave (hw : s.Wired) (h : s.NoStranded) :
    (s.raiseSlave line).1.NoStranded := by
  rw [raiseSlave]
  split
  · exact ⟨h.master, h.slave.shrink (fun _ => id) rfl rfl rfl rfl, h.cascade⟩
  · exact noStranded_serviceSlave hw.slave h.master h.cascade

theorem noStranded_lowerSlave (h : s.NoStranded) : (s.lowerSlave line).1.NoStranded := by
  rw [lowerSlave]
  split
  · refine ⟨h.master, h.slave.shrink (fun i hi => ⟨?_, hi.2⟩) rfl rfl rfl rfl, h.cascade⟩
    have := hi.1
    simp only [hasBit_clearBit, Bool.and_eq_true] at this
    exact this.1
  · exact h

/-! ## Commands -/

/-- What the rest of the pair sees of a chip. -/
def outside (c : Pic8259State) := (c.irr, c.imr, c.irqIn, c.intPin, c.irq, c.master)

/-- A change inside a chip: priorities, lines in service, options. -/
def Inside (f : Pic8259State → Pic8259State) : Prop := ∀ c, outside (f c) = outside c

theorem Inside.spec (hf : Inside f) (c : Pic8259State) :
    (f c).irr = c.irr ∧ (f c).imr = c.imr ∧ (f c).irqIn = c.irqIn ∧ (f c).intPin = c.intPin ∧
      (f c).irq = c.irq ∧ (f c).master = c.master := by
  simpa [outside] using hf c

theorem Inside.keepsRequests (hf : Inside f) : KeepsRequests f where
  irr c := (hf.spec c).1
  intPin c := (hf.spec c).2.2.2.1
  master c := (hf.spec c).2.2.2.2.2

theorem inside_clearHighest : Inside clearHighestInterrupt := by
  intro c
  rw [clearHighestInterrupt_eq]
  rfl

theorem inside_writeOcw3 : Inside (·.writeOcw3 value) := by
  intro c
  simp only
  rw [writeOcw3_eq]
  rfl

theorem inside_writeIcw : Inside (·.writeIcw value) := by
  intro c
  simp only
  rw [writeIcw_eq]
  rfl

/-- What an access does that neither starts an initialisation nor writes a mask. A chip that is
not serviced after it is as much in order as before, unless the access makes a line the lowest. -/
inductive Access (s : BxPicC) (m : Bool) : Option (Fin 8) → BxPicC → Prop
  | still : Access s m none s
  | serviced {f : Pic8259State → Pic8259State} (hf : Inside f) :
    Access s m none ((s.modify m f).servicePicDispatch m)
  | stored {f : Pic8259State → Pic8259State} (hf : Inside f)
    (hserved : ∀ c : Pic8259State, c.Served → (f c).Served) : Access s m none (s.modify m f)
  | rotated (lowest : Fin 8) :
    Access s m (some lowest) (s.modify m fun c => { c with lowestPriority := lowest })

variable {lowest : Option (Fin 8)} {s' : BxPicC}

theorem served_pic (h : s.NoStranded) : (s.pic m).Served := by
  cases m
  · exact h.slave
  · exact h.master

theorem Access.noStranded_iff (ha : s.Access m lowest s') (hw : s.Wired) (h : s.NoStranded) :
    s'.NoStranded ↔ ∀ l ∈ lowest, { s.pic m with lowestPriority := l : Pic8259State }.Served := by
  cases ha with
  | still => simpa using h
  | serviced hf => simpa using noStranded_modify_dispatch hw h hf.keepsRequests
  | stored hf hserved =>
    simpa using (noStranded_modify_iff h hf.keepsRequests).mpr (hserved _ (served_pic h))
  | rotated l =>
    refine (noStranded_modify_iff h ⟨?_, ?_, ?_⟩).trans (by simp) <;> exact fun _ => rfl

/-- The line that a command makes the lowest. -/
def newLowest : Option (Fin 8) :=
  if setsPriority value then some (Fin.ofNat 8 (value - 0xC0#8).toNat) else none

/-- Of the end-of-interrupt and priority commands, set-priority alone rotates the chip without
servicing it. -/
theorem access_writeOcw2 : s.Access m (newLowest value) (s.writeOcw2 value m) := by
  by_cases hset : setsPriority value
  · have hle := hset.1
    rw [newLowest, if_pos hset, writeOcw2, if_neg (by bv_omega), if_neg (by bv_omega),
      if_neg (by bv_omega), if_neg (by bv_omega), if_neg (by bv_omega)]
    exact (if_pos hset).symm ▸ .rotated _
  · rw [newLowest, if_neg hset, writeOcw2]
    unfold setsPriority at hset
    split_ifs
    · exact .stored (fun _ => rfl) fun c hc => hc.shrink (fun _ => id) rfl rfl rfl rfl
    · exact .serviced inside_clearHighest
    · exact .serviced fun c => inside_clearHighest c
    · exact .still
    · exact .serviced fun _ => rfl
    · exact .serviced fun _ => rfl
    · exact .still

variable {c : Pic8259State}

/-- Leaving special mask mode lets fewer requests through. -/
theorem served_cancelSpecialMask (h : c.Served) :
    { c with specialMask := false : Pic8259State }.Served := by
  cases hs : c.specialMask with
  | false => exact h.shrink (fun _ => id) rfl hs.symm rfl rfl
  | true =>
    rintro ⟨i, hi, hpri⟩
    refine h ⟨i, hi, ?_⟩
    rw [hs, if_pos rfl]
    -- a line in service does not come before itself
    exact Bool.eq_false_iff.mpr fun hin => absurd (hpri i hin) (lt_irrefl _)

theorem served_writeOcw3 (h : c.Served) {value : BitVec 8}
    (hv : value &&& 0x60#8 ≠ 0x60#8) : (c.writeOcw3 value).Served := by
  rw [writeOcw3]
  have hread : (if value &&& 0x03#8 = 0x02#8 then { c with readRegSelect := false }
      else if value &&& 0x03#8 = 0x03#8 then { c with readRegSelect := true } else c).Served := by
    split_ifs
    iterate 2 exact h.shrink (fun _ => id) rfl rfl rfl rfl
    · exact h
  by_cases hcancel : value &&& 0x60#8 = 0x40#8
  · simp only [hcancel, if_true]
    exact served_cancelSpecialMask hread
  · simp only [hcancel, hv, if_false]
    exact hread

theorem noStranded_icw1_iff (h : s.NoStranded) (value : BitVec 8) (cleared : Bool) :
    { s with master := s.master.writeIcw1 value, irqCleared := cleared : BxPicC }.NoStranded ↔
      ¬ s.slave.intPin := by
  constructor
  · intro hafter hpin
    have := hafter.cascade hpin
    simp [writeIcw1] at this
  · intro hpin
    refine ⟨served_of_no_request ?_, h.slave, fun hp => absurd hp hpin⟩
    simp [unmaskedRequests, writeIcw1]

theorem noStranded_slaveIcw1 (h : s.NoStranded) (value : BitVec 8) :
    { s with
      slave := s.slave.writeIcw1 value
      master.irqIn := Function.update s.master.irqIn 2 false : BxPicC }.NoStranded := by
  refine ⟨h.master.shrink (fun _ => id) rfl rfl rfl rfl,
    served_of_no_request ?_, fun hp => absurd hp Bool.false_ne_true⟩
  simp [unmaskedRequests, writeIcw1]

/-- The set-priority commands are OCW2 commands. -/
theorem ocw2_of_setsPriority : ∀ value : BitVec 8, setsPriority value →
    value &&& 0x10#8 = 0#8 ∧ value &&& 0x18#8 ≠ 0x08#8 := by
  decide +kernel

theorem access_writeCmd {value : BitVec 8} (hicw : ¬ value &&& 0x10#8 ≠ 0#8) :
    s.Access m (newLowest value) (s.writeCmd value m) := by
  rw [writeCmd, if_neg hicw]
  by_cases hocw3 : value &&& 0x18#8 = 0x08#8
  · rw [if_pos hocw3, newLowest, if_neg fun hset => (ocw2_of_setsPriority value hset).2 hocw3]
    split_ifs with hpoll hset
    · exact .stored (fun _ => rfl) fun c hc => hc.shrink (fun _ => id) rfl rfl rfl rfl
    · exact .serviced (inside_writeOcw3 value)
    · exact .stored (inside_writeOcw3 value) fun c hc => served_writeOcw3 hc hset
  · rw [if_neg hocw3]
    exact access_writeOcw2 value

theorem noStranded_writeCmd_iff (hw : s.Wired) (h : s.NoStranded) (value : BitVec 8) :
    (s.writeCmd value m).NoStranded ↔
      ¬(m ∧ value &&& 0x10#8 ≠ 0#8 ∧ s.slave.intPin) ∧
      ¬(setsPriority value ∧ (s.pic m).intPin = false ∧ ∃ line, { s.pic m with
        lowestPriority := Fin.ofNat 8 (value - 0xC0#8).toNat : Pic8259State }.Eligible line) := by
  by_cases hicw : value &&& 0x10#8 ≠ 0#8
  · have hnot : ¬ setsPriority value := fun hset => hicw (ocw2_of_setsPriority value hset).1
    rw [writeCmd, if_pos hicw]
    cases m with
    | true => simp [noStranded_icw1_iff h, hnot, hicw]
    | false => simpa [hnot] using noStranded_slaveIcw1 h value
  · rw [(access_writeCmd hicw).noStranded_iff hw h]
    simp only [newLowest, hicw, Served, ← Bool.not_eq_true]
    grind

/-- In an initialisation the data port takes the next command word. -/
theorem access_writeData {value : BitVec 8} (hinit : (s.pic m).init.inInit = true) :
    s.Access m none (s.writeData value m) := by
  rw [writeData, if_pos hinit]
  refine .stored (inside_writeIcw value) fun c hc => ?_
  rw [writeIcw_eq]
  exact hc.shrink (fun _ => id) rfl rfl rfl rfl

theorem noStranded_writeData (hw : s.Wired) (h : s.NoStranded) (value : BitVec 8) :
    (s.writeData value m).NoStranded := by
  by_cases hinit : (s.pic m).init.inInit = true
  · simp [(access_writeData hinit).noStranded_iff hw h]
  · rw [writeData, if_neg hinit]
    exact noStranded_modify_dispatch hw h ⟨fun _ => rfl, fun _ => rfl, fun _ => rfl⟩

theorem noStranded_write_iff (hw : s.Wired) (h : s.NoStranded) (port : BitVec 16)
    (value : BitVec 32) : (s.write port value).NoStranded ↔ ¬ s.Strands (.write port value) := by
  rw [write, Strands]
  split_ifs with h1 h2 h3 h4
  · subst h1
    rw [noStranded_writeCmd_iff hw h]
    simp [show picMasterCmd ≠ picSlaveCmd by decide]
  · subst h2
    simpa [Bool.exists_bool, show picMasterData ≠ picMasterCmd by decide,
      show picMasterData ≠ picSlaveCmd by decide] using noStranded_writeData hw h _
  · subst h3
    rw [noStranded_writeCmd_iff hw h]
    simp [show picSlaveCmd ≠ picMasterCmd by decide]
  · subst h4
    simpa [Bool.exists_bool, show picSlaveData ≠ picMasterCmd by decide,
      show picSlaveData ≠ picSlaveCmd by decide] using noStranded_writeData hw h _
  · simpa [Bool.exists_bool, h1, h3] using h

theorem access_read (s : BxPicC) (port : BitVec 16) (ioLen : Nat) :
    ∃ m, s.Access m none (s.read port ioLen).1 := by
  have hpoll (m : Bool) : s.Access m none (s.pollRead m) := .serviced fun c => inside_clearHighest c
  rw [read]
  split_ifs
  · exact ⟨_, hpoll true⟩
  · exact ⟨_, hpoll false⟩
  all_goals exact ⟨true, .still⟩

theorem access_setMode (s : BxPicC) (m : Bool) (mode : BitVec 8) :
    s.Access m none (s.setMode m mode) :=
  .stored (fun _ => rfl) fun _ hc => hc.shrink (fun _ => id) rfl rfl rfl rfl

/-! ## INTA cycles -/

/-- An INTA cycle services both chips, except when it ends with the slave's spurious vector. -/
theorem noStranded_iac_iff (hw : s.Wired) (h : s.NoStranded) :
    s.iac.1.NoStranded ↔ ¬ s.Strands .inta := by
  have hmaster : s.deassert.master.unmaskedRequests = s.master.unmaskedRequests := rfl
  have hslave : s.deassert.cascade.slave.unmaskedRequests = s.slave.unmaskedRequests := rfl
  have hirq : s.deassert.master.irq = s.master.irq := rfl
  simp only [iac, Strands, hmaster, hslave, hirq]
  by_cases hspurious : s.master.unmaskedRequests = 0#8
  · simp only [hspurious, if_true, ne_eq, not_true_eq_false, false_and, not_false_eq_true, iff_true]
    exact ⟨served_of_no_request hspurious, h.slave, h.cascade⟩
  by_cases hline : s.master.irq = 2
  · by_cases hnone : s.slave.unmaskedRequests = 0#8
    · -- the slave has withdrawn its request: the cycle returns with the master not serviced
      simp only [hspurious, hline, hnone, if_true, if_false, ne_eq, not_true_eq_false,
        not_false_eq_true, true_and]
      have hack : s.deassert.master.acknowledge = { s.master.acknowledge with intPin := false } := by
        simp only [acknowledge, deassert]
        grind
      have heligible (line : Fin 8) : s.deassert.cascade.master.Eligible line ↔
          s.master.acknowledge.Eligible line := by
        unfold cascade
        rw [hack]
        exact Iff.rfl
      refine ⟨fun hafter => ?_, fun hserved => ⟨?_, ?_, ?_⟩⟩
      · rintro ⟨line, hline⟩
        have hpin := hafter.master ⟨line, (heligible line).mpr hline⟩
        have hcascade : s.deassert.cascade.master.intPin = false := by
          unfold cascade
          rw [hack]
        exact absurd hpin (Bool.eq_false_iff.mp hcascade)
      · rintro ⟨line, hline⟩
        exact absurd ⟨line, (heligible line).mp hline⟩ hserved
      · exact served_of_no_request hnone
      · exact fun hp => absurd hp Bool.false_ne_true
    · simp only [hspurious, hline, hnone, if_false, ne_eq, not_true_eq_false, false_and, and_false,
        not_false_eq_true, iff_true]
      obtain ⟨hserved, hcas⟩ := serviceSlave_slave
        (s := { s.deassert.cascade with slave := s.deassert.cascade.slave.acknowledge })
        (by rw [acknowledge_eq]; exact hw.slave)
        (fun hp => by rw [acknowledge_eq] at hp; exact absurd hp Bool.false_ne_true)
      exact noStranded_serviceMaster hserved hcas
  · simp only [hspurious, hline, if_true, if_false, ne_eq, not_false_eq_true, false_and, and_false,
      iff_true]
    refine noStranded_serviceMaster h.slave fun hp => ?_
    have hkeep := hasBit_acknowledge (c := s.deassert.master) (Ne.symm hline)
    rw [hkeep]
    exact h.cascade hp

/-! ## Between line changes -/

/-- A change of the pair that drives no input and makes no request, the cascade line apart. -/
structure Keeps (s s' : BxPicC) : Prop where
  master : s.master.Quiet (· ≠ 2) s'.master
  slave : s.slave.Quiet (fun _ => True) s'.slave

theorem Keeps.refl (s : BxPicC) : Keeps s s := ⟨.refl _, .refl _⟩

theorem Keeps.trans {s'' : BxPicC} (h : Keeps s s') (h' : Keeps s' s'') : Keeps s s'' :=
  ⟨h.master.trans h'.master, h.slave.trans h'.slave⟩

theorem Keeps.wired (h : Keeps s s') (hs : s.Wired) : s'.Wired :=
  ⟨h.master.place.trans hs.master, h.slave.place.trans hs.slave⟩

theorem keeps_serviceMaster (s : BxPicC) : Keeps s s.serviceMaster := ⟨quiet_service _, .refl _⟩

/-- The cascade line is the one that servicing may drive. -/
theorem keeps_setCascadeLine (s : BxPicC) (level : Bool) : Keeps s (s.setCascadeLine level) := by
  cases level with
  | true =>
    have hin : Keeps s { s with master.irqIn := update s.master.irqIn 2 true } :=
      ⟨⟨rfl, fun i hi => update_of_ne hi .., fun _ _ => id⟩, .refl _⟩
    rw [setCascadeLine, if_pos rfl, raiseMaster]
    split
    · exact hin
    · refine hin.trans (Keeps.trans ?_ (keeps_serviceMaster _))
      exact ⟨⟨rfl, fun _ _ => rfl, fun i hi h => by simpa [hi] using h⟩, .refl _⟩
  | false =>
    rw [setCascadeLine, if_neg Bool.false_ne_true, lowerMaster]
    split
    · refine ⟨⟨rfl, fun i hi => update_of_ne hi .., fun i hi h => ?_⟩, .refl _⟩
      simpa [hi] using h
    · exact .refl s

theorem keeps_serviceSlave (s : BxPicC) : Keeps s s.serviceSlave := by
  have hslave : Keeps s { s with slave := s.slave.service.1 } := ⟨.refl _, quiet_service _⟩
  rcases hserve : s.slave.service with ⟨slave, action⟩
  rw [hserve] at hslave
  rw [serviceSlave, hserve]
  cases action with
  | raiseCascade => exact hslave.trans (keeps_setCascadeLine _ true)
  | lowerCascade => exact hslave.trans (keeps_setCascadeLine _ false)
  | none | raiseIntr | clearIntr => exact hslave

theorem keeps_dispatch (s : BxPicC) (m : Bool) : Keeps s (s.servicePicDispatch m) := by
  cases m
  · exact keeps_serviceSlave s
  · exact keeps_serviceMaster s

theorem keeps_modify (hf : ∀ lines c, Quiet lines c (f c)) : Keeps s (s.modify m f) := by
  cases m
  · exact ⟨.refl _, hf _ _⟩
  · exact ⟨hf _ _, .refl _⟩

theorem Inside.keeps (hf : Inside f) : Keeps s (s.modify m f) := by
  refine keeps_modify fun lines c => ?_
  obtain ⟨hirr, -, hin, -, -, hplace⟩ := hf.spec c
  exact ⟨hplace, fun i _ => congrFun hin i, fun i _ hi => hirr ▸ hi⟩

theorem Access.keeps (ha : s.Access m lowest s') : Keeps s s' := by
  cases ha with
  | still => exact .refl s
  | serviced hf => exact hf.keeps.trans (keeps_dispatch _ m)
  | stored hf _ => exact hf.keeps
  | rotated lowest => exact Inside.keeps fun _ => rfl

theorem keeps_writeCmd (s : BxPicC) (value : BitVec 8) : Keeps s (s.writeCmd value m) := by
  by_cases hicw : value &&& 0x10#8 ≠ 0#8
  · rw [writeCmd, if_pos hicw]
    split
    · exact ⟨quiet_writeIcw1 _ value, .refl _⟩
    · exact ⟨⟨rfl, fun i hi => update_of_ne hi .., fun _ _ => id⟩, quiet_writeIcw1 _ value⟩
  · exact (access_writeCmd hicw).keeps

theorem keeps_writeData (s : BxPicC) (value : BitVec 8) : Keeps s (s.writeData value m) := by
  by_cases hinit : (s.pic m).init.inInit = true
  · exact (access_writeData hinit).keeps
  · rw [writeData, if_neg hinit]
    refine Keeps.trans ?_ (keeps_dispatch _ m)
    exact keeps_modify fun _ _ => ⟨rfl, fun _ _ => rfl, fun _ _ => id⟩

theorem keeps_write (s : BxPicC) (port : BitVec 16) (value : BitVec 32) :
    Keeps s (s.write port value) := by
  rw [write]
  split_ifs
  · exact keeps_writeCmd s _
  · exact keeps_writeData s _
  · exact keeps_writeCmd s _
  · exact keeps_writeData s _
  · exact .refl s

/-- An INTA cycle drops requests; the input it lowers is the cascade's. -/
theorem keeps_iac (s : BxPicC) : Keeps s s.iac.1 := by
  have hdeassert : Keeps s s.deassert := ⟨⟨rfl, fun _ _ => rfl, fun _ _ => id⟩, .refl _⟩
  have hmaster : Keeps s.deassert { s.deassert with master := s.deassert.master.acknowledge } :=
    ⟨quiet_acknowledge _, .refl _⟩
  have hcascade : Keeps { s.deassert with master := s.deassert.master.acknowledge }
      s.deassert.cascade := by
    refine ⟨⟨rfl, fun i hi => ?_, fun _ _ => id⟩, ⟨rfl, fun _ _ => rfl, fun _ _ => id⟩⟩
    rw [acknowledge_eq]
    exact update_of_ne hi ..
  have hslave : Keeps s.deassert.cascade
      { s.deassert.cascade with slave := s.deassert.cascade.slave.acknowledge } :=
    ⟨.refl _, quiet_acknowledge _⟩
  have hasked := hdeassert.trans (hmaster.trans hcascade)
  simp only [iac]
  split_ifs
  · exact hdeassert
  · exact (hdeassert.trans hmaster).trans (keeps_serviceMaster _)
  · exact hasked
  · exact (hasked.trans hslave).trans ((keeps_serviceSlave _).trans (keeps_serviceMaster _))

/-! ## Runs -/

theorem wired_step (h : s.Wired) (op : PicOp) : (s.step op).Wired := by
  cases op with
  | raiseIrq irqNo =>
    simp only [step, raiseIrq, raiseMaster, raiseSlave]
    split_ifs
    · exact ⟨h.master, h.slave⟩
    iterate 2 exact (keeps_serviceMaster _).wired ⟨h.master, h.slave⟩
    · exact ⟨h.master, h.slave⟩
    · exact (keeps_serviceSlave _).wired ⟨h.master, h.slave⟩
    · exact h
  | lowerIrq irqNo =>
    simp only [step, lowerIrq, lowerMaster, lowerSlave]
    split_ifs
    all_goals exact ⟨h.master, h.slave⟩
  | write port value => exact (keeps_write s port value).wired h
  | read port ioLen =>
    obtain ⟨m, ha⟩ := s.access_read port ioLen
    exact ha.keeps.wired h
  | inta => exact (keeps_iac s).wired h
  | setMode isMaster mode => exact (s.access_setMode isMaster mode).keeps.wired h
  | reset => exact ⟨rfl, rfl⟩

theorem noStranded_new : new.NoStranded where
  master := served_of_no_request (by decide)
  slave := served_of_no_request (by decide)
  cascade hp := absurd hp (by decide)

/-- One step of a pair in order strands a request exactly when it is one of `Strands`. -/
theorem noStranded_step_iff (hw : s.Wired) (h : s.NoStranded) (op : PicOp) :
    (s.step op).NoStranded ↔ ¬ s.Strands op := by
  cases op with
  | raiseIrq irqNo =>
    simp only [Strands, not_false_eq_true, iff_true, step, raiseIrq]
    split_ifs
    · exact noStranded_raiseMaster h
    · exact noStranded_raiseSlave hw h
    · exact h
  | lowerIrq irqNo =>
    simp only [Strands, step, lowerIrq]
    split_ifs with h8 h16
    · have hline : Fin.ofNat 8 irqNo = 2 ↔ irqNo = 2 := by
        rw [Fin.ext_iff, Fin.val_ofNat, Nat.mod_eq_of_lt h8]
        rfl
      rw [noStranded_lowerMaster_iff h, hline]
    · have hne : irqNo ≠ 2 := by omega
      simpa [hne] using noStranded_lowerSlave h
    · have hne : irqNo ≠ 2 := by omega
      simpa [hne] using h
  | write port value => exact noStranded_write_iff hw h port value
  | read port ioLen =>
    obtain ⟨m, ha⟩ := s.access_read port ioLen
    simpa [Strands, step] using ha.noStranded_iff hw h
  | inta => exact noStranded_iac_iff hw h
  | setMode isMaster mode =>
    simpa [Strands, step] using (s.access_setMode isMaster mode).noStranded_iff hw h
  | reset =>
    simp only [Strands, not_false_eq_true, iff_true]
    exact ⟨noStranded_new.master, noStranded_new.slave, noStranded_new.cascade⟩

/-- No request is ever without INT in a run from power-on exactly when no step of the run
strands one. -/
theorem no_request_stranded_iff (ops : List PicOp) :
    (∀ s ∈ ops.scanl step new, s.NoStranded) ↔
      StepsMeet step (fun s op => ¬ s.Strands op) new ops :=
  forall_scanl_iff_stepsMeet_of_inv (I := Wired) (fun _ op h _ => wired_step h op)
    (fun _ op hw h => noStranded_step_iff hw h op) ⟨rfl, rfl⟩ noStranded_new ops

/-- Line 1 is in service and line 3 waits; the guest then makes line 2 the lowest priority
and line 3 the highest. -/
def rotateOps : List PicOp :=
  [.write picMasterData 0x00, .raiseIrq 1, .inta, .raiseIrq 3, .write picMasterCmd 0xC2]

/-- The request of line 3 may now be signalled, but INT stays down. -/
theorem set_priority_strands_request :
    (new.run rotateOps).master.Eligible 3 ∧ (new.run rotateOps).master.intPin = false ∧
      ¬ (new.run rotateOps).NoStranded := by
  have heligible : (new.run rotateOps).master.Eligible 3 := by decide +kernel
  have hpin : (new.run rotateOps).master.intPin = false := by decide +kernel
  exact ⟨heligible, hpin, fun h => Bool.eq_false_iff.mp hpin (h.master ⟨3, heligible⟩)⟩

end BxPicC

end RustyBox
