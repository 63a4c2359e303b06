-- SUMMARY: The interrupt fabric: the 8259 pair and the I/O APIC see one level on every ISA line.
import RustyBox.Irq.PicStranded
import RustyBox.Irq.IoApic

/-!
# The interrupt fabric

`IrqFabric` owns the 8259 pair and the I/O APIC and drives a line change through both. The
8259 reports only some changes: a raise when the request was not pending, a lower when the
input was high. That is enough because a pending request implies a high input (`Raised`),
which acknowledges and initialisation commands keep since they only drop requests.

The INTA counters and the copy of the boot processor's LINT0 entry serve diagnostics and
backends that own the Local APICs; they are left out.
-/

namespace RustyBox

open Lib Function Pic8259State Positions

structure IrqFabric where
  pic : BxPicC
  ioapic : BxIoApic

namespace IrqFabric

def new : IrqFabric := ⟨.new, .new⟩

variable (f : IrqFabric)

def serviceIoapic : IrqFabric :=
  let (ioapic, pic) := BxIoApic.service BxPicC.iac (f.ioapic, f.pic)
  ⟨pic, ioapic⟩

/-- Carry out what a change of the I/O APIC asks for. -/
def serviced : BxIoApic × ServiceRequest → IrqFabric
  | (ioapic, .needed) => { f with ioapic }.serviceIoapic
  | (ioapic, .notNeeded) => { f with ioapic }

/-- `set_ioapic_pin`. -/
def setIoapicPin (pin : Nat) (level : Bool) : IrqFabric :=
  f.serviced (f.ioapic.setPinLevel pin level)

def setIsaLevel (line : Nat) (level : Bool) : IrqFabric :=
  match f.pic.setIrqLevel line level with
  | (pic, .notCrossed) => { f with pic }
  | (pic, .crossed) => { f with pic }.setIoapicPin line level

def mmioWrite (addr len : Nat) (data : List UInt8) : IrqFabric :=
  f.serviced (f.ioapic.memWrite addr len data)

/-- The CPU's INTA cycle. -/
def acknowledge : IrqFabric × BitVec 8 := ({ f with pic := f.pic.iac.1 }, f.pic.iac.2)

def resampleOnEoi (vector : BitVec 8) : IrqFabric :=
  if f.ioapic.hasAssertedLevelEntry vector then f.serviceIoapic else f

end IrqFabric

/-- What devices, the guest, the CPU and the machine do to the fabric. -/
inductive FabricOp where
  | setIsaLevel (line : Nat) (level : Bool)
  | picWrite (port : BitVec 16) (value : BitVec 32)
  | picRead (port : BitVec 16) (ioLen : Nat)
  | setMode (isMaster : Bool) (mode : BitVec 8)
  | acknowledge
  | mmioWrite (addr len : Nat) (data : List UInt8)
  | setIoapicPin (pin : Nat) (level : Bool)
  | takePendingDeliveries
  | completeDeferredDelivery (delivery : PendingIoApicDelivery) (done : Bool)
  | resampleOnEoi (vector : BitVec 8)

namespace IrqFabric

def step (f : IrqFabric) : FabricOp → IrqFabric
  | .setIsaLevel line level => f.setIsaLevel line level
  | .picWrite port value => { f with pic := f.pic.write port value }
  | .picRead port ioLen => { f with pic := (f.pic.read port ioLen).1 }
  | .setMode isMaster mode => { f with pic := f.pic.setMode isMaster mode }
  | .acknowledge => f.acknowledge.1
  | .mmioWrite addr len data => f.mmioWrite addr len data
  | .setIoapicPin pin level => f.setIoapicPin pin level
  | .takePendingDeliveries => { f with ioapic := f.ioapic.takePendingDeliveries.1 }
  | .completeDeferredDelivery delivery done =>
    { f with ioapic := f.ioapic.completeDeferredDelivery delivery done }
  | .resampleOnEoi vector => f.resampleOnEoi vector

def run (f : IrqFabric) (ops : List FabricOp) : IrqFabric := ops.foldl step f

end IrqFabric

namespace BxPicC

variable {s s' s'' : BxPicC} {line : Fin 8}

/-! ## Line changes of the 8259 pair -/

/-- A pending request implies a high input, the cascade line apart. -/
structure Raised (s : BxPicC) : Prop where
  master : ∀ i ≠ 2, hasBit s.master.irr i → s.master.irqIn i
  slave : ∀ i, hasBit s.slave.irr i → s.slave.irqIn i

theorem Keeps.raised (h : Keeps s s') (hs : s.Raised) : s'.Raised where
  master i hi hirr := by
    rw [h.master.irqIn i hi]
    exact hs.master i hi (h.master.irr i hi hirr)
  slave i hirr := by
    rw [h.slave.irqIn i trivial]
    exact hs.slave i (h.slave.irr i trivial hirr)

theorem ofNat_eight_ne {i j : Nat} (hi : i < 8) (hj : j < 8) (h : i ≠ j) :
    Fin.ofNat 8 i ≠ Fin.ofNat 8 j := by
  rw [ne_eq, Fin.ext_iff, Fin.val_ofNat, Fin.val_ofNat, Nat.mod_eq_of_lt hi, Nat.mod_eq_of_lt hj]
  exact h

theorem Keeps.irqLineLevel (h : Keeps s s') {i : Nat} (hi : i ≠ 2) :
    s'.irqLineLevel i = s.irqLineLevel i := by
  rw [BxPicC.irqLineLevel, BxPicC.irqLineLevel]
  split_ifs with h8 h16
  · exact h.master.irqIn _ (ofNat_eight_ne h8 (by decide) hi)
  · exact h.slave.irqIn _ trivial
  · rfl

/-- The line is at the level, every other line but the cascade is where it was, and pending
requests still imply high inputs. -/
structure Drives (s s' : BxPicC) (line : Nat) (level : Bool) : Prop where
  raised : s'.Raised
  levels : ∀ i < 16, i ≠ 2 → s'.irqLineLevel i = if i = line then level else s.irqLineLevel i

variable {level : Bool} {irr : BitVec 8}

theorem Drives.keeps {line : Nat} (h : Drives s s' line level)
    (h' : Keeps s' s'') : Drives s s'' line level where
  raised := h'.raised h.raised
  levels i hi hne := (h'.irqLineLevel hne).trans (h.levels i hi hne)

theorem irqLineLevel_updateMaster {line i : Nat} (hline : line < 8) :
    { s with
      master.irqIn := update s.master.irqIn (Fin.ofNat 8 line) level
      master.irr := irr : BxPicC }.irqLineLevel i = if i = line then level else s.irqLineLevel i := by
  rw [irqLineLevel, irqLineLevel]
  by_cases hi : i = line
  · subst hi
    rw [if_pos hline, if_pos rfl]
    exact update_self ..
  · rw [if_neg hi]
    by_cases h8 : i < 8
    · rw [if_pos h8, if_pos h8]
      exact update_of_ne (ofNat_eight_ne h8 hline hi) ..
    · rw [if_neg h8, if_neg h8]

theorem irqLineLevel_updateSlave {line i : Nat} (h8 : ¬ line < 8) (h16 : line < 16) :
    { s with
      slave.irqIn := update s.slave.irqIn (Fin.ofNat 8 (line - 8)) level
      slave.irr := irr : BxPicC }.irqLineLevel i = if i = line then level else s.irqLineLevel i := by
  rw [irqLineLevel, irqLineLevel]
  by_cases hi : i = line
  · subst hi
    rw [if_neg h8, if_pos h16, if_pos rfl]
    exact update_self ..
  · rw [if_neg hi]
    by_cases hlow : i < 8
    · rw [if_pos hlow, if_pos hlow]
    · rw [if_neg hlow, if_neg hlow]
      by_cases hhigh : i < 16
      · rw [if_pos hhigh, if_pos hhigh]
        exact update_of_ne (ofNat_eight_ne (by omega) (by omega) (by omega)) ..
      · rw [if_neg hhigh, if_neg hhigh]

/-- Raising an input for which a request is made, or was pending. -/
theorem Raised.raise_master (h : s.Raised)
    (hirr : ∀ i, hasBit irr i → i = line ∨ hasBit s.master.irr i) :
    { s with
      master.irqIn := update s.master.irqIn line true
      master.irr := irr : BxPicC }.Raised where
  slave := h.slave
  master i hi hbit := by
    by_cases hline : i = line
    · rw [hline]
      exact update_self ..
    · exact (congrArg (· = true) (update_of_ne hline ..)).mpr
        (h.master i hi ((hirr i hbit).resolve_left hline))

theorem Raised.raise_slave (h : s.Raised)
    (hirr : ∀ i, hasBit irr i → i = line ∨ hasBit s.slave.irr i) :
    { s with
      slave.irqIn := update s.slave.irqIn line true
      slave.irr := irr : BxPicC }.Raised where
  master := h.master
  slave i hbit := by
    by_cases hline : i = line
    · rw [hline]
      exact update_self ..
    · exact (congrArg (· = true) (update_of_ne hline ..)).mpr
        (h.slave i ((hirr i hbit).resolve_left hline))

theorem drives_raiseIrq (h : s.Raised) (irqNo : Nat) :
    Drives s (s.raiseIrq irqNo).1 irqNo true := by
  have hset {r : BitVec 8} {line i : Fin 8} (hbit : hasBit (setBit r line) i) :
      i = line ∨ hasBit r i := by
    simpa [or_comm] using hbit
  rw [raiseIrq]
  split_ifs with h8 h16
  · rw [raiseMaster]
    split
    · exact ⟨h.raise_master fun i => .inr, fun i _ _ => irqLineLevel_updateMaster h8⟩
    · exact Drives.keeps ⟨h.raise_master fun i => hset,
        fun i _ _ => irqLineLevel_updateMaster h8⟩ (keeps_serviceMaster _)
  · rw [raiseSlave]
    split
    · exact ⟨h.raise_slave fun i => .inr, fun i _ _ => irqLineLevel_updateSlave h8 h16⟩
    · exact Drives.keeps ⟨h.raise_slave fun i => hset,
        fun i _ _ => irqLineLevel_updateSlave h8 h16⟩ (keeps_serviceSlave _)
  · refine ⟨h, fun i hi _ => ?_⟩
    rw [if_neg (by omega)]

theorem drives_lowerIrq (h : s.Raised) (irqNo : Nat) :
    Drives s (s.lowerIrq irqNo).1 irqNo false := by
  have hclear {r : BitVec 8} {line i : Fin 8} (hbit : hasBit (clearBit r line) i) :
      hasBit r i ∧ i ≠ line := by
    simpa using hbit
  rw [lowerIrq]
  split_ifs with h8 h16
  · rw [lowerMaster]
    split
    · refine ⟨⟨fun i hi hbit => ?_, h.slave⟩, fun i _ _ => irqLineLevel_updateMaster h8⟩
      exact (congrArg (· = true) (update_of_ne (hclear hbit).2 ..)).mpr
        (h.master i hi (hclear hbit).1)
    · rename_i hlow
      refine ⟨h, fun i _ _ => ?_⟩
      by_cases hi : i = irqNo
      · subst hi
        rw [if_pos rfl, irqLineLevel, if_pos h8]
        exact Bool.eq_false_iff.mpr hlow
      · rw [if_neg hi]
  · rw [lowerSlave]
    split
    · refine ⟨⟨h.master, fun i hbit => ?_⟩, fun i _ _ => irqLineLevel_updateSlave h8 h16⟩
      exact (congrArg (· = true) (update_of_ne (hclear hbit).2 ..)).mpr
        (h.slave i (hclear hbit).1)
    · rename_i hlow
      refine ⟨h, fun i _ _ => ?_⟩
      by_cases hi : i = irqNo
      · subst hi
        rw [if_pos rfl, irqLineLevel, if_neg h8, if_pos h16]
        exact Bool.eq_false_iff.mpr hlow
      · rw [if_neg hi]
  · refine ⟨h, fun i hi _ => ?_⟩
    rw [if_neg (by omega)]

theorem ofNat_eight_eq_two {i : Nat} (hi : i < 8) : Fin.ofNat 8 i = 2 ↔ i = 2 := by
  rw [Fin.ext_iff, Fin.val_ofNat, Nat.mod_eq_of_lt hi]
  rfl

/-- The pair reports edges on the ISA lines other than the cascade only. -/
theorem line_of_crossed {line : Nat}
    (hedge : (s.setIrqLevel line level).2 = .crossed) : line < 16 ∧ line ≠ 2 := by
  cases level with
  | true =>
    simp only [setIrqLevel, if_true, raiseIrq, raiseMaster] at hedge
    split_ifs at hedge with h8 hbit htwo h16
    · exact ⟨by omega, mt (ofNat_eight_eq_two h8).mpr htwo⟩
    · exact ⟨h16, by omega⟩
  | false =>
    simp only [setIrqLevel, Bool.false_eq_true, if_false, lowerIrq, lowerMaster] at hedge
    split_ifs at hedge with h8 hin htwo h16
    · exact ⟨by omega, mt (ofNat_eight_eq_two h8).mpr htwo⟩
    · exact ⟨h16, by omega⟩

/-- Where the pair reports no edge, the line was at the level already: a request is pending
only while the input is high. -/
theorem level_of_notCrossed (h : s.Raised) {line : Nat} (h16 : line < 16) (hne : line ≠ 2)
    (hedge : (s.setIrqLevel line level).2 = .notCrossed) : s.irqLineLevel line = level := by
  rw [irqLineLevel]
  cases level with
  | true =>
    simp only [setIrqLevel, if_true, raiseIrq, raiseMaster, raiseSlave] at hedge
    split_ifs at hedge with h8 hbit htwo hbit
    · rw [if_pos h8]
      exact h.master _ (mt (ofNat_eight_eq_two h8).mp hne) hbit
    · exact absurd ((ofNat_eight_eq_two h8).mp htwo) hne
    · rw [if_neg h8, if_pos h16]
      exact h.slave _ hbit
  | false =>
    simp only [setIrqLevel, Bool.false_eq_true, if_false, lowerIrq, lowerMaster, lowerSlave] at hedge
    split_ifs at hedge with h8 hin htwo hin
    · exact absurd ((ofNat_eight_eq_two h8).mp htwo) hne
    · rw [if_pos h8]
      exact Bool.eq_false_iff.mpr hin
    · rw [if_neg h8, if_pos h16]
      exact Bool.eq_false_iff.mpr hin

theorem drives_setIrqLevel (h : s.Raised) (line : Nat) (level : Bool) :
    Drives s (s.setIrqLevel line level).1 line level := by
  cases level
  · exact drives_lowerIrq h line
  · exact drives_raiseIrq h line

/-! ## Bursts on IRQ0 -/

theorem raised_new : new.Raised where
  master _ _ h := absurd h (by simp [new])
  slave _ h := absurd h (by simp [new])

theorem raised_step (h : s.Raised) (op : PicOp) : (s.step op).Raised := by
  cases op with
  | raiseIrq irqNo => exact (drives_raiseIrq h irqNo).raised
  | lowerIrq irqNo => exact (drives_lowerIrq h irqNo).raised
  | write port value => exact (keeps_write s port value).raised h
  | read port ioLen =>
    obtain ⟨m, ha⟩ := s.access_read port ioLen
    exact ha.keeps.raised h
  | inta => exact (keeps_iac s).raised h
  | setMode isMaster mode => exact (s.access_setMode isMaster mode).keeps.raised h
  | reset => exact ⟨raised_new.master, raised_new.slave⟩

theorem raised_run (h : s.Raised) (ops : List PicOp) : (s.run ops).Raised := by
  induction ops generalizing s with
  | nil => exact h
  | cons op ops ih => exact ih (raised_step h op)

/-- No request stays pending on a line that went low, the cascade apart. -/
theorem pending_line_high (ops : List PicOp) : (new.run ops).Raised := raised_run raised_new ops

end BxPicC

/-! ## The I/O APIC between pin changes -/

namespace BxIoApic

variable {s : BxIoApic} {π : Type} {acknowledge : π → π × BitVec 8}

theorem pinLevel_congr {s' : BxIoApic} (h : s'.intin = s.intin) (pin : Nat) :
    s'.pinLevel pin = s.pinLevel pin := by
  rw [pinLevel, pinLevel, h]

theorem deliver_intin (pin : Fin ioapicNumPins) (vector : BitVec 8) :
    (s.deliver pin vector).intin = s.intin := by
  simp only [deliver]
  split <;> rfl

/-- The scan moves no pin, and what it does to the 8259 pair is a sequence of acknowledges. -/
theorem service_moves {R : π → π → Prop} (hrefl : ∀ p, R p p)
    (htrans : ∀ p q r, R p q → R q r → R p r) (hack : ∀ p, R p (acknowledge p).1)
    (sp : BxIoApic × π) :
    (service acknowledge sp).1.intin = sp.1.intin ∧ R sp.2 (service acknowledge sp).2 := by
  refine service_rule (Q := fun sp' => sp'.1.intin = sp.1.intin ∧ R sp.2 sp'.2) ?_ ?_
    ⟨rfl, hrefl _⟩
  · rintro s p pin ⟨hintin, hkept⟩ - -
    exact ⟨(deliver_intin _ _).trans hintin, htrans _ _ _ hkept (hack p)⟩
  · rintro s p pin ⟨hintin, hkept⟩ - -
    exact ⟨(deliver_intin _ _).trans hintin, hkept⟩

/-- The pins after a level change. -/
theorem setPinLevel_intin {target : Fin ioapicNumPins} {intIn : Nat} {level : Bool}
    (htarget : (if intIn = 0 then 2 else intIn) = target.val)
    (hchange : level ≠ hasBit s.intin (pinBit target)) :
    (s.setPinLevel intIn level).1.intin =
      if level then setBit s.intin (pinBit target) else clearBit s.intin (pinBit target) := by
  simp only [setPinLevel, htarget, target.isLt, Fin.eta]
  split_ifs <;> rfl

/-- A pin change sets the pin, and no other. -/
theorem pinLevel_setPinLevel (s : BxIoApic) (intIn : Nat) (level : Bool) {pin : Nat}
    (hpin : pin < ioapicNumPins) :
    (s.setPinLevel intIn level).1.pinLevel pin =
      if pin = (if intIn = 0 then 2 else intIn) then level else s.pinLevel pin := by
  by_cases htarget : (if intIn = 0 then 2 else intIn) < ioapicNumPins
  · obtain ⟨target, htarget⟩ : ∃ target : Fin ioapicNumPins,
        (if intIn = 0 then 2 else intIn) = target.val := ⟨⟨_, htarget⟩, rfl⟩
    have hbit : pinBit ⟨pin, hpin⟩ = pinBit target ↔ pin = target.val := by
      simp [pinBit, Fin.ext_iff]
    by_cases hchange : level = hasBit s.intin (pinBit target)
    · have hsame : (s.setPinLevel intIn level).1 = s := by
        simp [setPinLevel, htarget, hchange]
      rw [hsame, htarget]
      by_cases h : pin = target.val
      · rw [if_pos h, pinLevel, dif_pos hpin, hbit.mpr h, hchange]
      · rw [if_neg h]
    · rw [pinLevel, dif_pos hpin, setPinLevel_intin htarget hchange, htarget, pinLevel, dif_pos hpin]
      cases level with
      | true => by_cases h : pin = target.val <;> simp [hbit, h]
      | false => by_cases h : pin = target.val <;> simp [hbit, h]
  · have hsame : (s.setPinLevel intIn level).1 = s := by
      simp [setPinLevel, htarget]
    rw [hsame, if_neg (by omega)]

theorem memWrite_intin (s : BxIoApic) (addr len : Nat) (data : List UInt8) :
    (s.memWrite addr len data).1.intin = s.intin := by
  rw [memWrite]
  split
  · rw [writeAligned]
    split_ifs
    · rfl
    · rfl
    · rfl
    · rfl
    · split <;> rfl
    · split <;> rfl
  · rfl

theorem completeDeferredDelivery_intin (s : BxIoApic) (delivery : PendingIoApicDelivery)
    (done : Bool) : (s.completeDeferredDelivery delivery done).intin = s.intin := by
  rw [completeDeferredDelivery]
  split_ifs <;> rfl

end BxIoApic

/-! ## Agreement -/

namespace IrqFabric

variable {f : IrqFabric}

/-- The two controllers see the same level on every ISA line but the cascade. -/
structure Agree (f : IrqFabric) : Prop where
  raised : f.pic.Raised
  levels : ∀ line < 16, line ≠ 2 →
    f.pic.irqLineLevel line = f.ioapic.pinLevel (if line = 0 then 2 else line)

/-- A change that moves neither inputs nor pins. -/
theorem Agree.keeps {f' : IrqFabric} (h : f.Agree) (hpic : BxPicC.Keeps f.pic f'.pic)
    (hioapic : f'.ioapic.intin = f.ioapic.intin) : f'.Agree where
  raised := hpic.raised h.raised
  levels line h16 hne := by
    rw [hpic.irqLineLevel hne, h.levels line h16 hne, BxIoApic.pinLevel_congr hioapic]

theorem agree_serviceIoapic (h : f.Agree) : f.serviceIoapic.Agree := by
  obtain ⟨hintin, hpic⟩ := BxIoApic.service_moves (R := BxPicC.Keeps) BxPicC.Keeps.refl
    (fun _ _ _ => BxPicC.Keeps.trans) BxPicC.keeps_iac (f.ioapic, f.pic)
  exact h.keeps hpic hintin

theorem agree_serviced {r : BxIoApic × ServiceRequest} (h : { f with ioapic := r.1 }.Agree) :
    (f.serviced r).Agree := by
  obtain ⟨ioapic, request⟩ := r
  cases request
  · exact agree_serviceIoapic h
  · exact h

/-- The pin follows the line in the same call. -/
theorem agree_setIsaLevel (h : f.Agree) (line : Nat) (level : Bool) :
    (f.setIsaLevel line level).Agree := by
  have hdrives := BxPicC.drives_setIrqLevel h.raised line level
  have hcrossed : (f.pic.setIrqLevel line level).2 = .crossed → line < 16 ∧ line ≠ 2 :=
    BxPicC.line_of_crossed
  have hstill : line < 16 → line ≠ 2 → (f.pic.setIrqLevel line level).2 = .notCrossed →
      f.pic.irqLineLevel line = level := BxPicC.level_of_notCrossed h.raised
  rcases hset : f.pic.setIrqLevel line level with ⟨pic, edge⟩
  rw [hset] at hdrives hcrossed hstill
  rw [setIsaLevel, hset]
  cases edge with
  | notCrossed =>
    refine ⟨hdrives.raised, fun i h16 hne => ?_⟩
    rw [hdrives.levels i h16 hne, ← h.levels i h16 hne]
    split_ifs with hi
    · subst hi
      exact (hstill h16 hne rfl).symm
    · rfl
  | crossed =>
    obtain ⟨hline16, hline⟩ := hcrossed rfl
    refine agree_serviced ⟨hdrives.raised, fun i h16 hne => ?_⟩
    have hpin : (if i = 0 then 2 else i) < ioapicNumPins := by
      rw [ioapicNumPins]
      split_ifs <;> omega
    -- distinct lines drive distinct pins: only the timer's line drives pin 2
    have hsame : (if i = 0 then 2 else i) = (if line = 0 then 2 else line) ↔ i = line := by
      split_ifs <;> omega
    rw [hdrives.levels i h16 hne, BxIoApic.pinLevel_setPinLevel _ _ _ hpin, h.levels i h16 hne]
    simp only [hsame]

theorem agree_step (h : f.Agree) {op : FabricOp} (hop : ∀ pin level, op ≠ .setIoapicPin pin level) :
    (f.step op).Agree := by
  cases op with
  | setIsaLevel line level => exact agree_setIsaLevel h line level
  | picWrite port value => exact h.keeps (BxPicC.keeps_write _ port value) rfl
  | picRead port ioLen =>
    obtain ⟨m, ha⟩ := f.pic.access_read port ioLen
    exact h.keeps ha.keeps rfl
  | setMode isMaster mode => exact h.keeps (f.pic.access_setMode isMaster mode).keeps rfl
  | acknowledge => exact h.keeps (BxPicC.keeps_iac _) rfl
  | mmioWrite addr len data =>
    exact agree_serviced (h.keeps (.refl _) (BxIoApic.memWrite_intin _ addr len data))
  | setIoapicPin pin level => exact absurd rfl (hop pin level)
  | takePendingDeliveries => exact h.keeps (.refl _) rfl
  | completeDeferredDelivery delivery done =>
    exact h.keeps (.refl _) (BxIoApic.completeDeferredDelivery_intin _ delivery done)
  | resampleOnEoi vector =>
    rw [step, resampleOnEoi]
    split
    · exact agree_serviceIoapic h
    · exact h

theorem agree_run {ops : List FabricOp} (h : f.Agree)
    (hops : ∀ op ∈ ops, ∀ pin level, op ≠ .setIoapicPin pin level) : (f.run ops).Agree := by
  induction ops generalizing f with
  | nil => exact h
  | cons op ops ih =>
    exact ih (agree_step h (hops op List.mem_cons_self))
      fun op hop => hops op (List.mem_cons_of_mem _ hop)

theorem agree_new : new.Agree where
  raised := BxPicC.raised_new
  levels line _ _ := by
    have hpic : new.pic.irqLineLevel line = false := by
      rw [BxPicC.irqLineLevel]
      split_ifs <;> rfl
    have hioapic (pin : Nat) : new.ioapic.pinLevel pin = false := by
      rw [BxIoApic.pinLevel]
      split
      · exact hasBit_zero
      · rfl
    rw [hpic, hioapic]

/-- From a fresh fabric, whatever happens to it short of driving a pin directly, every ISA
line but the cascade has one level: what the 8259 pair has at its input is what the I/O APIC
has at its pin. -/
theorem controllers_agree (ops : List FabricOp)
    (hops : ∀ op ∈ ops, ∀ pin level, op ≠ .setIoapicPin pin level) (line : Nat) (h16 : line < 16)
    (hline : line ≠ 2) :
    (new.run ops).pic.irqLineLevel line =
      (new.run ops).ioapic.pinLevel (if line = 0 then 2 else line) :=
  (agree_run agree_new hops).levels line h16 hline

/-- The keyboard's line is raised and acknowledged: its request is gone, both controllers
still see it high. -/
theorem acknowledged_line_agrees :
    (new.run [.picWrite BxPicC.picMasterData 0x00, .setIsaLevel 1 true, .acknowledge]).pic.irqLineLevel
        1 =
      (new.run [.picWrite BxPicC.picMasterData 0x00, .setIsaLevel 1 true,
        .acknowledge]).ioapic.pinLevel 1 :=
  controllers_agree [.picWrite BxPicC.picMasterData 0x00, .setIsaLevel 1 true, .acknowledge]
    (by simp) 1 (by decide) (by decide)

end IrqFabric

end RustyBox
