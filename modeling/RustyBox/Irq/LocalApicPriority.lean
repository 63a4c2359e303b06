-- SUMMARY: Which interrupt the local APIC raises and takes: what an acknowledge returns, and that no request is stranded.
import RustyBox.Irq.LocalApic
import RustyBox.Lib.Reachability

/-!
# Priorities of the local APIC

With all IER bits set, a register is the set of its vectors and `highestPriorityInt` is its
maximum. Raising compares the highest request with the highest vector in service, and its class
with the class of the TPR; taking compares classes only. The two agree unless the highest request
shares its class with a vector in service, and then what was raised is answered with the spurious
vector. No request is stranded all the same: a request above the TPR and above everything in
service by its class has the interrupt line asserted in every reachable state.
-/

namespace RustyBox

open Lib BitVec ApicVectors

/-! ## Registers as sets -/

section

variable {reg : VectorBits} {u v : BitVec 8}

theorem vectorIndex_inj : vectorIndex u = vectorIndex v ↔ u = v :=
  ⟨fun h => eq_of_toFin_eq h, fun h => h ▸ rfl⟩

@[simp] theorem getVector_setVector :
    getVector (setVector reg v) u = (getVector reg u || decide (u = v)) := by
  simp only [getVector, setVector, WordSet.mem_insert, vectorIndex_inj]

@[simp] theorem getVector_clearVector :
    getVector (clearVector reg v) u = (getVector reg u && !decide (u = v)) := by
  simp only [getVector, clearVector, WordSet.mem_erase, vectorIndex_inj]

@[simp] theorem getVector_zero : getVector (fun _ => 0#32) v = false := hasBit_zero

/-- The highest vector of a register. -/
def Highest (reg : VectorBits) (v : BitVec 8) : Prop :=
  getVector reg v ∧ ∀ u, getVector reg u → u ≤ v

theorem Highest.unique (hu : Highest reg u) (hv : Highest reg v) : u = v :=
  BitVec.le_antisymm (hv.2 u hu.1) (hu.2 v hv.1)

/-- The sixteen vectors that share their upper half. -/
def priorityClass (v : BitVec 8) : Nat := v.toNat / 16

theorem priorityClass_mono (h : u ≤ v) : priorityClass u ≤ priorityClass v := Nat.div_le_div_right h

/-- The upper half of a byte, in place. -/
theorem toNat_and_upper {w : Nat} (x : BitVec w) (hw : 8 ≤ w) :
    (x &&& 0xF0#w).toNat = x.toNat / 16 % 16 * 16 := by
  have hmask : (0xF0#w).toNat = 15 <<< 4 := by
    exact Nat.mod_eq_of_lt (Nat.lt_of_lt_of_le (by decide) (Nat.pow_le_pow_right (by decide) hw))
  have hfield : x.toNat / 16 % 16 * 16 = (x.toNat >>> 4 &&& 15) <<< 4 := by
    rw [Nat.shiftLeft_eq, Nat.shiftRight_eq_div_pow, Nat.and_two_pow_sub_one_eq_mod _ 4]
  rw [BitVec.toNat_and, hmask, hfield]
  refine Nat.eq_of_testBit_eq fun i => ?_
  rw [Nat.testBit_and, Nat.testBit_shiftLeft]
  by_cases hi : 4 ≤ i <;> simp [hi]

end

namespace ApicVectors

variable {p : ApicVectors} {reg : VectorBits} {u v : BitVec 8}

def AllEnabled (p : ApicVectors) : Prop := ∀ i, p.ier i = 0xFFFFFFFF#32

instance (p : ApicVectors) : Decidable p.AllEnabled := inferInstanceAs (Decidable (∀ _ : Fin 8, _ = _))

def tprClass (p : ApicVectors) : Nat := p.taskPriority.toNat / 16 % 16

theorem masked_eq (h : p.AllEnabled) (reg : VectorBits) : (fun i => reg i &&& p.ier i) = reg := by
  funext i
  rw [h i]
  exact and_allOnes

theorem highestPriorityInt_eq_some (h : p.AllEnabled) :
    p.highestPriorityInt reg = some v ↔ Highest reg v := by
  rw [highestPriorityInt, masked_eq h, Option.map_eq_some_iff]
  constructor
  · rintro ⟨i, hi, rfl⟩
    obtain ⟨hmem, hmax⟩ := WordSet.highest_eq_some.mp hi
    exact ⟨hmem, fun u hu => hmax _ hu⟩
  · intro hv
    refine ⟨vectorIndex v, WordSet.highest_eq_some.mpr ⟨hv.1, fun j hj => ?_⟩, rfl⟩
    exact hv.2 (ofFin j) hj

theorem highestPriorityInt_eq_none (h : p.AllEnabled) :
    p.highestPriorityInt reg = none ↔ ∀ u, getVector reg u = false := by
  rw [highestPriorityInt, masked_eq h, Option.map_eq_none_iff, WordSet.highest_eq_none]
  exact ⟨fun hnone u => hnone (vectorIndex u), fun hnone j => hnone (ofFin j)⟩

theorem exists_highest (h : p.AllEnabled) (hu : getVector reg u) : ∃ v, Highest reg v ∧ u ≤ v := by
  cases hv : p.highestPriorityInt reg with
  | none => exact absurd hu (Bool.eq_false_iff.mp ((highestPriorityInt_eq_none h).mp hv u))
  | some v =>
    have hv := (highestPriorityInt_eq_some h).mp hv
    exact ⟨v, hv, hv.2 u hu⟩

/-! ## What is compared -/

theorem class_le_tpr_iff :
    v.setWidth 32 &&& 0xF0#32 ≤ p.taskPriority &&& 0xF0#32 ↔ priorityClass v ≤ p.tprClass := by
  rw [le_def, toNat_and_upper _ (by decide), toNat_and_upper _ (by decide),
    toNat_setWidth, priorityClass, tprClass]
  omega

theorem class_le_iff : v &&& 0xF0#8 ≤ u &&& 0xF0#8 ↔ priorityClass v ≤ priorityClass u := by
  rw [le_def, toNat_and_upper _ (by decide), toNat_and_upper _ (by decide), priorityClass,
    priorityClass]
  omega

theorem class_le_tpr_byte_iff :
    v &&& 0xF0#8 ≤ p.taskPriority.setWidth 8 ↔ priorityClass v ≤ p.tprClass := by
  rw [le_def, toNat_and_upper _ (by decide), toNat_setWidth, priorityClass, tprClass]
  omega

/-- Above the TPR and above everything in service, by class. -/
def Above (p : ApicVectors) (v : BitVec 8) : Prop :=
  p.tprClass < priorityClass v ∧ ∀ u, getVector p.isr u → priorityClass u < priorityClass v

/-- What the processor priority lets through. -/
theorem ppr_lt_iff (h : p.AllEnabled) : ¬ v &&& 0xF0#8 ≤ p.getPpr ↔ p.Above v := by
  rw [getPpr, Above]
  cases hisr : p.highestPriorityInt p.isr with
  | none =>
    have hempty := (highestPriorityInt_eq_none h).mp hisr
    simp only [class_le_tpr_byte_iff, not_le, hempty, Bool.false_eq_true, false_implies,
      implies_true, and_true]
  | some first =>
    obtain ⟨hfirst, hmax⟩ := (highestPriorityInt_eq_some h).mp hisr
    have hall : (∀ u, getVector p.isr u → priorityClass u < priorityClass v) ↔
        priorityClass first < priorityClass v :=
      ⟨fun hall => hall first hfirst,
        fun hlt u hu => Nat.lt_of_le_of_lt (priorityClass_mono (hmax u hu)) hlt⟩
    simp only [class_le_tpr_iff, hall]
    split_ifs with htpr
    · rw [class_le_tpr_byte_iff]
      omega
    · rw [class_le_iff]
      omega

/-! ## Servicing -/

@[simp] theorem serviceLocalApic_frame (p : ApicVectors) : p.serviceLocalApic.isr = p.isr ∧
    p.serviceLocalApic.irr = p.irr ∧ p.serviceLocalApic.tmr = p.tmr ∧
      p.serviceLocalApic.ier = p.ier ∧ p.serviceLocalApic.taskPriority = p.taskPriority := by
  rw [serviceLocalApic]
  repeat' split
  all_goals exact ⟨rfl, rfl, rfl, rfl, rfl⟩

/-- What servicing raises the line for. -/
theorem intr_serviceLocalApic (h : p.AllEnabled) (hlow : p.intr = false) :
    p.serviceLocalApic.intr ↔
      ∃ v, Highest p.irr v ∧ p.tprClass < priorityClass v ∧ ∀ u, getVector p.isr u → u < v := by
  rw [serviceLocalApic, hlow, if_neg Bool.false_ne_true]
  cases hirr : p.highestPriorityInt p.irr with
  | none =>
    have hempty := (highestPriorityInt_eq_none h).mp hirr
    constructor
    · intro hintr
      exact absurd (hlow.symm.trans hintr) Bool.false_ne_true
    · rintro ⟨v, hv, -⟩
      exact absurd hv.1 (Bool.eq_false_iff.mp (hempty v))
  | some first =>
    have hfirst := (highestPriorityInt_eq_some h).mp hirr
    have hisr : (∃ firstIsr ∈ p.highestPriorityInt p.isr, first ≤ firstIsr) ↔
        ¬ ∀ u, getVector p.isr u → u < first := by
      push Not
      constructor
      · rintro ⟨top, htop, hle⟩
        exact ⟨top, ((highestPriorityInt_eq_some h).mp htop).1, BitVec.not_lt.mpr hle⟩
      · rintro ⟨u, hu, hle⟩
        obtain ⟨top, htop, hut⟩ := exists_highest h hu
        exact ⟨top, (highestPriorityInt_eq_some h).mpr htop,
          BitVec.le_trans (BitVec.not_lt.mp hle) hut⟩
    have hunique : (∃ v, Highest p.irr v ∧ p.tprClass < priorityClass v ∧
        ∀ u, getVector p.isr u → u < v) ↔
        p.tprClass < priorityClass first ∧ ∀ u, getVector p.isr u → u < first :=
      ⟨fun ⟨v, hv, hcond⟩ => hv.unique hfirst ▸ hcond, fun hcond => ⟨first, hfirst, hcond⟩⟩
    rw [hunique]
    simp only [hisr, class_le_tpr_iff]
    by_cases hserved : ∀ u, getVector p.isr u → u < first
    · rw [if_neg (not_not.mpr hserved)]
      by_cases htpr : priorityClass first ≤ p.tprClass
      · rw [if_pos htpr, hlow]
        exact ⟨(nomatch ·), fun hcond => absurd htpr (Nat.not_le.mpr hcond.1)⟩
      · rw [if_neg htpr]
        exact ⟨fun _ => ⟨Nat.not_le.mp htpr, hserved⟩, fun _ => rfl⟩
    · rw [if_pos hserved, hlow]
      exact ⟨(nomatch ·), fun hcond => absurd hcond.2 hserved⟩

/-! ## Taking -/

theorem acknowledge_of_above (h : p.AllEnabled) (hv : Highest p.irr v) (habove : p.Above v) :
    p.acknowledge =
      (serviceLocalApic { p with
        irr := clearVector p.irr v
        isr := setVector p.isr v
        intr := false }, some v) := by
  rw [acknowledge, (highestPriorityInt_eq_some h).mpr hv]
  exact if_neg ((ppr_lt_iff h).mpr habove)

theorem acknowledge_of_not_above (h : p.AllEnabled) (hnone : ∀ v, Highest p.irr v → ¬ p.Above v) :
    p.acknowledge = ({ p with intr := false }, none) := by
  rw [acknowledge]
  cases hirr : p.highestPriorityInt p.irr with
  | none => rfl
  | some first =>
    have hfirst := (highestPriorityInt_eq_some h).mp hirr
    exact if_pos (not_not.mp (mt (ppr_lt_iff h).mp (hnone first hfirst)))

end ApicVectors

/-! ## What was raised is taken -/

/-- The highest request shares its class with a vector in service. -/
def ApicVectors.SharesClass (p : ApicVectors) : Prop :=
  ∃ v u, Highest p.irr v ∧ getVector p.isr u ∧ priorityClass u = priorityClass v

namespace BxLocalApic

variable {s : BxLocalApic} {v : BitVec 8}

def serviceLocalApic (s : BxLocalApic) : BxLocalApic :=
  { s with vectors := s.vectors.serviceLocalApic }

/-- The CPU's acknowledge returns `v` and moves it from the IRR to the ISR. -/
def Takes (s : BxLocalApic) (v : BitVec 8) : Prop :=
  s.acknowledgeInt.2 = v ∧ getVector s.acknowledgeInt.1.vectors.irr v = false ∧
    getVector s.acknowledgeInt.1.vectors.isr v = true

theorem takes_iff (h : s.vectors.AllEnabled) (hv : Highest s.vectors.irr v) :
    s.Takes v ↔ s.vectors.Above v := by
  constructor
  · rintro ⟨-, hirr, -⟩
    by_contra hnot
    have hack : s.vectors.acknowledge = ({ s.vectors with intr := false }, none) :=
      acknowledge_of_not_above h fun u hu => hu.unique hv ▸ hnot
    rw [acknowledgeInt, hack] at hirr
    exact Bool.false_ne_true (hirr.symm.trans hv.1)
  · intro habove
    rw [Takes, acknowledgeInt, ApicVectors.acknowledge_of_above h hv habove]
    simp

/-- An interrupt that servicing raises is taken by the acknowledge that follows exactly when its
class is not in service. -/
theorem raised_interrupt_taken_iff (hier : s.vectors.AllEnabled) (hlow : s.vectors.intr = false)
    (hraised : s.serviceLocalApic.vectors.intr = true) :
    (∃ v, Highest s.vectors.irr v ∧ s.serviceLocalApic.Takes v) ↔ ¬ s.vectors.SharesClass := by
  obtain ⟨v, hv, htpr, hisr⟩ := (intr_serviceLocalApic hier hlow).mp hraised
  have hserved : s.serviceLocalApic.vectors.AllEnabled := fun i => by
    show s.vectors.serviceLocalApic.ier i = _
    simp only [ApicVectors.serviceLocalApic_frame]
    exact hier i
  have hhighest : Highest s.serviceLocalApic.vectors.irr v := by
    show Highest s.vectors.serviceLocalApic.irr v
    simpa only [ApicVectors.serviceLocalApic_frame]
  have habove : s.serviceLocalApic.vectors.Above v ↔ s.vectors.Above v := by
    simp [serviceLocalApic, Above, tprClass]
  have htakes : (∃ v, Highest s.vectors.irr v ∧ s.serviceLocalApic.Takes v) ↔ s.vectors.Above v := by
    rw [← habove, ← takes_iff hserved hhighest]
    exact ⟨fun ⟨u, hu, ht⟩ => hu.unique hv ▸ ht, fun ht => ⟨v, hv, ht⟩⟩
  have hshares : s.vectors.SharesClass ↔
      ∃ u, getVector s.vectors.isr u ∧ priorityClass u = priorityClass v :=
    ⟨fun ⟨w, u, hw, hu, heq⟩ => ⟨u, hu, hw.unique hv ▸ heq⟩, fun ⟨u, hu, heq⟩ => ⟨v, u, hv, hu, heq⟩⟩
  rw [htakes, hshares]
  constructor
  · rintro ⟨-, hlt⟩ ⟨u, hu, heq⟩
    exact absurd heq (Nat.ne_of_lt (hlt u hu))
  · intro hnone
    refine ⟨htpr, fun u hu => ?_⟩
    have hle : priorityClass u ≤ priorityClass v := priorityClass_mono (BitVec.le_of_lt (hisr u hu))
    exact Nat.lt_of_le_of_ne hle fun heq => hnone ⟨u, hu, heq⟩

/-- A request for a vector, waiting while nothing is in service. -/
def waiting : BxLocalApic := { vectors := { irr := setVector (fun _ => 0#32) 0x31#8 } }

theorem waiting_taken : ∃ v, Highest waiting.vectors.irr v ∧ waiting.serviceLocalApic.Takes v := by
  refine (raised_interrupt_taken_iff (s := waiting) (fun _ => rfl) rfl (by decide)).mpr ?_
  rintro ⟨v, u, -, hu, -⟩
  simp [waiting] at hu

/-- Vector 0x31 is in service when 0x35, of the same class, is requested. -/
def sameClassOps : List ApicOp :=
  [.triggerIrq 0x31#8 0#8 false, .acknowledgeInt, .triggerIrq 0x35#8 0#8 false]

/-- The request raises the interrupt line, and is answered with the spurious vector. -/
theorem same_class_answered_spurious :
    let before := ({} : BxLocalApic).reset.run (sameClassOps.take 2)
    let s := ({} : BxLocalApic).reset.run sameClassOps
    before.vectors.intr = false ∧ s.vectors.intr = true ∧ s.acknowledgeInt.2 = 0xFF#8 ∧
      getVector s.acknowledgeInt.1.vectors.irr 0x35#8 = true ∧
      getVector s.acknowledgeInt.1.vectors.isr 0x35#8 = false := by
  decide +kernel

end BxLocalApic

/-! ## No request is stranded -/

namespace ApicVectors

variable {p q : ApicVectors} {u v : BitVec 8}

theorem lt_of_class_lt (h : priorityClass u < priorityClass v) : u < v :=
  BitVec.not_le.mp fun hle => absurd (priorityClass_mono hle) (Nat.not_le.mpr h)

/-- At most one vector of a class is in service. -/
def OnePerClass (p : ApicVectors) : Prop :=
  ∀ u v, getVector p.isr u → getVector p.isr v → priorityClass u = priorityClass v → u = v

/-- A request above everything has the line asserted. -/
structure Settled (p : ApicVectors) : Prop where
  raised : ∀ v, Highest p.irr v → p.Above v → p.intr = true
  onePerClass : p.OnePerClass

theorem settled_service (h : p.AllEnabled) (hclass : p.OnePerClass) : p.serviceLocalApic.Settled := by
  constructor
  · intro v hv habove
    cases hlow : p.intr with
    | true =>
      rw [serviceLocalApic, if_pos hlow]
      exact hlow
    | false =>
      simp only [serviceLocalApic_frame] at hv
      refine (intr_serviceLocalApic h hlow).mpr ⟨v, hv, ?_, fun u hu => lt_of_class_lt ?_⟩
      · have htpr := habove.1
        simpa only [tprClass, serviceLocalApic_frame] using htpr
      · refine habove.2 u ?_
        simpa only [serviceLocalApic_frame]
  · simp only [OnePerClass, serviceLocalApic_frame]
    exact hclass

section

variable (h : p.AllEnabled) (hp : p.Settled)
include h hp

theorem settled_accept (vector triggerMode : BitVec 8)
    (bypassIrrIsr : Bool) : (p.accept vector triggerMode bypassIrrIsr).Settled := by
  rw [accept]
  split
  · exact hp
  · exact settled_service h hp.onePerClass

theorem settled_retire (vector : BitVec 8) : (p.retire vector).1.Settled := by
  have hsub (u : BitVec 8) (hu : getVector (clearVector p.isr vector) u) : getVector p.isr u := by
    rw [getVector_clearVector, Bool.and_eq_true] at hu
    exact hu.1
  rw [retire]
  split <;> exact settled_service h fun u v hu hv => hp.onePerClass u v (hsub u hu) (hsub v hv)

theorem settled_setTpr (priority : BitVec 8) : (p.setTpr priority).Settled := by
  rw [setTpr]
  split
  · exact settled_service h hp.onePerClass
  next hle =>
    -- a raised TPR only takes candidates away
    refine ⟨fun v hv habove => hp.raised v hv ⟨?_, habove.2⟩, hp.onePerClass⟩
    have hle : p.taskPriority.toNat ≤ (priority.setWidth 32).toNat := BitVec.not_lt.mp hle
    have htpr : (priority.setWidth 32).toNat / 16 % 16 < priorityClass v := habove.1
    rw [toNat_setWidth] at hle htpr
    rw [tprClass]
    omega

theorem settled_untriggerIrq (vector : BitVec 8) : (p.untriggerIrq vector).Settled := by
  refine ⟨fun v hv habove => ?_, hp.onePerClass⟩
  have hmem : getVector p.irr v := by
    have hmem := hv.1
    rw [untriggerIrq, getVector_clearVector, Bool.and_eq_true] at hmem
    exact hmem.1
  -- whatever was the highest request before is above everything too
  obtain ⟨top, htop, hle⟩ := exists_highest h hmem
  have hclass := priorityClass_mono hle
  exact hp.raised top htop
    ⟨Nat.lt_of_lt_of_le habove.1 hclass, fun u hu => Nat.lt_of_lt_of_le (habove.2 u hu) hclass⟩

end

theorem onePerClass_setVector (hp : p.OnePerClass) (habove : p.Above v) :
    OnePerClass { p with isr := setVector p.isr v } := by
  intro x y hx hy heq
  simp only [getVector_setVector, Bool.or_eq_true, decide_eq_true_eq] at hx hy
  rcases hx with hx | rfl <;> rcases hy with hy | rfl
  · exact hp x y hx hy heq
  · exact absurd heq (Nat.ne_of_lt (habove.2 x hx))
  · exact absurd heq.symm (Nat.ne_of_lt (habove.2 y hy))
  · rfl

theorem settled_acknowledge (h : p.AllEnabled) (hp : p.Settled) : p.acknowledge.1.Settled := by
  by_cases htake : ∃ v, Highest p.irr v ∧ p.Above v
  · obtain ⟨v, hv, habove⟩ := htake
    rw [acknowledge_of_above h hv habove]
    exact settled_service
      (p := { p with irr := clearVector p.irr v, isr := setVector p.isr v, intr := false }) h
      (onePerClass_setVector hp.onePerClass habove)
  · push Not at htake
    rw [acknowledge_of_not_above h htake]
    exact ⟨fun v hv habove => absurd habove (htake v hv), hp.onePerClass⟩

theorem settled_reset : Settled {} := by
  constructor
  · intro v hv
    exact absurd hv.1 (Bool.eq_false_iff.mp getVector_zero)
  · intro u v hu
    exact absurd hu (Bool.eq_false_iff.mp getVector_zero)

theorem settled_step (h : p.AllEnabled) (hp : p.Settled) (hstep : VectorStep p q) : q.Settled := by
  cases hstep with
  | same => exact hp
  | accept vector triggerMode bypassIrrIsr _ => exact settled_accept h hp ..
  | retire vector => exact settled_retire h hp vector
  | setTpr priority => exact settled_setTpr h hp priority
  | untriggerIrq vector => exact settled_untriggerIrq h hp vector
  | acknowledge => exact settled_acknowledge h hp
  | setIer ier | takeIntrPending => exact ⟨hp.raised, hp.onePerClass⟩
  | reset => exact settled_reset

end ApicVectors

namespace BxLocalApic

/-- The CPU's acknowledge puts `v` in service. -/
def Moves (s : BxLocalApic) (v : BitVec 8) : Prop :=
  getVector s.acknowledgeInt.1.vectors.isr v = true ∧ getVector s.vectors.isr v = false

theorem above_of_moves {s : BxLocalApic} {v : BitVec 8} (h : s.vectors.AllEnabled)
    (hmoves : s.Moves v) : s.vectors.Above v := by
  obtain ⟨hafter, hbefore⟩ := hmoves
  by_cases htake : ∃ v, Highest s.vectors.irr v ∧ s.vectors.Above v
  · obtain ⟨top, htop, habove⟩ := htake
    rw [acknowledgeInt, ApicVectors.acknowledge_of_above h htop habove] at hafter
    simp only [ApicVectors.serviceLocalApic_frame, getVector_setVector, hbefore, Bool.false_or,
      decide_eq_true_eq] at hafter
    exact hafter ▸ habove
  · push Not at htake
    rw [acknowledgeInt, acknowledge_of_not_above h htake] at hafter
    exact absurd (hbefore.symm.trans hafter) Bool.false_ne_true

/-- In a run from reset through states with all IER bits set: the highest request has the line
asserted if its class is above the class of the TPR and of everything in service, what an
acknowledge puts in service is above everything already there by its class, and so no class has
two vectors in service. -/
theorem no_interrupt_stranded (s₀ : BxLocalApic) (ops : List ApicOp)
    (hier : ∀ s ∈ ops.scanl step s₀.reset, s.vectors.AllEnabled) :
    ∀ s ∈ ops.scanl step s₀.reset,
      (∀ v, Highest s.vectors.irr v → s.vectors.tprClass < priorityClass v →
        (∀ u, getVector s.vectors.isr u → priorityClass u < priorityClass v) →
        s.vectors.intr = true) ∧
      (∀ v, s.Moves v → ∀ u, getVector s.vectors.isr u → priorityClass u < priorityClass v) ∧
      ∀ u v, getVector s.vectors.isr u → getVector s.vectors.isr v →
        priorityClass u = priorityClass v → u = v := by
  have hsettled := forall_scanl_of_forall_scanl (P := fun s => s.vectors.Settled)
    (Q := fun s => s.vectors.AllEnabled)
    (fun s op h hp => settled_step h hp (vectorStep_step s op))
    (s := s₀.reset) settled_reset hier
  intro s hs
  have hs' := hsettled s hs
  exact ⟨fun v hv htpr hisr => hs'.raised v hv ⟨htpr, hisr⟩,
    fun v hmoves => (above_of_moves (hier s hs) hmoves).2, hs'.onePerClass⟩

/-- Two requests of different classes, an acknowledge, a raised TPR, and an end of interrupt. -/
def nestedOps : List ApicOp :=
  [.triggerIrq 0x31#8 0#8 false, .acknowledgeInt, .triggerIrq 0x45#8 0#8 false, .setTpr 0x50#8,
    .setTpr 0x00#8, .mmioWrite 0xFEE000B0#64 0#32 4 0#64, .acknowledgeInt]

theorem nested_not_stranded :
    (∀ s ∈ nestedOps.scanl step ({} : BxLocalApic).reset, s.vectors.AllEnabled) ∧
    ∀ s ∈ nestedOps.scanl step ({} : BxLocalApic).reset,
      (∀ v, Highest s.vectors.irr v → s.vectors.tprClass < priorityClass v →
        (∀ u, getVector s.vectors.isr u → priorityClass u < priorityClass v) →
        s.vectors.intr = true) ∧
      (∀ v, s.Moves v → ∀ u, getVector s.vectors.isr u → priorityClass u < priorityClass v) ∧
      ∀ u v, getVector s.vectors.isr u → getVector s.vectors.isr v →
        priorityClass u = priorityClass v → u = v := by
  have hier : ∀ s ∈ nestedOps.scanl step ({} : BxLocalApic).reset, s.vectors.AllEnabled := by
    decide +kernel
  exact ⟨hier, no_interrupt_stranded {} nestedOps hier⟩

end BxLocalApic

end RustyBox
