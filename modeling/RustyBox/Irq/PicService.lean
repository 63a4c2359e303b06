-- SUMMARY: What servicing an 8259 guarantees: a request that may be signalled asserts INT.
import RustyBox.Irq.Pic

/-!
# Servicing a chip

`Pic8259State.Eligible` is what a chip is for: an unmasked request that the priorities let
through. `service_cases` says everything a call of `service` can do, and everything else
about it follows: it leaves no eligible request without INT (`served_service`) and the line
it latches is requested (`held_service`).
-/

namespace RustyBox

open Lib

namespace Pic8259State

variable {c : Pic8259State} {i : Fin 8}

/-- The line has a request that is not masked. -/
def Requested (c : Pic8259State) (i : Fin 8) : Prop := hasBit c.irr i ∧ hasBit c.imr i = false

/-- The place of a line in the current rotation, 0 for the highest priority. -/
def rank (c : Pic8259State) (i : Fin 8) : Nat := ringDist c.highestPriority i

/-- The request may be signalled: it comes before everything in service or, in special mask
mode, is not itself in service. -/
def Eligible (c : Pic8259State) (i : Fin 8) : Prop :=
  c.Requested i ∧
    if c.specialMask then hasBit c.isr i = false
    else ∀ j, hasBit c.isr j → c.rank i < c.rank j

instance : Decidable (c.Requested i) := inferInstanceAs (Decidable (_ ∧ _))

instance : Decidable (c.Eligible i) :=
  inferInstanceAs (Decidable (_ ∧ if c.specialMask then _ else _))

/-- No request is left without INT. -/
def Served (c : Pic8259State) : Prop := (∃ i, c.Eligible i) → c.intPin

/-- While INT is asserted the latched line is requested. -/
def Held (c : Pic8259State) : Prop := c.intPin → c.Requested c.irq

theorem hasBit_unmaskedRequests : hasBit c.unmaskedRequests i ↔ c.Requested i := by
  rw [unmaskedRequests, hasBit_and_not, Bool.and_eq_true, Bool.not_eq_true', Requested]

theorem unmaskedRequests_ne_zero : c.unmaskedRequests ≠ 0#8 ↔ ∃ i, c.Requested i := by
  rw [ne_zero_iff_hasBit]
  exact exists_congr fun i => hasBit_unmaskedRequests

theorem served_of_no_request (h : c.unmaskedRequests = 0#8) : c.Served := by
  rintro ⟨i, hi, -⟩
  exact absurd h (unmaskedRequests_ne_zero.mpr ⟨i, hi⟩)

theorem served_of_intPin (h : c.intPin) : c.Served := fun _ => h

/-! ## The scan -/

/-- The in-service line of the highest priority. -/
theorem highestInService_eq_some :
    c.highestInService = some i ↔ hasBit c.isr i ∧ ∀ j, hasBit c.isr j → c.rank i ≤ c.rank j := by
  rw [highestInService, scanRing_eq_some ringSpan_le, ringSpan_self]
  simp only [rank, ringDist_lt, true_and]

theorem highestInService_eq_none : c.highestInService = none ↔ c.isr = 0#8 := by
  rw [highestInService, scanRing_eq_none ringSpan_le, ringSpan_self, ← not_iff_not,
    ← ne_eq (a := c.isr), ne_zero_iff_hasBit]
  simp [ringDist_lt]

/-- The scan of `service` visits every eligible line. -/
theorem Eligible.rank_lt (h : c.Eligible i) :
    ringDist c.highestPriority i < ringSpan c.highestPriority c.maxIrq := by
  by_cases hfull : c.maxIrq = c.highestPriority
  · rw [hfull, ringSpan_self]
    exact ringDist_lt
  -- the scan stops early: at the in-service line of the highest priority
  have hmask : c.specialMask = false := by
    by_contra hs
    exact hfull (by simp [maxIrq, hs])
  rw [ringSpan_of_ne hfull]
  rw [maxIrq, hmask] at hfull ⊢
  cases hin : c.highestInService with
  | none => simp [hin] at hfull
  | some j =>
    have hlt := h.2
    rw [hmask] at hlt
    exact hlt j (highestInService_eq_some.mp hin).1

/-- Nothing gets past the highest priority line once it is in service. -/
theorem not_eligible_of_top (hs : c.specialMask = false) (hisr : c.isr ≠ 0#8)
    (htop : c.maxIrq = c.highestPriority) : ¬ c.Eligible i := by
  rintro ⟨-, hlt⟩
  rw [hs] at hlt
  cases hin : c.highestInService with
  | none => exact hisr (highestInService_eq_none.mp hin)
  | some j =>
    rw [maxIrq, hs, if_neg Bool.false_ne_true, hin, Option.getD_some] at htop
    have := hlt j (highestInService_eq_some.mp hin).1
    rw [htop, rank, rank, ringDist_self] at this
    omega

/-- Everything a call of `service` can do: nothing, and then no request was waiting for
INT; assert INT for a requested line; or take INT down when nothing is requested. -/
theorem service_cases (c : Pic8259State) :
    (c.service = (c, .none) ∧ c.Served) ∨
    (∃ irq, c.intPin = false ∧ c.Requested irq ∧
      c.service = ({ c with intPin := true, irq := irq },
        if c.master then .raiseIntr else .raiseCascade)) ∨
    (c.intPin ∧ c.unmaskedRequests = 0#8 ∧
      c.service = ({ c with intPin := false },
        if c.master then .clearIntr else .lowerCascade)) := by
  rw [service]
  by_cases htop : !c.specialMask && c.isr != 0#8 && c.maxIrq == c.highestPriority
  · rw [if_pos htop]
    simp only [Bool.and_eq_true, Bool.not_eq_true', bne_iff_ne, beq_iff_eq] at htop
    refine .inl ⟨rfl, ?_⟩
    rintro ⟨i, hi⟩
    exact absurd hi (not_eligible_of_top htop.1.1 htop.1.2 htop.2)
  rw [if_neg htop]
  by_cases hreq : c.unmaskedRequests ≠ 0#8
  · rw [if_pos hreq]
    cases hscan : scanRing c.signals c.maxIrq 8 c.highestPriority with
    | some irq =>
      have hsig := ((scanRing_eq_some ringSpan_le).mp hscan).1
      simp only [signals, Bool.and_eq_true, Bool.not_eq_true'] at hsig
      exact .inr (.inl ⟨irq, hsig.2.1, hasBit_unmaskedRequests.mp hsig.2.2, rfl⟩)
    | none =>
      refine .inl ⟨rfl, ?_⟩
      rintro ⟨i, hi⟩
      by_contra hpin
      -- the scan passed the eligible line by, although INT is down
      have hsig := (scanRing_eq_none ringSpan_le).mp hscan i hi.rank_lt
      have hreqi := hasBit_unmaskedRequests.mpr hi.1
      cases hs : c.specialMask with
      | false => simp [signals, hs, hpin, hreqi] at hsig
      | true =>
        have hisr := hi.2
        rw [hs, if_pos rfl] at hisr
        simp [signals, hs, hpin, hreqi, hisr] at hsig
  · rw [if_neg hreq]
    rw [not_not] at hreq
    by_cases hpin : c.intPin
    · rw [if_pos hpin]
      exact .inr (.inr ⟨hpin, hreq, rfl⟩)
    · rw [if_neg hpin]
      exact .inl ⟨rfl, served_of_no_request hreq⟩

theorem served_service (c : Pic8259State) : c.service.1.Served := by
  obtain ⟨h, hserved⟩ | ⟨irq, -, -, h⟩ | ⟨-, hreq, h⟩ := c.service_cases <;> rw [h]
  · exact hserved
  · exact served_of_intPin rfl
  · exact served_of_no_request hreq

theorem held_service (h : c.Held) : c.service.1.Held := by
  obtain ⟨heq, -⟩ | ⟨irq, -, hreq, heq⟩ | ⟨-, -, heq⟩ := c.service_cases <;> rw [heq]
  · exact h
  · exact fun _ => hreq
  · exact fun hpin => absurd hpin Bool.false_ne_true

/-- Servicing a chip changes its INT output and its latch, and nothing else. -/
theorem service_eq (c : Pic8259State) :
    c.service.1 = { c with intPin := c.service.1.intPin, irq := c.service.1.irq } := by
  obtain ⟨heq, -⟩ | ⟨irq, -, -, heq⟩ | ⟨-, -, heq⟩ := c.service_cases <;> rw [heq]

@[simp] theorem service_irr : c.service.1.irr = c.irr := by rw [service_eq]

/-! ## Other changes to a chip -/

/-- Fewer requests and the same priorities: what was served stays served. -/
theorem Served.shrink {c' : Pic8259State} (h : c.Served)
    (hreq : ∀ i, c'.Requested i → c.Requested i) (hisr : c'.isr = c.isr)
    (hmask : c'.specialMask = c.specialMask) (hlow : c'.lowestPriority = c.lowestPriority)
    (hpin : c'.intPin = c.intPin) : c'.Served := by
  rintro ⟨i, hi, hpri⟩
  rw [hpin]
  refine h ⟨i, hreq i hi, ?_⟩
  rw [← hmask]
  simpa only [rank, highestPriority, hlow, hisr] using hpri

theorem clearHighestInterrupt_eq (c : Pic8259State) :
    c.clearHighestInterrupt = { c with isr := c.clearHighestInterrupt.isr } := by
  rw [clearHighestInterrupt]
  split <;> rfl

theorem acknowledge_eq (c : Pic8259State) :
    c.acknowledge =
      { c with
        irr := c.acknowledge.irr
        isr := c.acknowledge.isr
        lowestPriority := c.acknowledge.lowestPriority } := by
  simp only [acknowledge]
  split_ifs <;> rfl

theorem writeOcw3_eq (c : Pic8259State) (value : BitVec 8) :
    c.writeOcw3 value =
      { c with
        readRegSelect := (c.writeOcw3 value).readRegSelect
        specialMask := (c.writeOcw3 value).specialMask } := by
  simp only [writeOcw3]
  split_ifs <;> rfl

theorem writeIcw_eq (c : Pic8259State) (value : BitVec 8) :
    c.writeIcw value =
      { c with
        interruptOffset := (c.writeIcw value).interruptOffset
        sfnm := (c.writeIcw value).sfnm
        bufferedMode := (c.writeIcw value).bufferedMode
        masterSlave := (c.writeIcw value).masterSlave
        autoEoi := (c.writeIcw value).autoEoi
        init := (c.writeIcw value).init } := by
  simp only [writeIcw]
  split
  · rfl
  · split <;> rfl
  · rfl
  · rfl

/-- An INTA cycle takes no request but the latched one. -/
theorem hasBit_acknowledge (hi : i ≠ c.irq) : hasBit c.acknowledge.irr i = hasBit c.irr i := by
  simp only [acknowledge]
  split_ifs <;> simp [hi]

end Pic8259State

end RustyBox
