-- SUMMARY: The shifts and rotates by a count are iterated single-bit ones.
import RustyBox.Cpu.Shift

/-!
# Multi-bit shifts as iterated single-bit shifts

Each by-1 handler acts on the operand and the carry as one of the single-bit moves of
`Lib.SingleBit`, so iterating it iterates the move. Each handler by a count reaches the
closed form of that iteration. `sar_eb_ib` shifts an `i8` by up to 31 positions without a
guard, the one place where the two part.
-/

namespace RustyBox

open Lib Nat BitVec

namespace ShiftState

variable {size : Width}

/-- What the rules below are about: the operand and the carry flag. -/
def carried (s : ShiftState size) : BitVec size.bits × Bool := (s.operand, s.getCf)

section

variable (s : ShiftState size)

theorem getCf_eq : s.getCf = s.flags.decode.cf := by
  rw [getCf, LazyFlags.getbCf_eq]
  cases s.flags.decode.cf <;> rfl

@[simp] theorem carried_setCfOf (cf of : Bool) :
    (s.setCfOf cf of).carried = (s.operand, cf) := by
  rw [carried, getCf_eq, setCfOf, LazyFlags.decode_setFlagsOxxxxC]

@[simp] theorem carried_updateFlags (result : BitVec size.bits) (cf of : Bool) :
    ((s.write result).updateFlags result cf of).carried = (result, cf) :=
  carried_setCfOf ..

@[simp] theorem carried_fst : s.carried.1 = s.operand := rfl

@[simp] theorem carried_snd : s.carried.2 = s.getCf := rfl

@[simp] theorem operand_write (result : BitVec size.bits) :
    (s.write result).operand = result := rfl

end

/-- `r` ran to a state whose operand and carry are those of `n` moves from `s`. -/
def Iterates (one : BitVec size.bits × Bool → BitVec size.bits × Bool) (n : Nat)
    (s : ShiftState size) (r : Option (ShiftState size)) : Prop :=
  r.map carried = some (one^[n] s.carried) ∧ (n = 0 → r = some s)

theorem Iterates.zero (one : BitVec size.bits × Bool → BitVec size.bits × Bool)
    (s : ShiftState size) : Iterates one 0 s (some s) :=
  ⟨rfl, fun _ => rfl⟩

variable {n : Nat}

theorem Iterates.succ {one : BitVec size.bits × Bool → BitVec size.bits × Bool}
    {s : ShiftState size} {r : Option (ShiftState size)} {p : BitVec size.bits × Bool}
    (hmoves : one^[n + 1] s.carried = p) (hrun : r.map carried = some p) :
    Iterates one (n + 1) s r :=
  ⟨hrun.trans (congrArg some hmoves.symm), fun h => absurd h (succ_ne_zero n)⟩

/-! ## Checked arithmetic in range -/

section Checked

variable {w k : Nat} {x : BitVec w}

@[simp] theorem checkedShl_of_lt (h : k < w) : checkedShl x k = some (x <<< k) := if_pos h

@[simp] theorem checkedShr_of_lt (h : k < w) : checkedShr x k = some (x >>> k) := if_pos h

@[simp] theorem checkedSar_of_lt (h : k < w) : checkedSar x k = some (x.sshiftRight k) := if_pos h

@[simp] theorem checkedSub_of_le {a b : Nat} (h : b ≤ a) : checkedSub a b = some (a - b) :=
  if_pos h

end Checked

/-! ## Shifts by a count -/

/-- Past the width only the sign is left. -/
theorem sshiftRight_of_ge {w : Nat} (x : BitVec w) (h : w ≤ n) :
    x.sshiftRight n = if x.msb then allOnes w else 0 := by
  apply eq_of_getLsbD_eq
  intro i hi
  rw [getLsbD_sshiftRight, if_neg (by omega)]
  cases x.msb <;> simp [hi]

section

variable (s : ShiftState size)

theorem shlBy_iterates (n : Nat) : Iterates shlOne n s (s.shlBy n) := by
  cases n with
  | zero => exact .zero ..
  | succ n =>
    refine .succ (iterate_shlOne n s.carried) ?_
    by_cases hlt : n < size.bits
    · -- with `n + 1` the full width, the last bit is in the carry and the result is zero
      by_cases hfull : size.bits ≤ n + 1
      iterate 2 simp (disch := omega) [shlBy, hfull, show ¬ size.bits < n + 1 by omega]
    · simp (disch := omega) [shlBy, show size.bits < n + 1 by omega, show size.bits ≤ n + 1 by omega,
        getMsbD_of_ge]

theorem shrBy_iterates (hn : n ≤ 32) : Iterates shrOne n s (s.shrBy n) := by
  cases n with
  | zero => exact .zero ..
  | succ n =>
    refine .succ (iterate_shrOne n s.carried) ?_
    by_cases hfull : size.bits ≤ n + 1
    · simp (disch := omega) [shrBy, hfull, ushiftRight_eq_zero]
    · simp (disch := omega) [shrBy, hfull]

theorem sarBy_iterates (n : Nat) : Iterates sarOne n s (s.sarBy n) := by
  cases n with
  | zero => exact .zero ..
  | succ n =>
    refine .succ (iterate_sarOne n s.carried) ?_
    by_cases hfull : size.bits ≤ n + 1
    · have hcf : (s.operand.sshiftRight n).getLsbD 0 = s.operand.msb := by
        have hpos : size.bits ≠ 0 := by cases size <;> decide
        rw [getLsbD_sshiftRight]
        by_cases h : n < size.bits
        · obtain rfl : n = size.bits - 1 := by omega
          simp [hpos, msb_eq_getLsbD_last]
        · simp [h, hpos]
      simp [sarBy, hfull, hcf, sshiftRight_of_ge s.operand hfull, slt_zero_eq_msb]
    · simp (disch := omega) [sarBy, hfull]

theorem sarUnguarded_iterates (hn : n < size.bits) : Iterates sarOne n s (s.sarUnguarded n) := by
  cases n with
  | zero => exact .zero ..
  | succ n =>
    refine .succ (iterate_sarOne n s.carried) ?_
    simp (disch := omega) [sarUnguarded]

/-- The shift by the width or more is out of range. -/
theorem sarUnguarded_of_ge (hpos : 0 < n) (hn : size.bits ≤ n) : s.sarUnguarded n = none := by
  simp [sarUnguarded, checkedSar, show n ≠ 0 by omega, show ¬ n < size.bits by omega]

theorem shlEqBy_iterates (hn : n < size.bits) : Iterates shlOne n s (s.shlEqBy n) := by
  cases n with
  | zero => exact .zero ..
  | succ n =>
    refine .succ (iterate_shlOne n s.carried) ?_
    have hcf : s.operand.getMsbD n = s.operand.getLsbD (size.bits - (n + 1)) := by
      rw [getMsbD_eq_getLsbD, show size.bits - 1 - n = size.bits - (n + 1) by omega]
      simp [show n < size.bits by omega]
    simp (disch := omega) [shlEqBy, hcf]

theorem shrEqBy_iterates (hn : n < size.bits) : Iterates shrOne n s (s.shrEqBy n) := by
  cases n with
  | zero => exact .zero ..
  | succ n =>
    refine .succ (iterate_shrOne n s.carried) ?_
    simp (disch := omega) [shrEqBy]

theorem sarEqBy_iterates (hn : n < size.bits) : Iterates sarOne n s (s.sarEqBy n) := by
  cases n with
  | zero => exact .zero ..
  | succ n =>
    refine .succ (iterate_sarOne n s.carried) ?_
    -- the carry is taken from a logical shift, which differs in the fill only
    simp (disch := omega) [sarEqBy, getElem_sshiftRight, show n < size.bits by omega]

end

/-! ## Rotates by a count -/

section Turns

variable {s : ShiftState size} {cl low turns : BitVec 8} {n : Nat}

/-- `low` keeps the count within a turn and `turns` tells whether there are whole turns. -/
theorem Iterates.of_turns {one : BitVec size.bits × Bool → BitVec size.bits × Bool}
    (p : Nat → BitVec size.bits × Bool) {whole moved : ShiftState size}
    (hlow : (cl &&& low).toNat = n % size.bits) (hturns : cl &&& turns ≠ 0 ↔ size.bits ≤ n)
    (hmoves : ∀ k, one^[k + 1] s.carried = p (k + 1))
    (hwhole : n % size.bits = 0 → whole.carried = p n) (hmoved : moved.carried = p n) :
    Iterates one n s (some (if (cl &&& low).toNat = 0 then if cl &&& turns ≠ 0 then whole else s
      else moved)) := by
  rw [hlow]
  cases n with
  | zero =>
    have hpos : ¬ size.bits ≤ 0 := by cases size <;> decide
    rw [if_neg (fun h => hpos (hturns.mp h))]
    exact .zero ..
  | succ n =>
    refine .succ (hmoves n) ?_
    by_cases hzero : (n + 1) % size.bits = 0
    · have hfull : size.bits ≤ n + 1 := le_of_dvd (by omega) (dvd_of_mod_eq_zero hzero)
      rw [if_pos hzero, if_pos (hturns.mpr hfull), Option.map_some, hwhole hzero]
    · rw [if_neg hzero, Option.map_some, hmoved]

variable (hlow : (cl &&& low).toNat = n % size.bits) (hturns : cl &&& turns ≠ 0 ↔ size.bits ≤ n)
include hlow hturns

theorem rolBy_iterates : Iterates rolOne n s (some (s.rolBy cl low turns)) := by
  refine .of_turns (fun n => (s.operand.rotateLeft n, (s.operand.rotateLeft n).getLsbD 0)) hlow hturns
    (iterate_rolOne · _) (fun hzero => ?_) ?_
  · simp [rotateLeft_of_dvd s.operand hzero]
  · simp [hlow]

theorem rorBy_iterates : Iterates rorOne n s (some (s.rorBy cl low turns)) := by
  refine .of_turns (fun n => (s.operand.rotateRight n, (s.operand.rotateRight n).msb)) hlow hturns
    (iterate_rorOne · _) (fun hzero => ?_) ?_
  · simp [rotateRight_of_dvd s.operand hzero]
  · simp [hlow]

end Turns

theorem rolEqBy_iterates (s : ShiftState size) (n : Nat) :
    Iterates rolOne n s (some (s.rolEqBy n)) := by
  cases n with
  | zero => exact .zero ..
  | succ n =>
    refine .succ (iterate_rolOne n s.carried) ?_
    rw [rolEqBy, if_neg (succ_ne_zero n), Option.map_some, rolEq, carried_setCfOf]
    rfl

theorem rorEqBy_iterates (s : ShiftState size) (n : Nat) :
    Iterates rorOne n s (some (s.rorEqBy n)) := by
  cases n with
  | zero => exact .zero ..
  | succ n =>
    refine .succ (iterate_rorOne n s.carried) ?_
    rw [rorEqBy, if_neg (succ_ne_zero n), Option.map_some, rorEq, carried_setCfOf]
    rfl

/-! ## Rotates through the carry by a count -/

@[simp] theorem setWidth_ushiftRight_setWidth {v w : Nat} (x : BitVec w) (hw : w ≤ v) (k : Nat) :
    (x.setWidth v >>> k).setWidth w = x >>> k := by
  apply eq_of_getLsbD_eq
  intro i hi
  simp only [getLsbD_setWidth, hi]
  by_cases h : k + i < v
  · simp [h]
  · simp [getLsbD_of_ge x (k + i) (by omega)]

@[simp] theorem setWidth_carryIn {v w : Nat} (c : Bool) (hw : w ≤ v) :
    (carryIn v c).setWidth w = carryIn w c := by
  simp (disch := omega) [carryIn]

theorem rclBy_iterates (hsize : size.bits < 32) (s : ShiftState size)
    (hn : n ≤ size.bits) : Iterates rclOne n s (s.rclBy n) := by
  match n, hn with
  | 0, _ => exact .zero ..
  | 1, hn =>
    refine .succ (iterate_rclOne (succ_pos 0) hn s.carried) ?_
    simp (disch := omega) [rclBy, setWidth_or, ushiftRight_eq_zero]
  | n + 2, hn =>
    refine .succ (iterate_rclOne (succ_pos (n + 1)) hn s.carried) ?_
    simp (disch := omega) [rclBy, setWidth_or]

theorem rcrBy_iterates (hsize : size.bits < 32) (s : ShiftState size)
    (hn : n ≤ size.bits) : Iterates rcrOne n s (s.rcrBy n) := by
  cases n with
  | zero => exact .zero ..
  | succ n =>
    refine .succ (iterate_rcrOne (succ_pos n) hn s.carried) ?_
    simp (disch := omega) [rcrBy, setWidth_or]

theorem rclEqBy_iterates (s : ShiftState size) (hn : n < size.bits) :
    Iterates rclOne n s (s.rclEqBy n) := by
  match n, hn with
  | 0, _ => exact .zero ..
  | 1, hn =>
    refine .succ (iterate_rclOne (succ_pos 0) hn.le s.carried) ?_
    simp (disch := omega) [rclEqBy, ushiftRight_eq_zero]
  | n + 2, hn =>
    refine .succ (iterate_rclOne (succ_pos (n + 1)) hn.le s.carried) ?_
    simp (disch := omega) [rclEqBy]

theorem rcrEqBy_iterates (s : ShiftState size) (hn : n < size.bits) :
    Iterates rcrOne n s (s.rcrEqBy n) := by
  match n, hn with
  | 0, _ => exact .zero ..
  | 1, hn =>
    refine .succ (iterate_rcrOne (succ_pos 0) hn.le s.carried) ?_
    simp (disch := omega) [rcrEqBy]
  | n + 2, hn =>
    refine .succ (iterate_rcrOne (succ_pos (n + 1)) hn.le s.carried) ?_
    simp (disch := omega) [rcrEqBy]

end ShiftState

/-! ## Every handler -/

/-- The single-bit move of an operation. -/
def ShiftOp.one {w : Nat} : ShiftOp → BitVec w × Bool → BitVec w × Bool
  | .shl => shlOne
  | .shr => shrOne
  | .sar => sarOne
  | .rol => rolOne
  | .ror => rorOne
  | .rcl => rclOne
  | .rcr => rcrOne

open ShiftState

variable (width : ShiftWidth) (op : ShiftOp)

theorem carried_by1 (s : ShiftState width.size) : (by1 width op s).carried = op.one s.carried := by
  cases width <;> cases op
  case eb.shl | eb.shr | eb.sar | ew.shl | ew.shr | ew.sar | eq.shl | eq.shr | eq.sar =>
    exact carried_updateFlags ..
  all_goals exact carried_setCfOf ..

theorem carried_iterate_by1 (n : Nat)
    (s : ShiftState width.size) : ((by1 width op)^[n] s).carried = op.one^[n] s.carried :=
  ((show Function.Semiconj carried (by1 width op) op.one from
    fun s => carried_by1 width op s).iterate_right n).eq s

section Counts

variable (count : BitVec 8)

theorem count_le_31 : (count &&& 0x1F#8).toNat ≤ 31 := by
  decide +revert

theorem count_lt_64 : (count &&& 0x3F#8).toNat < 64 := by
  decide +revert

theorem count_turn8 : (count &&& 0x07#8).toNat = (count &&& 0x1F#8).toNat % 8 ∧
    (count &&& 0x18#8 ≠ 0 ↔ 8 ≤ (count &&& 0x1F#8).toNat) := by
  decide +revert

theorem count_turn16 : (count &&& 0x1F#8 &&& 0x0F#8).toNat = (count &&& 0x1F#8).toNat % 16 ∧
    (count &&& 0x1F#8 &&& 0x10#8 ≠ 0 ↔ 16 ≤ (count &&& 0x1F#8).toNat) := by
  decide +revert

end Counts

/-- A handler that reduces its count by whole turns first. -/
theorem ShiftState.Iterates.of_mod {size : Width} {s : ShiftState size}
    {one : BitVec size.bits × Bool → BitVec size.bits × Bool} {r : Option (ShiftState size)}
    {n m : Nat} (hturn : one^[n] s.carried = one^[n % m] s.carried)
    (h : Iterates one (n % m) s r) : Iterates one n s r :=
  ⟨h.1.trans (congrArg some hturn.symm), fun h0 => h.2 (by rw [h0, zero_mod])⟩

/-- The `sar_eb_ib` counts that its shift does not admit. -/
def SarOutOfRange (form : CountForm) (count : BitVec 8) : Prop :=
  width = .eb ∧ op = .sar ∧ form = .ib ∧ 8 ≤ maskedCount width count

section

variable {width : ShiftWidth} {op : ShiftOp} {form : CountForm} (s : ShiftState width.size)
  {count : BitVec 8}

theorem byCount_iterates (h : ¬ SarOutOfRange width op form count) :
    Iterates op.one (maskedCount width count) s (byCount width op form s count) := by
  have h31 := count_le_31 count
  have h63 := count_lt_64 count
  have h8 := count_turn8 count
  have h16 := count_turn16 count
  have hmod8 := mod_lt (count &&& 0x1F#8).toNat (show 0 < 9 by decide)
  have hmod16 := mod_lt (count &&& 0x1F#8).toNat (show 0 < 17 by decide)
  cases width <;> cases op
  case eb.shl | ew.shl => cases form <;> exact shlBy_iterates s _
  case eb.shr | ew.shr => cases form <;> exact shrBy_iterates s (le_succ_of_le h31)
  case ew.sar => cases form <;> exact sarBy_iterates s _
  case eb.sar =>
    cases form with
    | cl => exact sarBy_iterates s _
    | ib => exact sarUnguarded_iterates s (Nat.lt_of_not_le fun h8 => h ⟨rfl, rfl, rfl, h8⟩)
  case eb.rol => cases form <;> exact rolBy_iterates h8.1 h8.2
  case ew.rol => cases form <;> exact rolBy_iterates h16.1 h16.2
  case eb.ror => cases form <;> exact rorBy_iterates h8.1 h8.2
  case ew.ror => cases form <;> exact rorBy_iterates h16.1 h16.2
  case eb.rcl =>
    cases form <;> exact .of_mod (iterate_rclOne_mod (by decide) _ _)
      (rclBy_iterates (by decide) s (le_of_lt_succ hmod8))
  case ew.rcl =>
    cases form <;> exact .of_mod (iterate_rclOne_mod (by decide) _ _)
      (rclBy_iterates (by decide) s (le_of_lt_succ hmod16))
  case eb.rcr =>
    cases form <;> exact .of_mod (iterate_rcrOne_mod (by decide) _ _)
      (rcrBy_iterates (by decide) s (le_of_lt_succ hmod8))
  case ew.rcr =>
    cases form <;> exact .of_mod (iterate_rcrOne_mod (by decide) _ _)
      (rcrBy_iterates (by decide) s (le_of_lt_succ hmod16))
  case eq.shl => cases form <;> exact shlEqBy_iterates s h63
  case eq.shr => cases form <;> exact shrEqBy_iterates s h63
  case eq.sar => cases form <;> exact sarEqBy_iterates s h63
  case eq.rol => cases form <;> exact rolEqBy_iterates s _
  case eq.ror => cases form <;> exact rorEqBy_iterates s _
  case eq.rcl => cases form <;> exact rclEqBy_iterates s h63
  case eq.rcr => cases form <;> exact rcrEqBy_iterates s h63

theorem byCount_of_sarOutOfRange (h : SarOutOfRange width op form count) :
    byCount width op form s count = none := by
  obtain ⟨rfl, rfl, rfl, h8⟩ := h
  have hpos : 0 < maskedCount .eb count := lt_of_lt_of_le (by decide) h8
  exact sarUnguarded_of_ge s hpos h8

end

/-- The handler ends, with the operand and the carry flag of the by-1 handler applied as
often as the masked count says, and with nothing changed when that is zero. -/
def IteratesBy1 (form : CountForm) (s : ShiftState width.size) (count : BitVec 8) : Prop :=
  ∃ s', byCount width op form s count = some s' ∧
    s'.operand = ((by1 width op)^[maskedCount width count] s).operand ∧
    s'.getCf = ((by1 width op)^[maskedCount width count] s).getCf ∧
    (maskedCount width count = 0 → s' = s)

theorem byCount_iterates_by1_iff (width : ShiftWidth) (op : ShiftOp) (form : CountForm)
    (s : ShiftState width.size) (count : BitVec 8) :
    IteratesBy1 width op form s count ↔
      ¬ (width = .eb ∧ op = .sar ∧ form = .ib ∧ 8 ≤ maskedCount width count) := by
  constructor
  · rintro ⟨s', hrun, -⟩ hbad
    rw [byCount_of_sarOutOfRange s hbad] at hrun
    cases hrun
  · intro hgood
    obtain ⟨hmap, hzero⟩ := byCount_iterates s hgood
    obtain ⟨s', hrun, hcarried⟩ := Option.map_eq_some_iff.mp hmap
    rw [← carried_iterate_by1 width op] at hcarried
    refine ⟨s', hrun, congrArg Prod.fst hcarried, congrArg Prod.snd hcarried, fun h0 => ?_⟩
    exact Option.some.inj (hrun.symm.trans (hzero h0))

/-- The byte `0x80`, with all flags clear. -/
def signByte : ShiftState .w8 where
  operand := 0x80#8
  flags := { result := 1, auxbits := 0 }

/-- `sar byte, 8` of `0x80` panics; eight shifts by one leave `0xFF` and a carry. -/
theorem sar_byte_by_eight_panics :
    ¬ IteratesBy1 .eb .sar .ib signByte 8#8 ∧ sarEbIb signByte 8#8 = none ∧
      (sarEb1^[8] signByte).operand = 0xFF#8 ∧ (sarEb1^[8] signByte).getCf = true := by
  refine ⟨?_, by decide, rfl, by decide⟩
  rintro ⟨s', hrun, -⟩
  cases hrun

end RustyBox
