-- SUMMARY: Canonical checks of memory operands in 64-bit mode.
import RustyBox.Cpu.Mediation
import RustyBox.Cpu.PageRights

/-!
# Canonical operands

The memory operands of 64-bit mode. The `_64` virtual accessors check the linear address
of the first byte before the access; the 64-bit arithmetic, logical, multiply and shift
handlers hand the linear address to the linear accessors without a check.
-/

namespace RustyBox

open Lib

variable {m : Machine}

/-! ## Checks -/

/-- `is_canonical_to_width`. -/
def isCanonicalToWidth (addr : BitVec 64) (width : Nat) : Bool :=
  addr.sshiftRight (width - 1) + 1#64 < 2#64

/-- `is_canonical`. -/
def Cpu.isCanonical (s : Cpu m) (addr : BitVec 64) : Bool :=
  isCanonicalToWidth addr s.ctl.linaddrWidth

/-- The segment bases of 64-bit mode and CR4.LASS. -/
structure Env64 where
  fsBase : BitVec 64
  gsBase : BitVec 64
  lass : Bool

variable (env : Env64) (seg : SegReg)

/-- `get_laddr64`. -/
def Env64.getLaddr64 (offset : BitVec 64) : BitVec 64 :=
  match seg with
  | .fs => env.fsBase + offset
  | .gs => env.gsBase + offset
  | _ => offset

/-- `is_canonical_access` of a data access. -/
def Env64.isCanonicalAccess (s : Cpu m) (laddr : BitVec 64) : Bool :=
  if ¬ s.isCanonical laddr then false
  else if env.lass then
    let accessUserSpace := laddr >>> 63 = 0#64
    if s.userPl then accessUserSpace
    else ¬ (s.ctl.smap ∧ ¬ s.ac ∧ accessUserSpace)
  else true

/-- `check_canonical_data` in 64-bit mode. -/
def checkCanonicalData (laddr : BitVec 64) : CpuM m PUnit := do
  let s ← get
  if ¬ env.isCanonicalAccess s laddr then exception (segException seg) 0#16

/-! ## Operands -/

/-- What an instruction does with a memory operand. The last two are the operands of the
64-bit arithmetic, logical, multiply and shift handlers. -/
inductive MemOperand
  | readVirtual (width : AccessWidth)
  | writeVirtual (width : AccessWidth) (val : BitVec 64)
  | rmwVirtual (width : AccessWidth) (f : BitVec 64 → BitVec 64)
  | readQword
  | rmwQword (f : BitVec 64 → BitVec 64)

namespace MemOperand

/-- The operand goes through the virtual accessors. -/
def Virtual : MemOperand → Prop
  | .readVirtual _ => True
  | .writeVirtual _ _ => True
  | .rmwVirtual _ _ => True
  | .readQword => False
  | .rmwQword _ => False

instance : (op : MemOperand) → Decidable op.Virtual
  | .readVirtual _ => inferInstanceAs (Decidable True)
  | .writeVirtual _ _ => inferInstanceAs (Decidable True)
  | .rmwVirtual _ _ => inferInstanceAs (Decidable True)
  | .readQword => inferInstanceAs (Decidable False)
  | .rmwQword _ => inferInstanceAs (Decidable False)

/-- The linear access it comes to. -/
def toAccess (laddr : BitVec 64) : MemOperand → GuestAccess
  | .readVirtual width => .read width laddr
  | .writeVirtual width val => .write width laddr val
  | .rmwVirtual width f => .rmw width laddr f
  | .readQword => .read .qword laddr
  | .rmwQword f => .rmw .qword laddr f

def width : MemOperand → AccessWidth
  | .readVirtual width => width
  | .writeVirtual width _ => width
  | .rmwVirtual width _ => width
  | .readQword => .qword
  | .rmwQword _ => .qword

/-- The operand at `seg:offset`. -/
def exec (env : Env64) (seg : SegReg) (offset : BitVec 64) (op : MemOperand) : CpuM m PUnit := do
  let laddr := env.getLaddr64 seg offset
  if op.Virtual then checkCanonicalData env seg laddr
  (op.toAccess laddr).perform

end MemOperand

/-! ## Non-canonical operands -/

/-- Some byte of the operand is not canonical. -/
def MemOperand.NonCanonical (s : Cpu m) (op : MemOperand) (laddr : BitVec 64) : Prop :=
  ∃ i < op.width.bytes, ¬ s.isCanonical (laddr + BitVec.ofNat 64 i)

/-- The operand is refused before anything is translated. -/
def MemOperand.Refused (s : Cpu m) (env : Env64) (seg : SegReg) (offset : BitVec 64)
    (op : MemOperand) : Prop :=
  (op.exec env seg offset).run s = .error ⟨segException seg, 0#16⟩ s

theorem checkCanonicalData_run (laddr : BitVec 64) (s : Cpu m) :
    (checkCanonicalData env seg laddr).run s =
      if env.isCanonicalAccess s laddr then .ok ⟨⟩ s else .error ⟨segException seg, 0#16⟩ s := by
  unfold checkCanonicalData
  rw [run_get_bind]
  by_cases h : env.isCanonicalAccess s laddr = true
  · rw [if_neg (not_not_intro h), if_pos h]
    rfl
  · rw [if_pos h, if_neg h]
    rfl

theorem refused_of_check {s : Cpu m} {env : Env64} {seg : SegReg} {offset : BitVec 64}
    {op : MemOperand} (hvirtual : op.Virtual)
    (hcheck : ¬ env.isCanonicalAccess s (env.getLaddr64 seg offset)) :
    op.Refused s env seg offset := by
  unfold MemOperand.Refused MemOperand.exec
  rw [if_pos hvirtual]
  refine run_bind_of_error ?_
  rw [checkCanonicalData_run]
  exact if_neg hcheck

/-- Without page permissions nothing but the check raises #GP or #SS. -/
theorem check_of_refused {s : Cpu m} (hs : Unwatched s) {env : Env64} {seg : SegReg}
    {offset : BitVec 64} {op : MemOperand} (h : op.Refused s env seg offset) :
    op.Virtual ∧ ¬ env.isCanonicalAccess s (env.getLaddr64 seg offset) := by
  by_contra hcond
  have hrest : ((op.toAccess (env.getLaddr64 seg offset)).perform).run s =
      .error ⟨segException seg, 0#16⟩ s := by
    unfold MemOperand.Refused MemOperand.exec at h
    by_cases hvirtual : op.Virtual
    · have hok := checkCanonicalData_run env seg (env.getLaddr64 seg offset) s
      rw [if_pos (not_not.mp fun h => hcond ⟨hvirtual, h⟩)] at hok
      rwa [if_pos hvirtual, run_bind_of_ok hok] at h
    · rwa [if_neg hvirtual] at h
  rcases ((GuestAccess.wp_perform s _).error hrest).memory hs with hfault | hfault <;> cases seg <;>
    cases hfault

/-- Whatever page permissions are installed, an operand with a non-canonical byte is refused
exactly when it goes through the virtual accessors and its first byte does not pass. -/
theorem noncanonical_operand_refused_iff (s : Cpu m) (env : Env64) (seg : SegReg)
    (offset : BitVec 64) (op : MemOperand) :
    (op.NonCanonical s (env.getLaddr64 seg offset) →
        ∀ perms, op.Refused { s with pagePermissions := perms } env seg offset) ↔
      (op.NonCanonical s (env.getLaddr64 seg offset) →
        op.Virtual ∧ ¬ env.isCanonicalAccess s (env.getLaddr64 seg offset)) :=
  imp_congr_right fun _ =>
    ⟨fun h => check_of_refused (s := { s with pagePermissions := none }) rfl (h none),
      fun h _ => refused_of_check h.1 h.2⟩

/-- Four-level tables that map the pages on both sides of the lower edge of the canonical
hole, `0x7FFFFFFFF000` and `0x800000000000`. -/
def edgeTables : Nat → BitVec 8 :=
  let top := store (store (fun _ => 0) 0x17F8 8 0x2007#64) 0x1800 8 0x3007#64
  let low := store (store (store top 0x2FF8 8 0x4007#64) 0x4FF8 8 0x5007#64) 0x5FF8 8 0x6007#64
  store (store (store low 0x3000 8 0x7007#64) 0x7000 8 0x8007#64) 0x8000 8 0x9007#64

def edgeCpu : Cpu smallMachine :=
  .idle ⟨true, true, false, true, false, false, false, false, true, true, 0x1000#64, fun _ => 0⟩
    edgeTables

/-- A handler reads a non-canonical qword, and a virtual read crosses into the hole. -/
theorem noncanonical_operands_read :
    (MemOperand.readQword.NonCanonical edgeCpu 0x800000000000#64 ∧
      succeeded ((MemOperand.readQword.exec ⟨0, 0, false⟩ .ds 0x800000000000#64).run edgeCpu)) ∧
    ((MemOperand.readVirtual .qword).NonCanonical edgeCpu 0x7FFFFFFFFFFC#64 ∧
      succeeded (((MemOperand.readVirtual .qword).exec ⟨0, 0, false⟩ .ds 0x7FFFFFFFFFFC#64).run
        edgeCpu)) := by
  refine ⟨⟨⟨0, by decide, by decide⟩, by decide +kernel⟩, ⟨4, by decide, by decide⟩,
    by decide +kernel⟩

end RustyBox
