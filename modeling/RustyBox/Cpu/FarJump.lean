-- SUMMARY: Far jumps in protected and long mode.
import RustyBox.Cpu.Canonical
import RustyBox.Cpu.Descriptor

/-!
# Far jumps

`jump_protected` with the gates it goes through. A jump to a task-state segment ends in
`Landing.task`: the task switch itself is not part of it.
-/

namespace RustyBox

open Lib

variable {m : Machine}

/-- How a jump ended: at an address, or with a switch to another task. -/
inductive Landing
  | here
  | task (selector : BitVec 16)
  deriving DecidableEq

/-! ## Loading CS -/

namespace Proc

/-- `update_fetch_mode_mask`, of which `user_pl` is modelled. -/
def updateFetchModeMask (p : Proc m) : Proc m :=
  { p with cpu := { p.cpu with userPl := p.cpl = 3#2 } }

/-- `handle_alignment_check`. -/
def handleAlignmentCheck (p : Proc m) : Proc m :=
  { p with cpu := { p.cpu with
    alignmentCheckMask := if p.cpl = 3#2 ∧ p.am ∧ p.cpu.ac then 0xF#32 else 0#32 } }

/-- `handle_cpu_mode_change` with EFER.LMA set: leaving 64-bit mode clears the upper halves
of RIP and RSP. -/
def handleLongModeChange (p : Proc m) : Proc m :=
  if (p.sregs .cs).cache.u.segmentL then { p with cpuMode := .long64 }.updateFetchModeMask
  else { p with
    cpuMode := .longCompat
    rip := p.rip &&& 0xFFFFFFFF#64
    rsp := p.rsp &&& 0xFFFFFFFF#64 }.updateFetchModeMask

end Proc

/-- `check_cs`. -/
def checkCs (d : BxDescriptor) (csRaw : BitVec 16) (checkRpl checkCpl : BitVec 2) :
    ProcM m PUnit := do
  let p ← get
  if ¬ d.valid.valid ∨ ¬ d.segment ∨ isDataSegment d.type then raise .gp (selectorError csRaw)
  else if p.cpu.longMode ∧ d.u.segmentL ∧ d.u.segmentDB then raise .gp (selectorError csRaw)
  else if isCodeSegmentNonConforming d.type ∧ (d.dpl ≠ checkCpl ∨ checkCpl < checkRpl) then
    raise .gp (selectorError csRaw)
  else if ¬ isCodeSegmentNonConforming d.type ∧ checkCpl < d.dpl then
    raise .gp (selectorError csRaw)
  else if ¬ d.p then raise .np (selectorError csRaw)
  else return ⟨⟩

variable (sel : Selector)

/-- The selector with its RPL replaced, as `load_cs` stores it. -/
def Selector.withRpl (cpl : BitVec 2) : Selector :=
  { sel with value := selectorError sel.value ||| cpl.setWidth 16, rpl := cpl }

/-- `load_cs`. -/
def loadCs (d : BxDescriptor) (cpl : BitVec 2) : ProcM m PUnit := do
  let sel := sel.withRpl cpl
  let d ← touchSegment sel d
  modify fun p => p.setSreg .cs ⟨sel, { d with valid := segValidCache }⟩
  modify fun p => if p.cpu.longMode then p.handleLongModeChange else p
  modify fun p => p.updateFetchModeMask.handleAlignmentCheck

/-- The target is a 64-bit code segment. -/
def Proc.targets64 (p : Proc m) (d : BxDescriptor) : Bool := p.cpu.longMode ∧ d.u.segmentL

/-- `branch_far`: the offset is checked against the new segment before CS is loaded. -/
def branchFar (d : BxDescriptor) (rip : BitVec 64) (cpl : BitVec 2) : ProcM m PUnit := do
  let p ← get
  let rip := if p.targets64 d then rip else rip &&& 0xFFFFFFFF#64
  if p.targets64 d ∧ ¬ p.cpu.isCanonical rip then raise .gp 0#16
  else if ¬ p.targets64 d ∧ d.u.segmentLimitScaled < rip.setWidth 32 then raise .gp 0#16
  else do
    loadCs sel d cpl
    modify fun p => { p with rip := rip }

/-! ## Jumps -/

/-- `jmp_call_gate`. -/
def jmpCallGate (gate : BxDescriptor) : ProcM m PUnit := do
  let raw := gate.u.gatePart.destSelector
  if ¬ gate.p then raise .np (selectorError sel.value)
  else if selectorError raw = 0#16 then raise .gp 0#16
  else do
    let cs := parseSelector raw
    let d ← fetchDescriptorOr cs .gp
    let p ← get
    checkCs d raw 0#2 p.cpl
    branchFar cs d (gate.u.gatePart.destOffset.setWidth 64) p.cpl

/-- `jmp_call_gate64`. -/
def jmpCallGate64 : ProcM m PUnit := do
  let (dword1, dword2, dword3) ← fetchRawDescriptor64 sel
  let gate := (parseDescriptor dword1 dword2).u.gatePart
  if selectorError gate.destSelector = 0#16 then raise .gp 0#16
  else do
    let cs := parseSelector gate.destSelector
    let d ← fetchDescriptorOr cs .gp
    let p ← get
    if ¬ d.valid.valid ∨ ¬ d.segment ∨ isDataSegment d.type then
      raise .gp (selectorError gate.destSelector)
    else if ¬ d.u.segmentL ∨ d.u.segmentDB then raise .gp (selectorError gate.destSelector)
    else do
      checkCs d gate.destSelector 0#2 p.cpl
      branchFar cs d (dword3 ++ gate.destOffset) p.cpl

/-- `task_gate_jmp`. -/
def taskGate (gate : BxDescriptor) : ProcM m Landing := do
  let raw := match gate.u with
    | .taskGate tss => tss
    | _ => 0#16
  if ¬ gate.p then raise .np (selectorError sel.value)
  else if (parseSelector raw).ti then raise .gp (selectorError raw)
  else do
    let d ← fetchDescriptorOr (parseSelector raw) .gp
    if ¬ d.valid.valid ∨ d.segment then raise .gp (selectorError raw)
    else if d.type ≠ 0x1#4 ∧ d.type ≠ 0x9#4 then raise .gp (selectorError raw)
    else if ¬ d.p then raise .np (selectorError raw)
    else return .task raw

/-- `jump_protected`. -/
def jumpProtected (csRaw : BitVec 16) (disp : BitVec 64) : ProcM m Landing := do
  if selectorError csRaw = 0#16 then raise .gp 0#16
  else do
    let sel := parseSelector csRaw
    let (dword1, dword2) ← fetchRawDescriptor sel
    let d := parseDescriptor dword1 dword2
    let p ← get
    if d.segment then do
      checkCs d csRaw sel.rpl p.cpl
      branchFar sel d disp p.cpl
      return .here
    else if d.dpl < p.cpl then raise .gp (selectorError csRaw)
    else if d.dpl < sel.rpl then raise .gp (selectorError csRaw)
    else if p.cpu.longMode then
      if d.type ≠ 0xC#4 then raise .gp (selectorError csRaw)
      else if ¬ d.p then raise .np (selectorError csRaw)
      else do
        jmpCallGate64 sel
        return .here
    else if d.type = 0x1#4 ∨ d.type = 0x9#4 then
      if ¬ d.valid.valid ∨ sel.ti then raise .gp (selectorError csRaw)
      else if ¬ d.p then raise .np (selectorError csRaw)
      else return .task csRaw
    else if d.type = 0x5#4 then taskGate sel d
    else if d.type = 0x4#4 ∨ d.type = 0xC#4 then do
      jmpCallGate sel d
      return .here
    else raise .gp (selectorError csRaw)

/-! ## The privilege level of a jump -/

section Privilege

open Frame

variable {α : Type} {P : BitVec 2 → Prop} (sel : Selector)

/-- The CPL stays in `P`, whatever the outcome. -/
abbrev cplIn (m : Machine) (P : BitVec 2 → Prop) : Frame (Proc m) := .preserving fun p => P p.cpl

theorem cplIn_onCpu (y : CpuM m α) : (cplIn m P).Holds (onCpu y) := by
  intro p hp
  cases hr : y.run p.cpu with
  | ok a t =>
    rw [onCpu, run_zoom_of_ok hr]
    exact hp
  | error e t =>
    rw [onCpu, run_zoom_of_error hr]
    exact hp

theorem cplIn_descriptorAddr (len : Nat) : (cplIn m P).Holds (descriptorAddr sel len) :=
  Holds.get.bind fun _ => .ite (.ite (.throw _) (.pure _))
    (.ite (.throw _) (.ite (.throw _) (.pure _)))

theorem cplIn_fetchRawDescriptor : (cplIn m P).Holds (fetchRawDescriptor sel) :=
  (cplIn_descriptorAddr sel 8).bind fun _ => (cplIn_onCpu _).bind fun _ => .pure _

theorem cplIn_fetchDescriptorOr (vector : Exception) :
    (cplIn m P).Holds (fetchDescriptorOr sel vector) := by
  intro p hp
  have h := cplIn_fetchRawDescriptor sel p hp
  show P (finalState (fetchDescriptorOr sel vector p)).cpl
  unfold fetchDescriptorOr
  revert h
  cases (fetchRawDescriptor sel).run p <;> exact id

variable (d : BxDescriptor) {raw : BitVec 16} {rpl cpl : BitVec 2} {rip : BitVec 64}

theorem cplIn_checkCs : (cplIn m P).Holds (checkCs d raw rpl cpl) :=
  Holds.get.bind fun _ => .ite (.throw _) <| .ite (.throw _) <| .ite (.throw _) <|
    .ite (.throw _) <| .ite (.throw _) (.pure _)

theorem cplIn_branchFar (hcpl : P cpl) : (cplIn m P).Holds (branchFar sel d rip cpl) := by
  refine Holds.get.bind fun _ => .ite (.throw _) <| .ite (.throw _) <| .bind ?_ fun _ =>
    .modify fun _ hp => hp
  -- `load_cs`: the accessed bit, the register, the mode
  refine .bind (.ite (.pure _) (Holds.get.bind fun _ => (cplIn_onCpu _).bind fun _ => .pure _))
    fun _ => .bind (.modify fun _ _ => hcpl) fun _ => .bind (.modify fun p hp => ?_) fun _ =>
      .modify fun _ hp => hp
  unfold Proc.handleLongModeChange
  split_ifs <;> exact hp

theorem cplIn_jmpCallGate (gate : BxDescriptor) : (cplIn m P).Holds (jmpCallGate sel gate) :=
  .ite (.throw _) <| .ite (.throw _) <| (cplIn_fetchDescriptorOr _ _).bind fun d =>
    .get_bind fun _ hp => (cplIn_checkCs d).bind fun _ => cplIn_branchFar _ d hp

theorem cplIn_jmpCallGate64 : (cplIn m P).Holds (jmpCallGate64 sel) := by
  have hraw : (cplIn m P).Holds (fetchRawDescriptor64 sel) :=
    (cplIn_descriptorAddr sel 16).bind fun _ => (cplIn_onCpu _).bind fun _ =>
      (cplIn_onCpu _).bind fun _ => .ite (.throw _) (.pure _)
  exact hraw.bind fun _ => .ite (.throw _) <| (cplIn_fetchDescriptorOr _ _).bind fun d =>
    .get_bind fun _ hp => .ite (.throw _) <| .ite (.throw _) <|
      (cplIn_checkCs d).bind fun _ => cplIn_branchFar _ d hp

theorem cplIn_taskGate (gate : BxDescriptor) : (cplIn m P).Holds (taskGate sel gate) :=
  .ite (.throw _) <| .ite (.throw _) <| (cplIn_fetchDescriptorOr _ _).bind fun _ =>
    .ite (.throw _) <| .ite (.throw _) <| .ite (.throw _) (.pure _)

/-- A far jump stays at its privilege level, through a gate or not, completed or refused, up to a
task switch it starts. -/
theorem far_jump_keeps_cpl (p : Proc m) (csRaw : BitVec 16) (disp : BitVec 64) :
    (finalState ((jumpProtected csRaw disp).run p)).cpl = p.cpl := by
  have h (P : BitVec 2 → Prop) : (cplIn m P).Holds (jumpProtected csRaw disp) := by
    refine .ite (.throw _) <| (cplIn_fetchRawDescriptor _).bind fun _ => .get_bind fun _ hp =>
      .ite ?_ <| .ite (.throw _) <| .ite (.throw _) <| .ite ?_ <| .ite ?_ <|
        .ite (cplIn_taskGate _ _) <| .ite ((cplIn_jmpCallGate _ _).bind fun _ => .pure _) (.throw _)
    · exact (cplIn_checkCs _).bind fun _ => (cplIn_branchFar _ _ hp).bind fun _ => .pure _
    · exact .ite (.throw _) <| .ite (.throw _) <| (cplIn_jmpCallGate64 _).bind fun _ => .pure _
    · exact .ite (.throw _) <| .ite (.throw _) (.pure _)
  exact h (· = p.cpl) p rfl

end Privilege

end RustyBox
