-- SUMMARY: CR0, CR3, CR4 and EFER, and every instruction and event that writes them.
import RustyBox.Cpu.PageWalk
import RustyBox.Cpu.Segment

/-!
# Control registers

The writers of CR0, CR3, CR4 and EFER outside VMX and SVM operation: MOV to a control
register, LMSW, CLTS, WRMSR to EFER, a task switch, SMI entry, RSM and INIT. Each writer
checks its own register against the current value of the others. What a writer reads of
the rest of the processor is in `Surroundings`.
-/

namespace RustyBox

/-! ## Bits -/

/-- `BxCr0`. -/
abbrev Cr0 := BitVec 32

namespace Cr0

variable (v : Cr0)

def pe : Bool := v.getLsbD 0
def wp : Bool := v.getLsbD 16
def nw : Bool := v.getLsbD 29
def cd : Bool := v.getLsbD 30
def pg : Bool := v.getLsbD 31

/-- `set32`: ET is hardwired. -/
def set32 (v : BitVec 32) : Cr0 := v ||| 0x10#32

/-- `cr0_allowed`: PG, CD, NW, AM, WP, NE, ET, TS, EM, MP and PE. -/
def allowed : BitVec 32 := 0xE005003F#32

end Cr0

/-- `BxCr4`. -/
abbrev Cr4 := BitVec 64

namespace Cr4

variable (v : Cr4)

def pae : Bool := v.getLsbD 5
def la57 : Bool := v.getLsbD 12
def vmxe : Bool := v.getLsbD 13
def pcide : Bool := v.getLsbD 17
def cet : Bool := v.getLsbD 23
def fred : Bool := v.getLsbD 32

/-- `flush_mask`: PSE, PAE, PGE, LA57, PCIDE, SMEP, SMAP, PKE, CET, PKS and LASS. -/
def flushMask : BitVec 64 := 0x9F210B0#64

end Cr4

/-- `BxEfer`. -/
abbrev Efer := BitVec 32

namespace Efer

variable (v : Efer)

def lme : Bool := v.getLsbD 8
def lma : Bool := v.getLsbD 10
def svme : Bool := v.getLsbD 12

def lmaBit : BitVec 32 := 0x400#32
def svmeBit : BitVec 32 := 0x1000#32

/-- The bits `BxEfer` defines, which `from_bits_truncate` keeps. -/
def defined : BitVec 32 := 0xFD01#32

/-- `set_lma`. -/
def setLma (on : Bool) : Efer := if on then v ||| lmaBit else v &&& ~~~lmaBit

end Efer

/-! ## State -/

/-- What the CPUID model lets the control registers hold. -/
structure Features where
  cr4Suppmask : BitVec 64
  eferSuppmask : BitVec 32
  x87 : Bool

/-- The masks `get_cr4_allow_mask` and `get_efer_allow_mask` compute for
`core_i7_skylake`. -/
def skylake : Features := ⟨0x3727FF#64, 0xD01#32, true⟩

structure ControlRegs where
  cr0 : Cr0
  cr3 : BitVec 64
  cr4 : Cr4
  efer : Efer
  inSmm : Bool
  deriving DecidableEq

/-- What the writers read of the rest of the processor. -/
structure Surroundings where
  cpl : BitVec 2
  cpuMode : CpuMode
  rip : BitVec 64
  /-- CS.L and the type of TR -/
  csL : Bool
  trType : BitVec 4
  /-- `VM_CR.SVMDIS` -/
  svmDis : Bool
  pageWalkReadQword : BitVec 64 → BitVec 64

/-- How a write ends that does not complete: an exception, the shutdown of an RSM that
refuses its image, or a panic of the emulator. -/
inductive CrStop
  | ud
  | gp
  | shutdown
  | panic
  deriving DecidableEq, Repr

abbrev CrM (α : Type) := EStateM CrStop ControlRegs α

/-- `long_mode`. -/
def ControlRegs.longMode (s : ControlRegs) : Bool := s.efer.lma

/-- The control registers after a hardware reset or an INIT. -/
def resetRegs : ControlRegs := ⟨Cr0.set32 0x60000010#32, 0, 0, 0, false⟩

/-- `check_pdptrs`: no present PDPTE has a reserved bit set. -/
def Surroundings.checkPdptrs (e : Surroundings) (cr3 : BitVec 64) : Bool :=
  let base := cr3 &&& 0xFFFFFFE0#64
  (List.range 4).all fun n =>
    let pdpte := e.pageWalkReadQword (base ||| BitVec.ofNat 64 (8 * n))
    !(pdpte.getLsbD 0 && pdpte &&& pdpteReserved != 0)

/-! ## Writers -/

section Writers

variable (f : Features) (e : Surroundings)

/-- `check_cpl0_for_cr_dr`. -/
def checkCpl0 : CrM Unit :=
  if e.cpl ≠ 0 then throw .gp else return

/-- The value `set_cr0` commits. -/
def cr0Committed (val : BitVec 32) : Cr0 :=
  let masked := val &&& Cr0.allowed
  Cr0.set32 (if f.x87 then masked ||| 0x10#32 else masked)

variable (s : ControlRegs) (val : BitVec 64)

/-- The checks of `set_cr0` on the value alone and against CR4. -/
def cr0Refused (new : Cr0) : Bool :=
  (new.pg && !new.pe) || (new.nw && !new.cd) || (!new.wp && s.cr4.cet)

/-- Paging goes on with EFER.LME set: long mode becomes active. -/
def enterLongMode : CrM Unit := do
  let s ← get
  if !s.cr4.pae then throw .gp
  else if e.csL then throw .gp
  -- a 286 TSS in TR
  else if e.trType ≤ 3#4 then throw .gp
  else set { s with efer := s.efer.setLma true }

/-- Paging goes off while long mode is active. -/
def leaveLongMode : CrM Unit := do
  let s ← get
  if s.cr4.pcide then throw .gp
  else if e.rip >>> 32 ≠ 0 then throw .panic
  else set { s with efer := s.efer.setLma false }

/-- The long-mode transition of `set_cr0`. -/
def longModeTransition (pg : Bool) : CrM Unit := do
  let s ← get
  if !s.cr0.pg && pg then
    if s.efer.lme then enterLongMode e else return
  else if s.cr0.pg && !pg then
    if e.cpuMode = .long64 then throw .gp
    else if s.efer.lma then leaveLongMode e
    else return
  else return

/-- `set_cr0`. -/
def setCr0 : CrM Unit := do
  let s ← get
  let new : Cr0 := val.setWidth 32
  if val >>> 32 ≠ 0 then throw .gp
  else if cr0Refused s new then throw .gp
  else
    longModeTransition e new.pg
    let s ← get
    if new.pg && s.cr4.pae && !s.longMode && !e.checkPdptrs s.cr3 then throw .gp
    else set { s with cr0 := cr0Committed f new }

/-- The checks of `set_cr0` that a write must pass to reach the test of RIP at the exit from
long mode. -/
def exitsLongMode : Bool :=
  let new : Cr0 := val.setWidth 32
  val >>> 32 = 0 && !cr0Refused s new && s.cr0.pg && !new.pg && e.cpuMode ≠ .long64 &&
    s.efer.lma && !s.cr4.pcide

variable {e} in
theorem exitsLongMode_iff {s : ControlRegs} {val : BitVec 64} :
    exitsLongMode e s val ↔
      val >>> 32 = 0 ∧ cr0Refused s (val.setWidth 32) = false ∧ s.cr0.pg ∧
        Cr0.pg (val.setWidth 32) = false ∧ e.cpuMode ≠ .long64 ∧ s.efer.lma ∧
        s.cr4.pcide = false := by
  simp only [exitsLongMode, Bool.and_eq_true, decide_eq_true_eq, Bool.not_eq_true', and_assoc]

/-- `mov_cr0_rd` and `mov_cr0_rq`; the 32-bit form zero-extends its operand. -/
def movCr0 : CrM Unit := do
  checkCpl0 e
  setCr0 f e val

/-- `lmsw_ew`: the low four bits of CR0, except that PE is never cleared. -/
def lmswEw (msw : BitVec 16) : CrM Unit := do
  checkCpl0 e
  let s ← get
  let msw := (if s.cr0.pe then msw ||| 1#16 else msw) &&& 0xF#16
  setCr0 f e (((s.cr0 &&& 0xFFFFFFF0#32) ||| msw.setWidth 32).setWidth 64)

/-- `clts`. -/
def clts : CrM Unit := do
  checkCpl0 e
  modify fun s => { s with cr0 := s.cr0 &&& ~~~8#32 }

/-- `mov_cr3_rd`. -/
def movCr3Rd (val : BitVec 32) : CrM Unit := do
  checkCpl0 e
  let s ← get
  if s.cr0.pg && s.cr4.pae && !s.longMode && !e.checkPdptrs (val.setWidth 64) then throw .gp
  else set { s with cr3 := val.setWidth 64 }

/-- `mov_cr3_rq`: the no-flush hint in bit 63 is dropped. -/
def movCr3Rq : CrM Unit := do
  checkCpl0 e
  modify fun s =>
    { s with cr3 := if s.cr4.pcide then val &&& 0x7FFFFFFFFFFFFFFF#64 else val }

/-- The checks of `set_cr4` that come before the TLB block. -/
def cr4Refused (new : Cr4) : Bool :=
  (new &&& ~~~f.cr4Suppmask != 0) || (s.longMode && !new.pae) || (!s.longMode && new.pcide) ||
    (!s.longMode && new.fred) || (new.vmxe && s.inSmm) || (new.cet && !s.cr0.wp) ||
    (s.longMode && new.la57 != s.cr4.la57)

/-- The checks of `set_cr4` made when a bit of `flush_mask` changes. -/
def cr4FlushRefused (new : Cr4) : Bool :=
  if s.cr0.pg && new.pae && !s.longMode then !e.checkPdptrs s.cr3
  else !s.cr4.pcide && new.pcide && s.cr3 &&& 0xFFF#64 != 0

/-- `set_cr4`. -/
def setCr4 (new : BitVec 64) : CrM Unit := do
  let s ← get
  if cr4Refused f s new then throw .gp
  else if (s.cr4 ^^^ new) &&& Cr4.flushMask ≠ 0 ∧ cr4FlushRefused e s new then throw .gp
  else set { s with cr4 := new }

/-- `mov_cr4_rd` and `mov_cr4_rq`; the 32-bit form zero-extends its operand. -/
def movCr4 : CrM Unit := do
  checkCpl0 e
  setCr4 f e val

/-- The EFER arm of `wrmsr_value`, after the privilege check of `wrmsr`. LMA is not
written. -/
def wrmsrEfer : CrM Unit := do
  checkCpl0 e
  let s ← get
  let new : Efer := val.setWidth 32
  if new &&& ~~~f.eferSuppmask ≠ 0 then throw .gp
  else if s.efer.lme != new.lme && s.cr0.pg then throw .gp
  else if new.svme && e.svmDis then throw .gp
  else
    let kept := (new &&& f.eferSuppmask &&& ~~~Efer.lmaBit) ||| (s.efer &&& Efer.lmaBit)
    set { s with efer := kept &&& Efer.defined }

/-- What `task_switch` does to the control registers: TS is set, and a 386 TSS loads CR3
when paging is on. -/
def taskSwitchRegs (tss386 : Bool) (newCr3 : BitVec 32) : CrM Unit :=
  modify fun s =>
    let s := { s with cr0 := Cr0.set32 (s.cr0 ||| 8#32) }
    if tss386 && s.cr0.pg && newCr3 != 0 then { s with cr3 := newCr3.setWidth 64 } else s

/-! ## System management mode -/

/-- What `enter_system_management_mode` does to the control registers after saving them:
PG, TS, EM and PE are cleared, CR4 too, and of EFER only SVME survives. -/
def ControlRegs.enterSmm : ControlRegs :=
  { s with
    cr0 := Cr0.set32 (s.cr0 &&& ~~~0x8000000D#32)
    cr4 := 0
    efer := if s.efer.svme then Efer.svmeBit else 0
    inSmm := true }

/-- The fields of the save area the control registers are restored from; EFLAGS.VM is
checked against EFER.LMA. -/
structure ControlImage where
  cr0 : BitVec 32
  cr3 : BitVec 64
  cr4 : BitVec 64
  efer : BitVec 32
  vm : Bool
  deriving DecidableEq

variable (image : ControlImage)

/-- The image is refused before anything is loaded. -/
def ControlImage.refusedUnloaded : Bool :=
  Cr4.vmxe image.cr4 || image.efer &&& ~~~f.eferSuppmask != 0

/-- The image is refused after EFER has been loaded from it. -/
def ControlImage.refusedAfterEfer : Bool :=
  (Cr0.pg image.cr0 && !Cr0.pe image.cr0) || (Cr0.nw image.cr0 && !Cr0.cd image.cr0) ||
    image.cr4 &&& ~~~f.cr4Suppmask != 0

/-- The checks made on the registers once all of them are loaded. -/
def ControlRegs.imageRefused : Bool :=
  let consistent := s.cr4.pae && s.cr0.pg && s.cr0.pe && s.efer.lme
  if s.efer.lma then image.vm || !consistent
  else s.cr4.pcide || consistent || (s.cr0.pg && s.cr4.pae && !e.checkPdptrs image.cr3)

/-- The control-register part of `smram_restore_state`, outside VMX operation. -/
def restoreControl : CrM Unit := do
  if image.refusedUnloaded f then throw .shutdown
  else
    modify fun s => { s with efer := image.efer }
    if image.refusedAfterEfer f then throw .shutdown
    else
      modify fun s => { s with cr0 := Cr0.set32 image.cr0, cr4 := image.cr4, cr3 := image.cr3 }
      let s ← get
      if s.imageRefused e image then throw .shutdown else return

/-- What `rsm` does to the control registers. -/
def rsmRegs : CrM Unit := do
  let s ← get
  if !s.inSmm then throw .ud
  else
    set { s with inSmm := false }
    restoreControl f e image

end Writers

/-! ## Runs -/

/-- The instructions and events that write a control register. -/
inductive CrWrite
  | movCr0 (val : BitVec 64)
  | lmsw (msw : BitVec 16)
  | clts
  | movCr3Rd (val : BitVec 32)
  | movCr3Rq (val : BitVec 64)
  | movCr4 (val : BitVec 64)
  | wrmsrEfer (val : BitVec 64)
  | taskSwitch (tss386 : Bool) (newCr3 : BitVec 32)
  | smi
  | rsm (image : ControlImage)
  | init

variable (f : Features)

def CrWrite.exec (e : Surroundings) : CrWrite → CrM Unit
  | .movCr0 val => RustyBox.movCr0 f e val
  | .lmsw msw => lmswEw f e msw
  | .clts => RustyBox.clts e
  | .movCr3Rd val => RustyBox.movCr3Rd e val
  | .movCr3Rq val => RustyBox.movCr3Rq e val
  | .movCr4 val => RustyBox.movCr4 f e val
  | .wrmsrEfer val => RustyBox.wrmsrEfer f e val
  | .taskSwitch tss386 newCr3 => taskSwitchRegs tss386 newCr3
  | .smi => modify ControlRegs.enterSmm
  | .rsm image => rsmRegs f e image
  | .init => set resetRegs

/-- A write with what it reads of the processor at that moment. -/
structure CrEvent where
  surroundings : Surroundings
  write : CrWrite

/-- The control registers at the next instruction boundary. An exception or a shutdown
leaves them as they are where it is raised; what its delivery writes is a further event. -/
def crStep (s : ControlRegs) (ev : CrEvent) : ControlRegs :=
  Lib.finalState ((ev.write.exec f ev.surroundings).run s)

/-- The control registers at the instruction boundaries of an execution from reset. -/
def boundaries (evs : List CrEvent) : List ControlRegs :=
  evs.scanl (crStep f) resetRegs

end RustyBox
