-- SUMMARY: Hardware task switches in legacy protected mode with paging off.
import RustyBox.Cpu.Descriptor
import RustyBox.Lib.BitSet

/-!
# Task switches

`task_switch` with its callers: a far CALL to a task-state segment or to a task gate, an
interrupt through a task gate, and an IRET with NT set. Paging is off, so a system access
is an access to RAM at its linear address and none of them fails; CET, VMX and SVM are off.
Sums of 32-bit addresses wrap.
-/

namespace RustyBox

open Lib Positions

/-- The part of the processor a task switch reads and changes. -/
structure TaskProc where
  mem : Nat → BitVec 8
  gdtr : TableReg
  idtr : TableReg
  ldtr : BxSegmentReg
  tr : BxSegmentReg
  sregs : Sregs
  /-- EAX, ECX, EDX, EBX, ESP, EBP, ESI, EDI -/
  gpr : Fin 8 → BitVec 32
  eip : BitVec 32
  eflags : BitVec 32
  /-- CR0.TS -/
  ts : Bool
  dr7 : BitVec 32
  /-- `BX_DEBUG_TRAP_TASK_SWITCH_BIT` of `debug_trap` -/
  trap : Bool

abbrev TaskM (α : Type) := EStateM Fault TaskProc α

/-! ## Constants -/

def bxTaskFromCall : BitVec 32 := 0#32
def bxTaskFromIret : BitVec 32 := 1#32
def bxTaskFromJump : BitVec 32 := 2#32
def bxTaskFromInt : BitVec 32 := 3#32

/-- EFLAGS.NT. -/
def eflagsNt : BitVec 32 := 0x4000#32

/-- `VALID_MASK` and `SUPPORT_MASK`: every flag the processor implements. -/
def eflagsValidMask : BitVec 32 := 0x003F7FD5#32

def SegReg.number : SegReg → Nat
  | .es => 0
  | .cs => 1
  | .ss => 2
  | .ds => 3
  | .fs => 4
  | .gs => 5

/-! ## The task-state segment -/

/-- A register with a place in the task-state segment, of those a switch saves. -/
inductive TssSlot
  | eip
  | eflags
  | gpr (r : Fin 8)
  | seg (r : SegReg)
  deriving DecidableEq

namespace TssSlot

/-- The slots are in this order in both formats. -/
def number : TssSlot → Nat
  | eip => 0
  | eflags => 1
  | gpr r => 2 + r.val
  | seg r => 10 + r.number

/-- The slots of a 286 TSS. -/
def all286 : List TssSlot :=
  [eip, eflags, gpr 0, gpr 1, gpr 2, gpr 3, gpr 4, gpr 5, gpr 6, gpr 7,
    seg .es, seg .cs, seg .ss, seg .ds]

/-- The slots of a 386 TSS. -/
def all : List TssSlot := all286 ++ [seg .fs, seg .gs]

def offset286 (k : TssSlot) : Nat := 14 + 2 * k.number

def offset (k : TssSlot) : Nat := 0x20 + 4 * k.number

/-- A selector is saved and read as a word, its upper half is not touched. -/
def size : TssSlot → Nat
  | seg _ => 2
  | _ => 4

end TssSlot

/-- What a switch reads from the TSS of the new task. -/
structure TssImage where
  slot : TssSlot → BitVec 32
  ldt : BitVec 16
  trap : BitVec 16

variable (img : TssImage)

/-- A selector of the image. -/
def TssImage.selector (r : SegReg) : BitVec 16 := (img.slot (.seg r)).setWidth 16

namespace BxDescriptor

variable (d : BxDescriptor)

/-- A TSS of the 286 format. -/
def isTss286 : Bool := d.type ≤ 3#4

/-- The base of a TSS, as a 32-bit address. -/
def tssBase : BitVec 32 := d.u.segmentBase.setWidth 32

/-- The least limit of a TSS that is entered. -/
def newTssMax : BitVec 32 := if d.isTss286 then 0x2B#32 else 0x67#32

/-- The least limit of a TSS that is left. -/
def oldTssMax : BitVec 32 := if d.isTss286 then 0x29#32 else 0x5F#32

end BxDescriptor

namespace TaskProc

variable (s : TaskProc)

/-- The current privilege level. -/
def cpl : BitVec 2 := (s.sregs .cs).selector.rpl

/-- The value a switch saves in a slot; EFLAGS may have lost NT. -/
def slotValue (oldEflags : BitVec 32) : TssSlot → BitVec 32
  | .eip => s.eip
  | .eflags => oldEflags
  | .gpr r => s.gpr r
  | .seg r => (s.sregs r).selector.value.setWidth 32

/-- Step 5: the current task state is saved in its TSS. -/
def saveState (oldEflags : BitVec 32) : TaskProc :=
  let obase32 := s.tr.cache.tssBase
  let value := s.slotValue oldEflags
  { s with
    mem :=
      if s.tr.cache.isTss286 then
        TssSlot.all286.foldl (fun mem k =>
          store mem (obase32 + BitVec.ofNat 32 k.offset286).toNat 2 (value k)) s.mem
      else
        TssSlot.all.foldl (fun mem k => store mem (obase32.toNat + k.offset) k.size (value k)) s.mem }

variable (sel : Selector) (d : BxDescriptor) (source : BitVec 32)

/-- The upper dword of a TSS descriptor in the GDT; its address is cut to 32 bits. -/
def busyAddr : Nat :=
  ((s.gdtr.base + 8#64 * sel.index.setWidth 64 + 4#64).setWidth 32).toNat

/-- Step 3: the busy bit of the task that is left is cleared in the GDT. -/
def clearBusy : TaskProc :=
  let dword2 : BitVec 32 := load s.mem (s.busyAddr sel) 4
  { s with mem := store s.mem (s.busyAddr sel) 4 (dword2 &&& ~~~0x200#32) }

/-- Step 7: the busy bit of the task that is entered is set in the GDT. -/
def setBusy : TaskProc :=
  let dword2 : BitVec 32 := load s.mem (s.busyAddr sel) 4
  { s with mem := store s.mem (s.busyAddr sel) 4 (dword2 ||| 0x200#32) }

/-- The back link of the task that is entered. -/
def writeLink : TaskProc :=
  { s with mem := store s.mem d.tssBase.toNat 2 s.tr.selector.value }

/-- EFLAGS as they are saved: without NT when the switch is to a busy task. -/
def oldEflags : BitVec 32 :=
  if d.type = 0x3#4 ∨ d.type = 0xB#4 then s.eflags &&& ~~~eflagsNt else s.eflags

/-- Steps 3 to 5, and the link field of the new task. -/
def leave : TaskProc :=
  let s₁ :=
    if source = bxTaskFromJump ∨ source = bxTaskFromIret then s.clearBusy s.tr.selector else s
  let s₂ := s₁.saveState (s.oldEflags d)
  if source = bxTaskFromCall ∨ source = bxTaskFromInt then s₂.writeLink d else s₂

/-- Step 6, one register of a 286 TSS. -/
def readSlot286 (base : BitVec 32) : TssSlot → BitVec 32
  | .seg .fs => 0#32
  | .seg .gs => 0#32
  | .gpr r =>
    0xFFFF0000#32 |||
      (load s.mem (base + BitVec.ofNat 32 (TssSlot.gpr r).offset286).toNat 2).setWidth 32
  | k => (load s.mem (base + BitVec.ofNat 32 k.offset286).toNat 2).setWidth 32

/-- Step 6, one register of a 386 TSS. -/
def readSlot (base : BitVec 32) (k : TssSlot) : BitVec 32 :=
  (load s.mem (base + BitVec.ofNat 32 k.offset).toNat k.size).setWidth 32

/-- Step 6: the new task state is read; CR3 only with paging. -/
def readImage : TssImage :=
  let nbase32 := d.tssBase
  if d.isTss286 then
    { slot := s.readSlot286 nbase32
      ldt := load s.mem (nbase32 + 42#32).toNat 2
      trap := 0#16 }
  else
    { slot := s.readSlot nbase32
      ldt := load s.mem (nbase32 + 0x60#32).toNat 2
      trap := load s.mem (nbase32 + 0x64#32).toNat 2 }

/-- `write_eflags`. -/
def writeEflags (flags changeMask : BitVec 32) : TaskProc :=
  let changeMask := changeMask &&& eflagsValidMask
  { s with eflags := (s.eflags &&& ~~~changeMask) ||| (flags &&& changeMask) }

/-- A register file entry before its descriptor is loaded. -/
def unloaded (r : BxSegmentReg) (raw : BitVec 16) : BxSegmentReg :=
  ⟨parseSelector raw, { r.cache with valid := segInvalid }⟩

/-- Steps 8 to 11: TR, CR0.TS, DR7, and the registers of the new task, with every
descriptor cache invalid. -/
def commit (img : TssImage) (finalEflags : BitVec 32) : TaskProc :=
  { s.writeEflags finalEflags eflagsValidMask with
    tr := ⟨sel, { d with type := d.type ||| 2#4 }⟩
    ts := true
    dr7 := s.dr7 &&& ~~~0x155#32
    eip := img.slot .eip
    gpr := fun r => img.slot (.gpr r)
    sregs := fun r => unloaded (s.sregs r) (img.selector r)
    ldtr := unloaded s.ldtr img.ldt }

/-- What the new task's TSS holds when it is read. -/
def nextImage : TssImage :=
  (s.leave d source).readImage d

/-- Step 10: CALL and interrupts set NT. -/
def finalEflags : BitVec 32 :=
  let newEflags := (s.nextImage d source).slot .eflags
  if source = bxTaskFromCall ∨ source = bxTaskFromInt then newEflags ||| eflagsNt else newEflags

/-- The state in which the segments of the new task are loaded. -/
def arrive : TaskProc :=
  let s₁ := s.leave d source
  let s₂ := if source ≠ bxTaskFromIret then s₁.setBusy sel else s₁
  s₂.commit sel d (s.nextImage d source) (s.finalEflags d source)

/-! ## Descriptors -/

/-- The table a selector refers to. -/
def tableBase : BitVec 64 :=
  if ¬ sel.ti then s.gdtr.base else s.ldtr.cache.u.segmentBase

/-- The address of the descriptor a selector names. -/
def descriptorAddr : Nat :=
  (s.tableBase sel + 8#64 * sel.index.setWidth 64).toNat

/-- The descriptor at an address. -/
def descriptorAt (addr : Nat) : BxDescriptor :=
  let raw : BitVec 64 := load s.mem addr 8
  parseDescriptor (raw.setWidth 32) (raw.extractLsb' 32 32)

/-- The descriptor lies within its table. -/
def inTable : Bool :=
  if ¬ sel.ti then 8 * sel.index.toNat + 7 ≤ s.gdtr.limit.toNat
  else s.ldtr.cache.valid.valid ∧ 8 * sel.index.toNat + 7 ≤ s.ldtr.cache.u.segmentLimitScaled.toNat

/-- `fetch_raw_descriptor` and `parse_descriptor`, a failed fetch becoming the caller's
exception. -/
def fetchDescriptorOr (vector : Exception) : Except Fault BxDescriptor :=
  if s.inTable sel then .ok (s.descriptorAt (s.descriptorAddr sel))
  else .error ⟨vector, selectorError sel.value⟩

def setCache (r : SegReg) (d : BxDescriptor) : TaskProc :=
  { s with sregs := Function.update s.sregs r { s.sregs r with cache := d } }

/-- The CPL alone. -/
def setCpl (rpl : BitVec 2) : TaskProc :=
  let cs := s.sregs .cs
  { s with sregs := Function.update s.sregs .cs { cs with selector := { cs.selector with rpl := rpl } } }

/-- The descriptor cache of a virtual-8086 segment. -/
def v86Cache (selector : BitVec 16) : BxDescriptor :=
  { valid := segValidCache
    p := true
    dpl := 3#2
    segment := true
    type := 3#4
    u := .segment ⟨selector.setWidth 64 <<< 4, 0xFFFF#32, false, false, false, false⟩ }

/-- `load_seg_reg_real_mode` in virtual-8086 mode. -/
def loadSegRegRealMode (r : SegReg) (selector : BitVec 16) : TaskProc :=
  let reg : BxSegmentReg :=
    ⟨{ (s.sregs r).selector with value := selector, rpl := 3#2 }, v86Cache selector⟩
  { s with sregs := Function.update s.sregs r reg }

end TaskProc

/-- A computation that reads the state and may fail. -/
def ofExcept {α : Type} (f : TaskProc → Except Fault α) : TaskM α := fun s =>
  match f s with
  | .ok a => .ok a s
  | .error e => .error e s

/-- `touch_segment`. -/
def touchTaskSegment (sel : Selector) (d : BxDescriptor) : TaskM BxDescriptor := do
  if d.type.getLsbD 0 then return d
  else do
    let d := { d with type := d.type ||| 1#4 }
    modify fun s => { s with mem := store s.mem (s.descriptorAddr sel + 5) 1 d.arByte }
    return d

/-! ## Loading the new task's segments -/

variable (raw : BitVec 16)

/-- The LDT of the new task; a null selector leaves the cache invalid. -/
def loadTaskLdt : TaskM PUnit := do
  let sel := parseSelector raw
  let fault : Fault := ⟨.ts, selectorError raw⟩
  if sel.ti then throw fault
  else if selectorError raw = 0#16 then return
  else do
    let d ← ofExcept fun s => s.fetchDescriptorOr sel .ts
    if ¬ d.valid.valid ∨ d.type ≠ 0x2#4 ∨ d.segment then throw fault
    else if ¬ d.p then throw fault
    else modify fun s => { s with ldtr := { s.ldtr with cache := d } }

/-- The stack segment of the new task. -/
def loadTaskSs (csRpl : BitVec 2) : TaskM PUnit := do
  let sel := parseSelector raw
  let fault : Fault := ⟨.ts, selectorError raw⟩
  if selectorError raw = 0#16 then throw fault
  else do
    let d ← ofExcept fun s => s.fetchDescriptorOr sel .ts
    if ¬ d.valid.valid ∨ ¬ d.segment ∨ isCodeSegment d.type ∨ ¬ isDataSegmentWritable d.type then
      throw fault
    else if ¬ d.p then throw ⟨.ss, selectorError raw⟩
    else if d.dpl ≠ csRpl then throw fault
    else if sel.rpl ≠ d.dpl then throw fault
    else do
      let d ← touchTaskSegment sel d
      modify fun s => s.setCache .ss d

/-- `task_switch_load_selector`; a null selector leaves the cache invalid. -/
def taskSwitchLoadSelector (seg : SegReg) (raw : BitVec 16) (csRpl : BitVec 2) : TaskM PUnit := do
  let sel := parseSelector raw
  let fault : Fault := ⟨.ts, selectorError raw⟩
  if selectorError raw = 0#16 then return
  else do
    let d ← ofExcept fun s => s.fetchDescriptorOr sel .ts
    -- `is_code_segment_readable` and `is_data_segment_writable` test the same bit
    if ¬ d.segment ∨ isCodeSegment d.type ∧ ¬ isDataSegmentWritable d.type then throw fault
    else if (isDataSegment d.type ∨ isCodeSegmentNonConforming d.type) ∧
        (d.dpl < sel.rpl ∨ d.dpl < csRpl) then throw fault
    else if ¬ d.p then throw ⟨.np, selectorError raw⟩
    else do
      let d ← touchTaskSegment sel d
      modify fun s => s.setCache seg d

/-- The code segment of the new task. -/
def loadTaskCs : TaskM PUnit := do
  let sel := parseSelector raw
  let fault : Fault := ⟨.ts, selectorError raw⟩
  if selectorError raw = 0#16 then throw fault
  else do
    let d ← ofExcept fun s => s.fetchDescriptorOr sel .ts
    if ¬ d.valid.valid ∨ ¬ d.segment ∨ isDataSegment d.type then throw fault
    else if isCodeSegmentNonConforming d.type ∧ d.dpl ≠ sel.rpl then throw fault
    else if ¬ isCodeSegmentNonConforming d.type ∧ sel.rpl < d.dpl then throw fault
    else if ¬ d.p then throw ⟨.np, selectorError raw⟩
    else do
      let d ← touchTaskSegment sel d
      modify fun s => s.setCache .cs d

/-- The segments of a task that runs in protected mode. -/
def loadTaskSegments : TaskM PUnit := do
  let csRpl := (parseSelector (img.selector .cs)).rpl
  loadTaskSs (img.selector .ss) csRpl
  modify fun s => s.setCpl csRpl
  taskSwitchLoadSelector .ds (img.selector .ds) csRpl
  taskSwitchLoadSelector .es (img.selector .es) csRpl
  taskSwitchLoadSelector .fs (img.selector .fs) csRpl
  taskSwitchLoadSelector .gs (img.selector .gs) csRpl
  loadTaskCs (img.selector .cs)

/-- The segments of a virtual-8086 task. -/
def TaskProc.loadV86Segments (s : TaskProc) (img : TssImage) : TaskProc :=
  [.ss, .ds, .es, .fs, .gs, .cs].foldl
    (fun s r => s.loadSegRegRealMode r (img.selector r)) s

/-- `push_32` or `push_16`, on the stack of the new task. -/
def pushTaskError (width : AccessWidth) (value : BitVec 32) : TaskM PUnit := do
  let s ← get
  let esp := s.gpr 4
  let big := (s.sregs .ss).cache.u.segmentDB
  let len := BitVec.ofNat 32 width.bytes
  let top := if big then esp - len else ((esp - len).setWidth 16).setWidth 32
  let laddr ← zoom TaskProc.sregs (fun sregs s => { s with sregs := sregs })
    (agenWrite32 .ia32Protected .ss top len)
  let esp' := if big then top else (esp &&& 0xFFFF0000#32) ||| top
  modify fun s =>
    { s with
      mem := store s.mem laddr.toNat width.bytes value
      gpr := Function.update s.gpr 4 esp' }

/-- The segment registers of the new task, by its VM flag. -/
def loadTaskSregs (finalEflags : BitVec 32) : TaskM PUnit :=
  if finalEflags.getLsbD 17 then modify fun s => s.loadV86Segments img
  else loadTaskSegments img

/-- The error code, on the stack of the new task. -/
def pushTaskErrorCode (d : BxDescriptor) : Option (BitVec 32) → TaskM PUnit
  | none => return
  | some code => pushTaskError (if 9#4 ≤ d.type then .dword else .word) code

/-- The T bit of a 386 TSS. -/
def TaskProc.raiseTrap (s : TaskProc) (d : BxDescriptor) (img : TssImage) : TaskProc :=
  if 9#4 ≤ d.type ∧ img.trap.getLsbD 0 then { s with trap := true } else s

/-- The instruction pointer must be in the CS limit. -/
def checkTaskEip (eip : BitVec 32) : TaskM PUnit := do
  let s ← get
  if (s.sregs .cs).cache.u.segmentLimitScaled < eip then throw ⟨.gp, 0#16⟩ else return

/-- From the loads of the new task's segments to the end of the switch. -/
def beginTask (d : BxDescriptor) (img : TssImage) (finalEflags : BitVec 32)
    (error : Option (BitVec 32)) : TaskM PUnit := do
  -- CPL is 3 until SS is loaded
  modify fun s => s.setCpl 3#2
  loadTaskLdt img.ldt
  loadTaskSregs img finalEflags
  pushTaskErrorCode d error
  modify fun s => s.raiseTrap d img
  checkTaskEip (img.slot .eip)

/-- `task_switch`. -/
def taskSwitch (sel : Selector) (d : BxDescriptor) (source : BitVec 32)
    (error : Option (BitVec 32)) : TaskM PUnit := do
  let s ← get
  if d.u.segmentLimitScaled < d.newTssMax then throw ⟨.ts, 0#16⟩
  else if s.tr.cache.u.segmentLimitScaled < s.tr.cache.oldTssMax then throw ⟨.ts, 0#16⟩
  else do
    set (s.arrive sel d source)
    beginTask d (s.nextImage d source) (s.finalEflags d source) error

/-! ## Who switches tasks -/

namespace TaskProc

variable (s : TaskProc)

/-- The TSS a transfer switches to, or `none` for one that stays in the task. -/
abbrev Target := Except Fault (Option (Selector × BxDescriptor))

/-- `task_gate_call`. -/
def taskGateCall (sel : Selector) (gate : BxDescriptor) : Target :=
  if ¬ gate.p then .error ⟨.np, selectorError sel.value⟩
  else
    let raw := match gate.u with
      | .taskGate tssSelector => tssSelector
      | _ => 0#16
    let tss := parseSelector raw
    if tss.ti then .error ⟨.gp, selectorError raw⟩
    else do
      let d ← s.fetchDescriptorOr tss .gp
      if ¬ d.valid.valid ∨ d.segment then .error ⟨.gp, selectorError raw⟩
      else if d.type ≠ 0x1#4 ∧ d.type ≠ 0x9#4 then .error ⟨.gp, selectorError raw⟩
      else if ¬ d.p then .error ⟨.np, selectorError raw⟩
      else .ok (some (tss, d))

/-- `call_protected`, up to the task switch; code segments and call gates stay in the task. -/
def callTarget (csRaw : BitVec 16) : Target :=
  let sel := parseSelector csRaw
  let fault : Fault := ⟨.gp, selectorError csRaw⟩
  if selectorError csRaw = 0#16 then .error ⟨.gp, 0#16⟩
  else do
    let d ← s.fetchDescriptorOr sel .gp
    if ¬ d.valid.valid then .error fault
    else if d.segment then .ok none
    else if d.dpl < s.cpl then .error fault
    else if d.dpl < sel.rpl then .error fault
    else if d.type = 0x5#4 then s.taskGateCall sel d
    else if d.type = 0x4#4 ∨ d.type = 0xC#4 then .ok none
    else if d.type = 0x1#4 ∨ d.type = 0x9#4 then
      if ¬ d.p then .error ⟨.np, selectorError csRaw⟩ else .ok (some (sel, d))
    else .error fault

/-- `protected_mode_int`, up to the task switch; interrupt and trap gates stay in the task. -/
def interruptTarget (vector : BitVec 8) (softInt : Bool) : Target :=
  let errorCode : BitVec 16 := vector.setWidth 16 * 8#16 + 2#16
  if s.idtr.limit.toNat < 8 * vector.toNat + 7 then .error ⟨.gp, errorCode⟩
  else
    let gate := s.descriptorAt (s.idtr.base + 8#64 * vector.setWidth 64).toNat
    if ¬ gate.valid.valid ∨ gate.segment then .error ⟨.gp, errorCode⟩
    else if gate.type ∉ [0x5#4, 0x6#4, 0x7#4, 0xE#4, 0xF#4] then .error ⟨.gp, errorCode⟩
    else if softInt ∧ gate.dpl < s.cpl then .error ⟨.gp, errorCode⟩
    else if ¬ gate.p then .error ⟨.np, errorCode⟩
    else match gate.u with
      | .taskGate tssSelector => do
        -- neither TI nor the kind of the descriptor is checked
        let d ← s.fetchDescriptorOr (parseSelector tssSelector) .ts
        .ok (some (parseSelector tssSelector, d))
      | _ => .ok none

/-- `iret_protected`, up to the task switch; without NT, and in virtual-8086 mode, an IRET
stays in the task. -/
def iretTarget : Target :=
  if s.eflags.getLsbD 17 ∨ ¬ s.eflags.getLsbD 14 then .ok none
  else
    let raw : BitVec 16 := load s.mem s.tr.cache.u.segmentBase.toNat 2
    let link := parseSelector raw
    let fault : Fault := ⟨.ts, selectorError raw⟩
    if link.ti then .error fault
    else do
      let d ← s.fetchDescriptorOr link .ts
      if ¬ d.valid.valid ∨ d.segment then .error fault
      else if d.type ≠ 0x3#4 ∧ d.type ≠ 0xB#4 then .error fault
      else if ¬ d.p then .error ⟨.np, selectorError raw⟩
      else .ok (some (link, d))

end TaskProc

/-- How a transfer ended. -/
inductive TaskTransfer
  | switched
  | withinTask
  deriving DecidableEq

/-- A transfer that switches tasks if it has a target. -/
def transfer (target : TaskProc → TaskProc.Target) (source : BitVec 32) : TaskM TaskTransfer := do
  match ← ofExcept target with
  | none => return .withinTask
  | some (sel, d) => do
    taskSwitch sel d source none
    return .switched

/-- A way into another task: a far CALL, or an interrupt or exception without error code. -/
inductive TaskEntry
  | call (csRaw : BitVec 16)
  | interrupt (vector : BitVec 8) (softInt : Bool)
  deriving DecidableEq

namespace TaskEntry

def target : TaskEntry → TaskProc → TaskProc.Target
  | call csRaw => fun s => s.callTarget csRaw
  | interrupt vector softInt => fun s => s.interruptTarget vector softInt

/-- What each caller passes to `task_switch`: the interrupt path has the literal `0x2`, under
a comment that calls it `BX_TASK_FROM_INT`. -/
def source : TaskEntry → BitVec 32
  | call _ => bxTaskFromCall
  | interrupt _ _ => 0x2#32

def enter (e : TaskEntry) : TaskM TaskTransfer := transfer e.target e.source

end TaskEntry

/-- IRET, of either operand size. -/
def iret : TaskM TaskTransfer := transfer TaskProc.iretTarget bxTaskFromIret

/-- The state a transfer ends in, if it switches tasks. -/
def switchedState : EStateM.Result Fault TaskProc TaskTransfer → Option TaskProc
  | .ok .switched s => some s
  | _ => none

/-- A task entry followed at once by an IRET, if both switch tasks. -/
def TaskEntry.roundTrip (e : TaskEntry) (s : TaskProc) : Option TaskProc := do
  let t ← switchedState (e.enter.run s)
  switchedState (iret.run t)

end RustyBox
