-- SUMMARY: System management mode: the state save area, SMI entry and RSM.
import RustyBox.Cpu.ControlRegs
import RustyBox.Cpu.Descriptor
import Mathlib.Data.BitVec

/-!
# System management mode

An SMI saves the processor in 128 dwords below `smbase + 0x10000` and puts it into a
real-mode environment at `smbase + 0x8000`; RSM reads the dwords back, checks them and
loads the processor from them. `SmmProc` has what is saved, with the event mask and guest
RAM, outside VMX and SVM operation. RAM is indexed by physical address after A20 and
backs the whole save area.
-/

namespace RustyBox

open Lib

/-! ## State -/

structure SmmProc where
  /-- RAX to R15; RSP is number 4 -/
  gpr : Fin 16 → BitVec 64
  rip : BitVec 64
  ssp : BitVec 64
  /-- EFLAGS with the lazy flags put in -/
  eflags : BitVec 32
  dr6 : BitVec 32
  dr7 : BitVec 32
  cr : ControlRegs
  gdtr : TableReg
  idtr : TableReg
  smbase : BitVec 32
  sregs : Sregs
  ldtr : BxSegmentReg
  tr : BxSegmentReg
  eventMask : BitVec 32
  cpuMode : CpuMode
  ram : Nat → BitVec 8

/-- What does not change: the CPUID model, the A20 line, and what `page_walk_read_qword`
returns for given contents of RAM. -/
structure SmmMachine where
  features : Features
  machine : Machine
  pageWalkReadQword : (Nat → BitVec 8) → BitVec 64 → BitVec 64

abbrev SmmM (α : Type) := EStateM CrStop SmmProc α

/-- `BX_EVENT_NMI`, `BX_EVENT_SMI` and `BX_EVENT_VMX_VIRTUAL_NMI`, held while in SMM. -/
def smmHeldEvents : BitVec 32 := 0x83#32

/-- The events `handle_interrupt_mask_change` moves with EFLAGS.IF. -/
def ifGatedEvents : BitVec 32 := 0xE40#32

namespace SmmProc

variable (s : SmmProc)

/-- NMIs are blocked. -/
def nmiBlocked : Bool := s.eventMask.getLsbD 0

def maskEvent (events : BitVec 32) : SmmProc :=
  { s with eventMask := s.eventMask ||| events }

def unmaskEvent (events : BitVec 32) : SmmProc :=
  { s with eventMask := s.eventMask &&& ~~~events }

/-- `handle_interrupt_mask_change`. -/
def handleInterruptMaskChange : SmmProc :=
  if s.eflags.getLsbD 9 then s.unmaskEvent ifGatedEvents else s.maskEvent ifGatedEvents

def setCs (r : BxSegmentReg) : SmmProc :=
  { s with sregs := Function.update s.sregs .cs r }

/-- `handle_cpu_mode_change`. -/
def handleCpuModeChange : SmmProc :=
  let cs := s.sregs .cs
  if s.cr.efer.lma then
    if cs.cache.u.segmentL then { s with cpuMode := .long64 }
    else
      -- the upper halves of RIP and RSP are cleared
      { s with
        cpuMode := .longCompat
        rip := s.rip &&& 0xFFFFFFFF#64
        gpr := Function.update s.gpr 4 (s.gpr 4 &&& 0xFFFFFFFF#64) }
  else if s.cr.cr0.pe then
    if s.eflags.getLsbD 17 then
      { s with cpuMode := .ia32V8086 }.setCs { cs with selector := { cs.selector with rpl := 3 } }
    else { s with cpuMode := .ia32Protected }
  else
    { s with cpuMode := .ia32Real }.setCs
      { selector := { cs.selector with rpl := 0 }
        cache := { cs.cache with p := true, segment := true, type := 3 } }

/-- `set_eflags_internal`. -/
def setEflagsInternal (new : BitVec 32) : SmmProc :=
  let new := if s.cr.longMode then new &&& ~~~0x20000#32 else new
  let old := s.eflags
  let s := { s with eflags := new }
  let s := if old.getLsbD 9 != new.getLsbD 9 then s.handleInterruptMaskChange else s
  if old.getLsbD 17 != new.getLsbD 17 then s.handleCpuModeChange else s

/-- What `finish_context_switch` does to the modelled state. -/
def finishContextSwitch : SmmProc :=
  s.handleInterruptMaskChange.handleCpuModeChange

end SmmProc

/-! ## The save area -/

inductive TablePart
  | baseHi
  | base
  | limit
  deriving DecidableEq

inductive SegPart
  | baseHi
  | base
  | limit
  | selectorAr
  deriving DecidableEq

/-- The fields of `SMMRAM_Fields` that are saved. -/
inductive SmramField
  | smbase
  | revision
  | gprHi (n : Fin 16)
  | gpr (n : Fin 16)
  | ripHi
  | rip
  | sspHi
  | ssp
  | eflags
  | dr6
  | dr7
  | cr0
  | cr3Hi
  | cr3
  | cr4Hi
  | cr4
  | efer
  | gdtr (part : TablePart)
  | idtr (part : TablePart)
  | tr (part : SegPart)
  | ldtr (part : SegPart)
  | seg (r : SegReg) (part : SegPart)
  deriving DecidableEq

def TablePart.offset : TablePart → Nat
  | .limit => 0x4
  | .base => 0x8
  | .baseHi => 0xC

def SegPart.offset : SegPart → Nat
  | .selectorAr => 0x0
  | .limit => 0x4
  | .base => 0x8
  | .baseHi => 0xC

/-- Where a segment register's fields start. -/
def SegReg.smramOffset : SegReg → Nat
  | .es => 0x7E00
  | .cs => 0x7E10
  | .ss => 0x7E20
  | .ds => 0x7E30
  | .fs => 0x7E40
  | .gs => 0x7E50

namespace SmramField

/-- The addresses of `init_smram`. -/
def offset : SmramField → Nat
  | smbase => 0x7F00
  | revision => 0x7EFC
  | gprHi n => 0x7FFC - 8 * n
  | gpr n => 0x7FF8 - 8 * n
  | ripHi => 0x7F7C
  | rip => 0x7F78
  | sspHi => 0x7F44
  | ssp => 0x7F40
  | eflags => 0x7F70
  | dr6 => 0x7F68
  | dr7 => 0x7F60
  | cr0 => 0x7F58
  | cr3Hi => 0x7F54
  | cr3 => 0x7F50
  | cr4Hi => 0x7F4C
  | cr4 => 0x7F48
  | efer => 0x7ED0
  | gdtr part => 0x7E60 + part.offset
  | idtr part => 0x7E80 + part.offset
  | tr part => 0x7E90 + part.offset
  | ldtr part => 0x7E70 + part.offset
  | seg r part => r.smramOffset + part.offset

/-- `smram_map`: `smram_translate` of the address. -/
def index (fld : SmramField) : Fin 128 := Fin.ofNat 128 ((0x8000 - fld.offset) / 4 - 1)

def allTable (table : TablePart → SmramField) : List SmramField :=
  [table .baseHi, table .base, table .limit]

def allSeg (seg : SegPart → SmramField) : List SmramField :=
  [seg .baseHi, seg .base, seg .limit, seg .selectorAr]

/-- The fields in the order `smram_save_state` writes them. -/
def all : List SmramField :=
  (List.finRange 16).flatMap (fun n => [gprHi n, gpr n]) ++
    [ripHi, rip, eflags, sspHi, ssp, dr6, dr7, cr0, cr3Hi, cr3, cr4Hi, cr4, efer, smbase,
      revision] ++
    allTable gdtr ++ allTable idtr ++ allSeg tr ++ allSeg ldtr ++
    [SegReg.es, .cs, .ss, .ds, .fs, .gs].flatMap fun r => allSeg (seg r)

end SmramField

/-- The 128 dwords. -/
abbrev SmramImage := Fin 128 → BitVec 32

namespace SmramImage

/-- `smram_get`. -/
def get (im : SmramImage) (fld : SmramField) : BitVec 32 := im fld.index

/-- `smram_get64`. -/
def get64 (im : SmramImage) (hi lo : SmramField) : BitVec 64 := im.get hi ++ im.get lo

end SmramImage

def hi32 (v : BitVec 64) : BitVec 32 := (v >>> 32).setWidth 32
def lo32 (v : BitVec 64) : BitVec 32 := v.setWidth 32

/-- Bit `k` of an access-rights word. -/
def arBit (k : Nat) (c : Bool) : BitVec 16 := if c then BitVec.twoPow 16 k else 0

/-- `valid != 0`. -/
def SegAccess.nonzero (a : SegAccess) : Bool := a.valid || a.rok || a.wok || a.rok4g || a.wok4g

/-- `pack_seg_ar`. -/
def packSegAr (d : BxDescriptor) : BitVec 16 :=
  let u := d.u.segmentPart
  d.type.setWidth 16 ||| arBit 4 d.segment ||| (d.dpl.setWidth 16 <<< 5) ||| arBit 7 d.p |||
    arBit 8 d.valid.nonzero ||| arBit 12 u.avl ||| arBit 13 u.l ||| arBit 14 u.dB |||
    arBit 15 u.g

/-- What is saved of GDTR or IDTR. -/
def TableReg.dword (t : TableReg) : TablePart → BitVec 32
  | .baseHi => hi32 t.base
  | .base => lo32 t.base
  | .limit => t.limit.setWidth 32

variable (r : BxSegmentReg) (im : SmramImage) (c : SmmMachine) (s : SmmProc)

/-- What is saved of a segment register, LDTR or TR. -/
def BxSegmentReg.dword : SegPart → BitVec 32
  | .baseHi => hi32 r.cache.u.segmentBase
  | .base => lo32 r.cache.u.segmentBase
  | .limit => r.cache.u.segmentLimitScaled
  | .selectorAr => packSegAr r.cache ++ r.selector.value

/-- What `smram_save_state` puts into each field. -/
def SmmProc.dword : SmramField → BitVec 32
  | .smbase => s.smbase
  | .revision => 0x20064#32
  | .gprHi n => hi32 (s.gpr n)
  | .gpr n => lo32 (s.gpr n)
  | .ripHi => hi32 s.rip
  | .rip => lo32 s.rip
  | .sspHi => hi32 s.ssp
  | .ssp => lo32 s.ssp
  | .eflags => s.eflags
  | .dr6 => s.dr6
  | .dr7 => s.dr7
  | .cr0 => s.cr.cr0
  | .cr3Hi => hi32 s.cr.cr3
  | .cr3 => lo32 s.cr.cr3
  | .cr4Hi => hi32 s.cr.cr4
  | .cr4 => lo32 s.cr.cr4
  | .efer => s.cr.efer
  | .gdtr part => s.gdtr.dword part
  | .idtr part => s.idtr.dword part
  | .tr part => s.tr.dword part
  | .ldtr part => s.ldtr.dword part
  | .seg r part => (s.sregs r).dword part

/-- `smram_save_state`. -/
def SmmProc.smramSaveState : SmramImage :=
  SmramField.all.foldl (fun im fld => Function.update im fld.index (s.dword fld)) 0

/-! ## Physical accesses -/

section Physical

variable (m : Machine)

/-- A dword access the memory system refuses, because it crosses a page boundary. -/
def crossesPage (paddr : BitVec 64) : Bool := paddr >>> 12 ≠ (paddr + 3#64) >>> 12

/-- `smram_write_physical_dword`; a refused store is dropped. -/
def smramWritePhysicalDword (ram : Nat → BitVec 8) (paddr : BitVec 64) (v : BitVec 32) :
    Nat → BitVec 8 :=
  if crossesPage paddr then ram else store ram (m.applyA20 paddr).toNat 4 v

/-- `smram_read_physical_dword`; a refused read returns 0. -/
def smramReadPhysicalDword (ram : Nat → BitVec 8) (paddr : BitVec 64) : BitVec 32 :=
  if crossesPage paddr then 0 else load ram (m.applyA20 paddr).toNat 4

variable (smbase : BitVec 32)

/-- Dword `i` of the save area: they are counted down from `smbase + 0x10000`. -/
def smramDwordAddr (i : Fin 128) : BitVec 64 :=
  smbase.setWidth 64 + 0x10000#64 - BitVec.ofNat 64 (4 * (i + 1))

/-- The loop of `enter_system_management_mode` over the dwords. -/
def writeSaveArea (im : SmramImage) (ram : Nat → BitVec 8) : Nat → BitVec 8 :=
  (List.finRange 128).foldl
    (fun ram i => smramWritePhysicalDword m ram (smramDwordAddr smbase i) (im i)) ram

/-- The loop of `rsm` over the dwords. -/
def readSaveArea (ram : Nat → BitVec 8) : SmramImage :=
  fun i => smramReadPhysicalDword m ram (smramDwordAddr smbase i)

end Physical

/-! ## SMI -/

/-- The `set_segment_*` setters; another variant is left as it is. -/
def Descriptor.mapSegment (u : Descriptor) (f : DescriptorSegment → DescriptorSegment) :
    Descriptor :=
  match u with
  | .segment s => .segment (f s)
  | u => u

/-- A segment register in SMM: 4 GiB of 16-bit data from `base` on. -/
def smmSegment (selector : BitVec 16) (base : BitVec 64) : BxSegmentReg where
  selector := parseSelector selector
  cache :=
    { valid := ⟨true, true, true, true, true⟩
      p := true
      dpl := 0
      segment := true
      type := 3
      u := r.cache.u.mapSegment fun _ => ⟨base, 0xFFFFFFFF#32, true, false, false, false⟩ }

/-- The segment registers at SMI entry. -/
def smmSregs (sregs : Sregs) (smbase : BitVec 32) : Sregs
  | .cs => smmSegment (sregs .cs) ((smbase >>> 4).setWidth 16) (smbase.setWidth 64)
  | r => smmSegment (sregs r) 0 0

namespace SmmProc

/-- What `enter_system_management_mode` changes before it saves the state. -/
def leaveForSmm (s : SmmProc) : SmmProc :=
  { s with cr := { s.cr with cr4 := s.cr.cr4 &&& ~~~0x2000#64, inSmm := true } }.maskEvent
    smmHeldEvents

/-- `enter_system_management_mode`. -/
def enterSystemManagementMode (m : Machine) (s : SmmProc) : SmmProc :=
  let s := s.leaveForSmm
  let s := { s with ram := writeSaveArea m s.smbase s.smramSaveState s.ram }
  let s := s.setEflagsInternal 2#32
  { s with
    rip := 0x8000#64
    dr7 := 0x400#32
    cr := s.cr.enterSmm
    sregs := smmSregs s.sregs s.smbase }.finishContextSwitch

end SmmProc

/-! ## RSM -/

/-- The descriptor types `set_segment_ar_data` knows among the system ones: LDT and the
TSSs. -/
def isTssOrLdt (type : BitVec 4) : Bool :=
  type = 2 ∨ type = 1 ∨ type = 3 ∨ type = 9 ∨ type = 11

/-- The part of `set_segment_ar_data` that depends on the kind of descriptor. -/
def Descriptor.setSegmentFields (u : Descriptor) (valid segment : Bool) (type : BitVec 4)
    (d : DescriptorSegment) : Descriptor :=
  if segment || !valid then u.mapSegment fun _ => d
  -- L is left alone
  else if isTssOrLdt type then u.mapSegment fun old => { d with l := old.l }
  else u

/-- `set_segment_ar_data`; the validity it returns is that of the result. -/
def setSegmentArData (valid : Bool) (rawSelector : BitVec 16) (base : BitVec 64)
    (limitScaled : BitVec 32) (ar : BitVec 16) : BxSegmentReg where
  selector := parseSelector rawSelector
  cache :=
    { valid := ⟨valid, false, false, false, false⟩
      p := ar.getLsbD 7
      dpl := (ar >>> 5).setWidth 2
      segment := ar.getLsbD 4
      type := ar.setWidth 4
      u := r.cache.u.setSegmentFields valid (ar.getLsbD 4) (ar.setWidth 4)
        ⟨base, limitScaled, ar.getLsbD 15, ar.getLsbD 14, ar.getLsbD 13, ar.getLsbD 12⟩ }

/-- The call of `set_segment_ar_data` for the fields of one register. -/
def BxSegmentReg.restore (fld : SegPart → SmramField) : BxSegmentReg :=
  let selar := im.get (fld .selectorAr)
  let ar : BitVec 16 := (selar >>> 16).setWidth 16
  setSegmentArData r (ar.getLsbD 8) (selar.setWidth 16) (im.get64 (fld .baseHi) (fld .base))
    (im.get (fld .limit)) ar

def TableReg.ofImage (fld : TablePart → SmramField) : TableReg :=
  ⟨im.get64 (fld .baseHi) (fld .base), (im.get (fld .limit)).setWidth 16⟩

def SmramImage.control : ControlImage where
  cr0 := im.get .cr0
  cr3 := im.get64 .cr3Hi .cr3
  cr4 := im.get64 .cr4Hi .cr4
  efer := im.get .efer
  vm := (im.get .eflags).getLsbD 17

/-- What `restoreControl` reads of the processor is only the PDPTEs. -/
def SmmProc.surroundings : Surroundings where
  cpl := (s.sregs .cs).selector.rpl
  cpuMode := s.cpuMode
  rip := s.rip
  csL := (s.sregs .cs).cache.u.segmentL
  trType := s.tr.cache.type
  svmDis := false
  pageWalkReadQword := c.pageWalkReadQword s.ram

/-- The registers `smram_restore_state` loads between EFLAGS and the segments. -/
def SmmProc.loadRegs (im : SmramImage) : SmmProc :=
  { s with
    gpr := fun n => im.get64 (.gprHi n) (.gpr n)
    rip := im.get64 .ripHi .rip
    ssp := im.get64 .sspHi .ssp
    dr6 := im.get .dr6
    dr7 := im.get .dr7
    gdtr := .ofImage im .gdtr
    idtr := .ofImage im .idtr }

/-- The loop over the segment registers: a valid one must be a code or data segment. -/
def restoreSegs (im : SmramImage) : List SegReg → SmmM Unit
  | [] => return
  | seg :: rest => do
    let s ← get
    let r := (s.sregs seg).restore im (.seg seg)
    set { s with sregs := Function.update s.sregs seg r }
    if r.cache.valid.nonzero && !r.cache.segment then throw .shutdown
    else restoreSegs im rest

/-- A valid LDTR must be an LDT. -/
def restoreLdtr : SmmM Unit := do
  let s ← get
  let r := s.ldtr.restore im .ldtr
  set { s with ldtr := r }
  if r.cache.valid.nonzero && r.cache.type ≠ 2 then throw .shutdown else return

/-- The types `smram_restore_state` accepts for a valid TR. -/
def isTss (type : BitVec 4) : Bool := type = 1 ∨ type = 3 ∨ type = 9 ∨ type = 11

/-- A valid TR must be a TSS. -/
def restoreTr : SmmM Unit := do
  let s ← get
  let r := s.tr.restore im .tr
  set { s with tr := r }
  if r.cache.valid.nonzero && !isTss r.cache.type then throw .shutdown else return

/-- `smram_restore_state`. -/
def smramRestoreState (im : SmramImage) : SmmM Unit := do
  let s ← get
  zoom SmmProc.cr (fun cr s => { s with cr := cr })
    (restoreControl c.features (s.surroundings c) im.control)
  modify fun s => (s.setEflagsInternal (im.get .eflags)).loadRegs im
  restoreSegs im [.es, .cs, .ss, .ds, .fs, .gs]
  restoreLdtr im
  restoreTr im
  modify fun s => { s with smbase := im.get .smbase }.finishContextSwitch

/-- `rsm`, outside VMX and SVM operation. -/
def rsm : SmmM Unit := do
  let s ← get
  if !s.cr.inSmm then throw .ud
  else
    let im := readSaveArea c.machine s.smbase s.ram
    set { s.unmaskEvent smmHeldEvents with cr := { s.cr with inSmm := false } }
    smramRestoreState c im

end RustyBox
