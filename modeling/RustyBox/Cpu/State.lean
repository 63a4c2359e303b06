-- SUMMARY: The processor state that memory accesses read and change.
import RustyBox.Cpu.Tlb
import RustyBox.Lib.Exec
import RustyBox.Lib.LittleEndian

/-!
# Processor state

The fields of the CPU that translation and memory accesses use, with guest RAM and the
histories of the devices and of the registered MMIO callbacks. `accessLog` is a ghost: it
records every data access, for stating what an access did; no modelled function reads it.

A raised exception ends the access: `exception` fails with the state at the raise, so what
its delivery writes afterwards is not part of the access.
-/

namespace RustyBox

/-- The exceptions memory accesses and far transfers raise. -/
inductive Exception
  | ts
  | np
  | ss
  | gp
  | pf
  | ac
  | cp
  deriving DecidableEq, Repr

structure Fault where
  vector : Exception
  errorCode : BitVec 16
  deriving DecidableEq, Repr

/-- The control-register bits paging depends on, with CR3 and the PDPTE cache. -/
structure Control where
  /-- CR0 -/
  pg : Bool
  wp : Bool
  /-- CR4 -/
  pse : Bool
  pae : Bool
  la57 : Bool
  smap : Bool
  pke : Bool
  pks : Bool
  /-- EFER -/
  lma : Bool
  nxe : Bool
  cr3 : BitVec 64
  pdptrcache : Fin 4 → BitVec 64

/-- `linaddr_width`. -/
def Control.linaddrWidth (c : Control) : Nat := if c.la57 then 57 else 48

/-! ## Registered MMIO and page permissions -/

/-- A call of an MMIO callback. -/
structure MmioCall where
  start : BitVec 64
  write : Bool
  paddr : BitVec 64
  size : Nat
  val : BitVec 64
  deriving DecidableEq, Repr

/-- What a read callback returns depends on all earlier calls. -/
structure MmioRegion where
  start : BitVec 64
  size : BitVec 64
  readCb : List MmioCall → BitVec 64 → Nat → BitVec 64
  fits : start.toNat + size.toNat < 2 ^ 64

def MmioRegion.Contains (r : MmioRegion) (addr : BitVec 64) : Prop :=
  r.start.toNat ≤ addr.toNat ∧ addr.toNat < r.start.toNat + r.size.toNat

instance (r : MmioRegion) (addr : BitVec 64) : Decidable (r.Contains addr) :=
  inferInstanceAs (Decidable (_ ∧ _))

structure MemPerms where
  read : Bool
  write : Bool
  exec : Bool
  deriving DecidableEq, Repr

structure PagePermissions where
  pageCount : Nat
  bitmap : Nat → MemPerms

structure MemPermViolation where
  laddr : BitVec 64
  size : Nat
  write : Bool
  deriving DecidableEq, Repr

/-- `PagePermissions::check`; pages out of range are permissive. -/
def PagePermissions.check (pp : PagePermissions) (addr : BitVec 64) (write : Bool) : Bool :=
  let page := addr.toNat / 4096
  if pp.pageCount ≤ page then true
  else if write then (pp.bitmap page).write
  else (pp.bitmap page).read

/-! ## The state -/

/-- Where a data access went. -/
inductive Target
  | ram
  | device
  | mmio (start : BitVec 64)
  deriving DecidableEq, Repr

/-- One data access, `paddr` being the guest-physical address of its first byte. -/
structure DataAccess where
  target : Target
  write : Bool
  paddr : BitVec 64
  len : Nat
  deriving DecidableEq, Repr

/-- `address_xlation`: how the write half of a read-modify-write reaches memory. The host
pointer of the source (`pages > 2`) is `host`, with the RAM offset it points at. -/
inductive AddressXlation
  | empty
  | host (offset : Nat) (paddress1 : BitVec 64)
  | one (paddress1 : BitVec 64)
  | two (paddress1 paddress2 : BitVec 64) (len1 len2 : Nat)

structure Cpu (m : Machine) where
  ctl : Control
  cr2 : BitVec 64
  /-- EFLAGS.AC -/
  ac : Bool
  userPl : Bool
  alignmentCheckMask : BitVec 32
  pkru : BitVec 32
  pkrs : BitVec 32
  rdPkey : BitVec 4 → BitVec 32
  wrPkey : BitVec 4 → BitVec 32
  dtlb : Dtlb m
  addressXlation : AddressXlation
  mmio : List MmioRegion
  mmioLog : List MmioCall
  pagePermissions : Option PagePermissions
  memPermHook : Option (List MemPermViolation → MemPermViolation → Bool)
  permViolations : List MemPermViolation
  ram : Nat → BitVec 8
  deviceLog : List DeviceAccess
  accessLog : List DataAccess

/-- Code that reads and changes the processor and may raise. -/
abbrev CpuM (m : Machine) (α : Type) := EStateM Fault (Cpu m) α

variable {m : Machine}

/-- A supervisor-mode processor with an empty TLB, every protection key open, no
registered MMIO and no page permissions. -/
def Cpu.idle (ctl : Control) (ram : Nat → BitVec 8) : Cpu m where
  ctl := ctl
  cr2 := 0
  ac := false
  userPl := false
  alignmentCheckMask := 0
  pkru := 0
  pkrs := 0
  rdPkey _ := 0xFF
  wrPkey _ := 0xFF
  dtlb := .new
  addressXlation := .empty
  mmio := []
  mmioLog := []
  pagePermissions := none
  memPermHook := none
  permViolations := []
  ram := ram
  deviceLog := []
  accessLog := []

/-- `long_mode`. -/
def Cpu.longMode (s : Cpu m) : Bool := s.ctl.lma

/-- `exception`. -/
def exception {α : Type} (vector : Exception) (errorCode : BitVec 16) : CpuM m α :=
  throw ⟨vector, errorCode⟩

/-- The ghost record of one data access. -/
def Cpu.note (s : Cpu m) (target : Target) (write : Bool) (paddr : BitVec 64) (len : Nat) : Cpu m :=
  { s with accessLog := s.accessLog ++ [⟨target, write, paddr, len⟩] }

end RustyBox
