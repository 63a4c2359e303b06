-- SUMMARY: The 16-bit multiply, divide, bit-scan, bit-test, count and byte-swap handlers, and what they leave of a register.
import RustyBox.Cpu.Canonical
import RustyBox.Cpu.LazyFlags
import RustyBox.Lib.BitSet

/-!
# 16-bit destinations in 64-bit mode

The handlers of `cpu/mult16.rs`, `cpu/bit16.rs`, the bit tests of `cpu/logical16.rs` and the
16-bit forms in `cpu/bit32.rs`. Most write their result through `set_gpr16`, which replaces
the low word of a register. POPCNT, LZCNT, TZCNT and the load form of MOVBE write it through
`set_gpr32`, with the upper half of the low doubleword put back: the upper half of the
register is then zeroed with every 32-bit write.
-/

namespace RustyBox

open Lib Function BitVec LazyFlags Positions

variable {m : Machine}

/-! ## Registers and operands -/

/-- `gpr` are the sixteen general registers and `special` what follows them in `gen_reg`:
RIP, SSP, the temporary and the register that is always zero. -/
structure WordProc (m : Machine) where
  gpr : Fin 16 → BitVec 64
  special : Fin 4 → BitVec 64
  oszapc : LazyFlags
  mem : Cpu m

inductive WordFault
  | divide
  | memory (f : Fault)

abbrev WordM (m : Machine) (α : Type) := EStateM WordFault (WordProc m) α

/-- The fields of a decoded instruction that the handlers read. -/
structure WordInstr where
  modC0 : Bool
  dst : Fin 16
  src : Fin 16
  seg : SegReg
  ib : BitVec 8
  iw : BitVec 16
  sibBase : Nat
  sibIndex : Nat
  sibScale : Nat
  displ32s : BitVec 32
  as64L : Bool
  as32L : Bool

namespace WordProc

variable (s : WordProc m)

variable (r : Fin 16) (i : WordInstr)

def getGpr16 : BitVec 16 := (s.gpr r).setWidth 16
def getGpr32 : BitVec 32 := (s.gpr r).setWidth 32

/-- The bits that a 16-bit write leaves alone. -/
def upper48 : BitVec 48 := (s.gpr r).extractLsb' 16 48

/-- `set_gpr16`. -/
def setGpr16 (val : BitVec 16) : WordProc m :=
  { s with gpr := update s.gpr r (s.upper48 r ++ val) }

/-- `set_gpr32`. -/
def setGpr32 (val : BitVec 32) : WordProc m :=
  { s with gpr := update s.gpr r (0#32 ++ val) }

def withFlags (f : LazyFlags → LazyFlags) : WordProc m := { s with oszapc := f s.oszapc }

/-- An entry of `gen_reg`. -/
def genReg (i : Nat) : BitVec 64 :=
  if h : i < 16 then s.gpr ⟨i, h⟩
  else if h : i < 20 then s.special ⟨i - 16, by omega⟩
  else 0

/-- `resolve_addr64`. -/
def resolveAddr64 : BitVec 64 :=
  let eaddr := s.genReg i.sibBase + i.displ32s.signExtend 64
  if i.sibIndex ≠ 4 then
    eaddr + (if i.sibIndex < 16 then s.genReg i.sibIndex else 0) <<< i.sibScale
  else eaddr

/-- `resolve_addr32`. -/
def resolveAddr32 : BitVec 32 :=
  let base : BitVec 32 :=
    if i.sibBase < 16 then (s.genReg i.sibBase).setWidth 32
    else if i.sibBase = 16 then (s.special 0).setWidth 32
    else 0
  let eaddr := base + i.displ32s
  let eaddr :=
    if i.sibIndex ≠ 4 then
      eaddr + (if i.sibIndex < 16 then (s.genReg i.sibIndex).setWidth 32 else 0) <<< i.sibScale
    else eaddr
  if i.as32L then eaddr else eaddr &&& 0xFFFF#32

/-- `resolve_addr`. -/
def resolveAddr : BitVec 64 :=
  if i.as64L then s.resolveAddr64 i else (s.resolveAddr32 i).setWidth 64

end WordProc

/-- A memory access of an instruction. -/
def onMemory {α : Type} (x : CpuM m α) : WordM m α := fun s =>
  match x.run s.mem with
  | .ok a mem => .ok a { s with mem := mem }
  | .error f mem => .error (.memory f) { s with mem := mem }

variable (env : Env64) (i : WordInstr) (x : BitVec 64) (result : BitVec 16)

/-- `read_virtual_word_64`. -/
def readVirtualWord64 (seg : SegReg) (offset : BitVec 64) : CpuM m (BitVec 16) := do
  let laddr := env.getLaddr64 seg offset
  checkCanonicalData env seg laddr
  readLinearWord laddr

/-- `read_rmw_virtual_word_64`. -/
def readRmwVirtualWord64 (seg : SegReg) (offset : BitVec 64) : CpuM m (BitVec 16) := do
  let laddr := env.getLaddr64 seg offset
  checkCanonicalData env seg laddr
  readRmwLinear 2 memReadWord laddr

/-- `write_rmw_linear_word`. -/
def writeRmwLinearWord (val : BitVec 16) : CpuM m PUnit :=
  writeRmwLinear 2 (Cpu.memWriteWord · .data) val

/-- The register operand, or the word in memory. -/
def readEw (r : Fin 16) : WordM m (BitVec 16) := do
  let s ← get
  if i.modC0 then return s.getGpr16 r
  else onMemory (readVirtualWord64 env i.seg (s.resolveAddr i))

/-! ## Multiplication and division -/

/-- The carry and overflow of a multiplication that does not fit. -/
def mulFlags (low : BitVec 16) (overflows : Bool) (s : WordProc m) : WordProc m :=
  let s := s.withFlags (setOszapcLogic16 low)
  if overflows then s.withFlags assertFlagsOxxxxC else s

/-- A product into DX:AX. -/
def writeProduct (product : BitVec 32) (overflows : Bool) : WordM m PUnit := do
  let low := product.setWidth 16
  let high := (product >>> 16).setWidth 16
  modify (·.setGpr16 0 low)
  modify (·.setGpr16 2 high)
  modify (mulFlags low overflows)

/-- `mul_ax_ew`. -/
def mulAxEw : WordM m PUnit := do
  let op1 := (← get).getGpr16 0
  let op2 ← readEw env i i.dst
  let product := op1.setWidth 32 * op2.setWidth 32
  writeProduct product ((product >>> 16).setWidth 16 ≠ 0#16)

/-- `imul_ax_ew`. -/
def imulAxEw : WordM m PUnit := do
  let op1 := (← get).getGpr16 0
  let op2 ← readEw env i i.dst
  let product := op1.signExtend 32 * op2.signExtend 32
  writeProduct product (product ≠ (product.setWidth 16).signExtend 32)

/-- A quotient into AX and a remainder into DX. -/
def writeQuotient (quotient remainder : BitVec 16) : WordM m PUnit := do
  modify (·.setGpr16 0 quotient)
  modify (·.setGpr16 2 remainder)

/-- `div_ax_ew`. -/
def divAxEw : WordM m PUnit := do
  let op2 ← readEw env i i.dst
  if op2 = 0#16 then throw .divide
  else
    let s ← get
    let op1 : BitVec 32 := s.getGpr16 2 ++ s.getGpr16 0
    let quotient := op1 / op2.setWidth 32
    let remainder := (op1 % op2.setWidth 32).setWidth 16
    let low := quotient.setWidth 16
    if quotient ≠ low.setWidth 32 then throw .divide
    else writeQuotient low remainder

/-- `idiv_ax_ew`. -/
def idivAxEw : WordM m PUnit := do
  let s ← get
  let op1 : BitVec 32 := s.getGpr16 2 ++ s.getGpr16 0
  if op1 = 0x80000000#32 then throw .divide
  else
    let op2 ← readEw env i i.dst
    if op2 = 0#16 then throw .divide
    else
      let quotient := op1.sdiv (op2.signExtend 32)
      let remainder := (op1.srem (op2.signExtend 32)).setWidth 16
      let low := quotient.setWidth 16
      if quotient ≠ low.signExtend 32 then throw .divide
      else writeQuotient low remainder

/-- The low word of a signed product into the destination. -/
def writeLowProduct (dst : Fin 16) (op1 op2 : BitVec 16) : WordM m PUnit := do
  let product := op1.signExtend 32 * op2.signExtend 32
  let result := product.setWidth 16
  modify (·.setGpr16 dst result)
  modify (mulFlags result (product ≠ result.signExtend 32))

/-- `imul_gw_ew`. -/
def imulGwEw : WordM m PUnit := do
  let op1 := (← get).getGpr16 i.dst
  let op2 ← readEw env i i.src
  writeLowProduct i.dst op1 op2

/-- `imul_gw_ew_iw`. -/
def imulGwEwIw : WordM m PUnit := do
  let op1 ← readEw env i i.src
  writeLowProduct i.dst op1 i.iw

/-- `imul_gw_ew_sib`. -/
def imulGwEwsIb : WordM m PUnit := do
  let op1 ← readEw env i i.src
  writeLowProduct i.dst op1 (i.ib.signExtend 16)

/-! ## Bit scans -/

/-- A bit scan; `index` is only used on a nonzero operand. -/
def bitScan (index : BitVec 32 → BitVec 32) : WordM m PUnit := do
  let op2 := (← readEw env i i.src).setWidth 32
  if op2 = 0#32 then modify (·.withFlags (setZf true))
  else
    let idx := (index op2).setWidth 16
    modify (·.withFlags (setOszapcLogic16 idx))
    modify (·.withFlags (setZf false))
    modify (·.setGpr16 i.dst idx)

/-- `bsf_gw_ew`. -/
def bsfGwEw : WordM m PUnit := bitScan env i ctz

/-- `bsr_gw_ew`. -/
def bsrGwEw : WordM m PUnit := bitScan env i fun x => 31#32 - x.clz

/-! ## Bit tests -/

/-- A bit test that changes the bit, in a register or in the word at `addr`. -/
def bitTest (addr : WordProc m → BitVec 64) (bit : Nat)
    (change : BitVec 16 → BitVec 16 → BitVec 16) : WordM m PUnit := do
  let s ← get
  if i.modC0 then
    let op1 := s.getGpr16 i.dst
    modify (·.withFlags (setCf (op1.getLsbD bit)))
    modify (·.setGpr16 i.dst (change op1 (1#16 <<< bit)))
  else
    let op1 ← onMemory (readRmwVirtualWord64 env i.seg (addr s))
    modify (·.withFlags (setCf (op1.getLsbD bit)))
    onMemory (writeRmwLinearWord (change op1 (1#16 <<< bit)))

/-- `bit_test_ew_gw_addr`: the word that holds the bit. -/
def bitTestEwGwAddr (op2 : BitVec 16) (s : WordProc m) : BitVec 64 :=
  let displacement := ((op2 &&& 0xFFF0#16).sdiv 16#16).signExtend 64 * 2#64
  let addr := s.resolveAddr i + displacement
  if i.as64L then addr else if i.as32L then addr &&& 0xFFFFFFFF#64 else addr &&& 0xFFFF#64

/-- The forms with an immediate bit number. -/
def bitTestEwIb (change : BitVec 16 → BitVec 16 → BitVec 16) : WordM m PUnit :=
  bitTest env i (·.resolveAddr i) (i.ib &&& 0x0F#8).toNat change

/-- The forms with the bit number in a register. -/
def bitTestEwGw (change : BitVec 16 → BitVec 16 → BitVec 16) : WordM m PUnit := do
  let op2 := (← get).getGpr16 i.src
  bitTest env i (bitTestEwGwAddr i op2) (op2 &&& 0x0F#16).toNat change

def btsEwIb : WordM m PUnit := bitTestEwIb env i fun x b => x ||| b
def btrEwIb : WordM m PUnit := bitTestEwIb env i fun x b => x &&& ~~~b
def btcEwIb : WordM m PUnit := bitTestEwIb env i fun x b => x ^^^ b
def btsEwGw : WordM m PUnit := bitTestEwGw env i fun x b => x ||| b
def btrEwGw : WordM m PUnit := bitTestEwGw env i fun x b => x &&& ~~~b
def btcEwGw : WordM m PUnit := bitTestEwGw env i fun x b => x ^^^ b

/-! ## Counts and the byte swap -/

/-- The result put under the upper half of the doubleword, which is then written as one. -/
def writeThroughDword (dst : Fin 16) (result : BitVec 16) : WordM m PUnit :=
  modify fun s =>
    s.setGpr32 dst ((s.getGpr32 dst &&& 0xFFFF0000#32) ||| result.setWidth 32)

/-- `popcnt_gw_ew`. -/
def popcntGwEw : WordM m PUnit := do
  let op2 ← readEw env i i.src
  let result := op2.cpop
  writeThroughDword i.dst result
  modify (·.withFlags (setOszapcLogic32 1#32))
  if result = 0#16 then modify (·.withFlags (setZf true))

/-- The flags of LZCNT and TZCNT. -/
def countFlags (op2 result : BitVec 16) : WordM m PUnit := do
  modify (·.withFlags (setCf (op2 = 0#16)))
  modify (·.withFlags (setZf (result = 0#16)))

/-- `lzcnt_gw_ew`. -/
def lzcntGwEw : WordM m PUnit := do
  let op2 ← readEw env i i.src
  writeThroughDword i.dst op2.clz
  countFlags op2 op2.clz

/-- `tzcnt_gw_ew`. -/
def tzcntGwEw : WordM m PUnit := do
  let op2 ← readEw env i i.src
  writeThroughDword i.dst op2.ctz
  countFlags op2 op2.ctz

/-- `swap_bytes`. -/
def swapBytes (v : BitVec 16) : BitVec 16 := v.extractLsb' 0 8 ++ v.extractLsb' 8 8

/-- `movbe_gw_mw`. -/
def movbeGwMw : WordM m PUnit := do
  let s ← get
  let val ← onMemory (readVirtualWord64 env i.seg (s.resolveAddr i))
  writeThroughDword i.dst (swapBytes val)

/-! ## One instruction -/

inductive WordOp
  | mul | imul | div | idiv | imulGw | imulGwIw | imulGwIb
  | bsf | bsr | btsIb | btrIb | btcIb | btsGw | btrGw | btcGw
  | popcnt | lzcnt | tzcnt | movbe
  deriving DecidableEq

namespace WordOp

def exec (env : Env64) (i : WordInstr) : WordOp → WordM m PUnit
  | mul => mulAxEw env i
  | imul => imulAxEw env i
  | div => divAxEw env i
  | idiv => idivAxEw env i
  | imulGw => imulGwEw env i
  | imulGwIw => imulGwEwIw env i
  | imulGwIb => imulGwEwsIb env i
  | bsf => bsfGwEw env i
  | bsr => bsrGwEw env i
  | btsIb => btsEwIb env i
  | btrIb => btrEwIb env i
  | btcIb => btcEwIb env i
  | btsGw => btsEwGw env i
  | btrGw => btrEwGw env i
  | btcGw => btcEwGw env i
  | popcnt => popcntGwEw env i
  | lzcnt => lzcntGwEw env i
  | tzcnt => tzcntGwEw env i
  | movbe => movbeGwMw env i

/-- The destination registers. A bit test in memory has none. -/
def destinations (i : WordInstr) : WordOp → List (Fin 16)
  | mul | imul | div | idiv => [0, 2]
  | imulGw | imulGwIw | imulGwIb | bsf | bsr | popcnt | lzcnt | tzcnt | movbe => [i.dst]
  | btsIb | btrIb | btcIb | btsGw | btrGw | btcGw => if i.modC0 then [i.dst] else []

/-- The handlers that write through a doubleword. -/
def ThroughDword : WordOp → Prop
  | popcnt | lzcnt | tzcnt | movbe => True
  | _ => False

end WordOp

/-! ## What a 16-bit destination leaves -/

/-- Bits 63 to 16 of the registers in `ds` and all of the others are as they were. -/
def KeepsRest (ds : List (Fin 16)) (s s' : WordProc m) : Prop :=
  ∀ r, if r ∈ ds then s'.upper48 r = s.upper48 r else s'.gpr r = s.gpr r

/-- `KeepsRest` along a computation. -/
def keepsRest (m : Machine) (ds : List (Fin 16)) : Frame (WordProc m) where
  rel := KeepsRest ds
  refl _ := fun r => by split <;> rfl
  trans h h' := fun r => by
    have hr := h r
    have hr' := h' r
    split at hr
    next hd =>
      rw [if_pos hd] at hr' ⊢
      exact hr'.trans hr
    next hd =>
      rw [if_neg hd] at hr' ⊢
      exact hr'.trans hr

section Frames

variable {ds : List (Fin 16)}

theorem keepsRest_of_gpr {s s' : WordProc m} (h : s'.gpr = s.gpr) : KeepsRest ds s s' := by
  intro r
  unfold WordProc.upper48
  rw [h]
  split <;> rfl

theorem holds_onMemory {α : Type} (x : CpuM m α) : (keepsRest m ds).Holds (onMemory x) := by
  intro s
  change KeepsRest ds s (finalState (onMemory x s))
  unfold onMemory
  split <;> exact keepsRest_of_gpr rfl

theorem holds_withFlags (f : LazyFlags → LazyFlags) :
    (keepsRest m ds).Holds (modify (·.withFlags f) : WordM m PUnit) :=
  .modify fun _ => keepsRest_of_gpr rfl

theorem holds_setGpr16 {r : Fin 16} (hr : r ∈ ds) (val : BitVec 16) :
    (keepsRest m ds).Holds (modify (·.setGpr16 r val) : WordM m PUnit) := by
  refine .modify fun s r' => ?_
  by_cases h : r' = r
  · subst h
    rw [if_pos hr]
    show (update s.gpr r' (s.upper48 r' ++ val) r').extractLsb' 16 48 = s.upper48 r'
    rw [update_self]
    exact extractLsb'_append_eq_left
  · simp [WordProc.setGpr16, WordProc.upper48, h]

theorem holds_mulFlags (low : BitVec 16) (overflows : Bool) :
    (keepsRest m ds).Holds (modify (mulFlags low overflows) : WordM m PUnit) := by
  refine .modify fun s => keepsRest_of_gpr ?_
  unfold mulFlags
  split <;> rfl

variable {i : WordInstr} (env : Env64)

theorem holds_readEw (i : WordInstr) (r : Fin 16) :
    (keepsRest m ds).Holds (readEw env i r : WordM m _) :=
  .bind .get fun _ => .ite (.pure _) (holds_onMemory _)

theorem holds_writeProduct (h0 : 0 ∈ ds) (h2 : 2 ∈ ds) (product : BitVec 32) (overflows : Bool) :
    (keepsRest m ds).Holds (writeProduct product overflows : WordM m PUnit) :=
  .bind (holds_setGpr16 h0 _) fun _ => .bind (holds_setGpr16 h2 _) fun _ => holds_mulFlags _ _

theorem holds_writeQuotient (h0 : 0 ∈ ds) (h2 : 2 ∈ ds) (quotient remainder : BitVec 16) :
    (keepsRest m ds).Holds (writeQuotient quotient remainder : WordM m PUnit) :=
  .bind (holds_setGpr16 h0 _) fun _ => holds_setGpr16 h2 _

theorem holds_writeLowProduct {dst : Fin 16} (hdst : dst ∈ ds) (op1 op2 : BitVec 16) :
    (keepsRest m ds).Holds (writeLowProduct dst op1 op2 : WordM m PUnit) :=
  .bind (holds_setGpr16 hdst _) fun _ => holds_mulFlags _ _

theorem holds_bitScan (hdst : i.dst ∈ ds) (index : BitVec 32 → BitVec 32) :
    (keepsRest m ds).Holds (bitScan env i index : WordM m PUnit) :=
  .bind (holds_readEw env i i.src) fun _ =>
    .ite (holds_withFlags _) <| .bind (holds_withFlags _) fun _ =>
      .bind (holds_withFlags _) fun _ => holds_setGpr16 hdst _

theorem holds_bitTest (hdst : i.modC0 = true → i.dst ∈ ds) (addr : WordProc m → BitVec 64)
    (bit : Nat) (change : BitVec 16 → BitVec 16 → BitVec 16) :
    (keepsRest m ds).Holds (bitTest env i addr bit change) := by
  refine .bind .get fun s => ?_
  split
  next h => exact .bind (holds_withFlags _) fun _ => holds_setGpr16 (hdst h) _
  · exact .bind (holds_onMemory _) fun _ => .bind (holds_withFlags _) fun _ => holds_onMemory _

variable (hdst : i.modC0 = true → i.dst ∈ ds) (change : BitVec 16 → BitVec 16 → BitVec 16)
include hdst

theorem holds_bitTestEwIb : (keepsRest m ds).Holds (bitTestEwIb env i change : WordM m PUnit) :=
  holds_bitTest env hdst _ _ _

theorem holds_bitTestEwGw : (keepsRest m ds).Holds (bitTestEwGw env i change : WordM m PUnit) :=
  .bind .get fun _ => holds_bitTest env hdst _ _ _

end Frames

namespace WordOp

variable {env : Env64} {i : WordInstr}

/-- A handler that writes its result through `set_gpr16` keeps the rest of the register. -/
theorem holds_exec {op : WordOp} (hop : ¬ op.ThroughDword) :
    (keepsRest m (op.destinations i)).Holds (op.exec env i : WordM m PUnit) := by
  have hdst : i.modC0 = true → i.dst ∈ btsIb.destinations i := by simp +contextual [destinations]
  cases op with
  | mul | imul => exact .bind .get fun _ => .bind (holds_readEw env i i.dst) fun _ =>
      holds_writeProduct (by simp [destinations]) (by simp [destinations]) _ _
  | div =>
    refine .bind (holds_readEw env i i.dst) fun _ => .ite (.throw _) ?_
    refine .bind .get fun _ => .ite (.throw _) ?_
    exact holds_writeQuotient (by simp [destinations]) (by simp [destinations]) _ _
  | idiv =>
    refine .bind .get fun _ => .ite (.throw _) ?_
    refine .bind (holds_readEw env i i.dst) fun _ => .ite (.throw _) (.ite (.throw _) ?_)
    exact holds_writeQuotient (by simp [destinations]) (by simp [destinations]) _ _
  | imulGw => exact .bind .get fun _ => .bind (holds_readEw env i i.src) fun _ =>
      holds_writeLowProduct (by simp [destinations]) _ _
  | imulGwIw | imulGwIb => exact .bind (holds_readEw env i i.src) fun _ =>
      holds_writeLowProduct (by simp [destinations]) _ _
  | bsf => exact holds_bitScan env (by simp [destinations]) ctz
  | bsr => exact holds_bitScan env (by simp [destinations]) fun x => 31#32 - x.clz
  | btsIb => exact holds_bitTestEwIb env hdst fun x b => x ||| b
  | btrIb => exact holds_bitTestEwIb env hdst fun x b => x &&& ~~~b
  | btcIb => exact holds_bitTestEwIb env hdst fun x b => x ^^^ b
  | btsGw => exact holds_bitTestEwGw env hdst fun x b => x ||| b
  | btrGw => exact holds_bitTestEwGw env hdst fun x b => x &&& ~~~b
  | btcGw => exact holds_bitTestEwGw env hdst fun x b => x ^^^ b
  | popcnt | lzcnt | tzcnt | movbe => exact absurd trivial hop

end WordOp

/-! ## The write through a doubleword -/

/-- The register as it is left: the low word is the result, the next one is kept, and the
upper doubleword is zero. -/
def dwordWritten : BitVec 64 :=
  0#32 ++ ((x.setWidth 32 &&& 0xFFFF0000#32) ||| result.setWidth 32)

theorem getLsbD_dwordWritten {j : Nat} (hj : 16 ≤ j) :
    (dwordWritten x result).getLsbD j = (decide (j < 32) && x.getLsbD j) := by
  have hmask : ∀ k < 32, 16 ≤ k → (0xFFFF0000#32).getLsbD k = true := by decide
  unfold dwordWritten
  rw [getLsbD_append]
  by_cases h : j < 32
  · simp [hmask j h hj, getLsbD_of_ge result j hj]
  · simp [h]

/-- Bits 63 to 16 survive exactly if bits 63 to 32 are zero. -/
theorem upper_dwordWritten :
    (dwordWritten x result).extractLsb' 16 48 = x.extractLsb' 16 48 ↔
      x.extractLsb' 32 32 = 0#32 := by
  constructor
  · intro h
    apply eq_of_getLsbD_eq
    intro j hj
    have hbit := congrArg (·.getLsbD (16 + j)) h
    have h48 : 16 + j < 48 := by omega
    have hsum : 16 + (16 + j) = 32 + j := by omega
    simp only [getLsbD_extractLsb', h48, hsum,
      getLsbD_dwordWritten x result (show 16 ≤ 32 + j by omega)] at hbit
    simpa [hj] using hbit.symm
  · intro h
    apply eq_of_getLsbD_eq
    intro j hj
    simp only [getLsbD_extractLsb', getLsbD_dwordWritten x result (show 16 ≤ 16 + j by omega)]
    by_cases hlow : 16 + j < 32
    · simp [hlow]
    · have hbit := congrArg (·.getLsbD (j - 16)) h
      have hsum : 32 + (j - 16) = 16 + j := by omega
      have hlt : j - 16 < 32 := by omega
      simp only [getLsbD_extractLsb', hsum, hlt] at hbit
      have hzero : x.getLsbD (16 + j) = false := by simpa using hbit
      simp [hzero]

theorem gpr_of_keepsRest_nil {s s' : WordProc m} (h : KeepsRest [] s s') : s'.gpr = s.gpr :=
  funext fun r => by simpa using h r

/-- Only the destination changes, so only it can lose something. -/
theorem keepsRest_singleton {s s' : WordProc m} {dst : Fin 16} {result : BitVec 16}
    (h : s'.gpr = update s.gpr dst (dwordWritten (s.gpr dst) result)) :
    KeepsRest [dst] s s' ↔ (s.gpr dst).extractLsb' 32 32 = 0#32 := by
  rw [← upper_dwordWritten (s.gpr dst) result]
  have hdst : s'.upper48 dst = (dwordWritten (s.gpr dst) result).extractLsb' 16 48 := by
    unfold WordProc.upper48
    rw [h, update_self]
  constructor
  · intro hkeeps
    have hr := hkeeps dst
    rw [if_pos (List.mem_singleton_self dst), hdst] at hr
    exact hr
  · intro hupper r
    by_cases hr : r = dst
    · subst hr
      rw [if_pos (List.mem_singleton_self r), hdst]
      exact hupper
    · rw [if_neg (by simpa using hr), h, update_of_ne hr]

theorem gpr_of_writeThroughDword {s s₁ s' : WordProc m} {dst : Fin 16} {result : BitVec 16}
    (hgpr : s₁.gpr = s.gpr)
    (h : (writeThroughDword dst result : WordM m PUnit).run s₁ = .ok ⟨⟩ s') :
    s'.gpr = update s.gpr dst (dwordWritten (s.gpr dst) result) := by
  cases h
  show update s₁.gpr dst (dwordWritten (s₁.gpr dst) result) = _
  rw [hgpr]

/-- An operand is read, its result written through the doubleword, and flags are set. -/
theorem gpr_of_count {s s' : WordProc m} {env : Env64} {i : WordInstr}
    {result : BitVec 16 → BitVec 16} {flags : BitVec 16 → WordM m PUnit}
    (hflags : ∀ op2, (keepsRest m []).Holds (flags op2))
    (h : (do
      let op2 ← readEw env i i.src
      writeThroughDword i.dst (result op2)
      flags op2 : WordM m PUnit).run s = .ok ⟨⟩ s') :
    ∃ result, s'.gpr = update s.gpr i.dst (dwordWritten (s.gpr i.dst) result) := by
  obtain ⟨op2, s₁, hread, h⟩ := run_bind_ok.mp h
  obtain ⟨_, s₂, hwrite, h⟩ := run_bind_ok.mp h
  have hgpr := gpr_of_keepsRest_nil ((holds_readEw env i i.src).ok hread)
  have hgpr' := gpr_of_keepsRest_nil ((hflags op2).ok h)
  exact ⟨result op2, hgpr'.trans (gpr_of_writeThroughDword hgpr hwrite)⟩

namespace WordOp

variable {env : Env64} {i : WordInstr} {s s' : WordProc m}

theorem gpr_of_exec {op : WordOp} (hop : op.ThroughDword)
    (h : (op.exec env i : WordM m PUnit).run s = .ok ⟨⟩ s') :
    ∃ result, s'.gpr = update s.gpr i.dst (dwordWritten (s.gpr i.dst) result) := by
  cases op with
  | popcnt =>
    refine gpr_of_count (fun op2 => ?_) h
    exact .bind (holds_withFlags _) fun _ => .ite (holds_withFlags _) (.pure _)
  | lzcnt | tzcnt =>
    exact gpr_of_count (fun _ => .bind (holds_withFlags _) fun _ => holds_withFlags _) h
  | movbe =>
    obtain ⟨_, _, hget, h⟩ := run_bind_ok.mp h
    cases hget
    obtain ⟨val, s₁, hread, h⟩ := run_bind_ok.mp h
    have hgpr := gpr_of_keepsRest_nil ((holds_onMemory _).ok hread)
    exact ⟨swapBytes val, gpr_of_writeThroughDword hgpr h⟩
  | _ => exact hop.elim

/-- A 16-bit instruction keeps the rest of its destinations, and every other register,
unless it is one of the four that write through a doubleword and its destination has
something in its upper half. -/
theorem keeps_upper_iff (op : WordOp) (h : (op.exec env i : WordM m PUnit).run s = .ok ⟨⟩ s') :
    KeepsRest (op.destinations i) s s' ↔
      ¬ (op.ThroughDword ∧ (s.gpr i.dst).extractLsb' 32 32 ≠ 0#32) := by
  by_cases hop : op.ThroughDword
  · obtain ⟨result, hgpr⟩ := gpr_of_exec hop h
    have hdst : op.destinations i = [i.dst] := by
      cases op <;> first | rfl | exact hop.elim
    rw [hdst, keepsRest_singleton hgpr]
    simp [hop]
  · exact iff_of_true ((holds_exec hop).ok h) fun hno => hop hno.1

/-- POPCNT AX, CX. -/
def popcntAxCx : WordInstr where
  modC0 := true
  dst := 0
  src := 1
  seg := .ds
  ib := 0
  iw := 0
  sibBase := 19
  sibIndex := 4
  sibScale := 0
  displ32s := 0
  as64L := true
  as32L := true

/-- `rax`, with 7 in RCX. -/
def axCx (rax : BitVec 64) : WordProc smallMachine where
  gpr r := if r = 0 then rax else if r = 1 then 7#64 else 0#64
  special _ := 0
  oszapc := ⟨0, 0⟩
  mem := edgeCpu

theorem popcnt_keeps_narrow :
    ∃ s', (popcnt.exec ⟨0, 0, false⟩ popcntAxCx).run (axCx 0x12345678#64) = .ok ⟨⟩ s' ∧
      s'.gpr 0 = 0x12340003#64 ∧
      KeepsRest (popcnt.destinations popcntAxCx) (axCx 0x12345678#64) s' := by
  obtain ⟨s', hrun, hrax⟩ :
      ∃ s', (popcnt.exec ⟨0, 0, false⟩ popcntAxCx).run (axCx 0x12345678#64) = .ok ⟨⟩ s' ∧
        s'.gpr 0 = 0x12340003#64 := ⟨_, rfl, by decide +kernel⟩
  exact ⟨s', hrun, hrax, (keeps_upper_iff popcnt hrun).mpr fun h => h.2 (by decide +kernel)⟩

/-- Bit 32 of RAX is lost. -/
theorem popcnt_zeroes_upper_rax :
    ∃ s', (popcnt.exec ⟨0, 0, false⟩ popcntAxCx).run (axCx 0x112345678#64) = .ok ⟨⟩ s' ∧
      s'.gpr 0 = 0x12340003#64 ∧
      ¬ KeepsRest (popcnt.destinations popcntAxCx) (axCx 0x112345678#64) s' := by
  refine ⟨_, rfl, by decide +kernel, fun h => ?_⟩
  have hrax := h 0
  revert hrax
  decide +kernel

end WordOp

end RustyBox
