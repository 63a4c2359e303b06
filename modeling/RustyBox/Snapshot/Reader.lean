-- SUMMARY: Reading snapshots: the scalar readers, what they refuse, and checked lengths.
import RustyBox.Lib.Decode
import RustyBox.PcSystem.Snapshot

/-!
# Reading snapshots

`SnapRead` reads little-endian scalars off a stream and refuses a boolean other than 0 and 1 and
a count above a bound. Each reader undoes the writer of the same width.
-/

namespace RustyBox

open Lib

/-- `SnapError` where bytes are read or lengths computed. -/
inductive SnapFailure
  | truncated
  | lengthOutOfRange
  | snap (e : SnapError)
  deriving DecidableEq, Repr

def snapshotInvalid (message : String) : SnapFailure := .snap (.invalid message)

abbrev SnapRead (σ α : Type) := Decode SnapFailure σ α

variable {σ α : Type}

/-- The value of little-endian bytes. -/
def leNat : List UInt8 → Nat
  | [] => 0
  | byte :: rest => byte.toNat + 256 * leNat rest

def readLe (width : Nat) : SnapRead σ Nat := do
  let bytes ← takeBytes .truncated width
  pure (leNat bytes)

def readU8 : SnapRead σ Nat := readLe 1
def readU32 : SnapRead σ Nat := readLe 4
def readU64 : SnapRead σ Nat := readLe 8

/-- A machine word. -/
def readWord (w : Nat) : SnapRead σ (BitVec w) := do
  let value ← readLe (w / 8)
  pure (BitVec.ofNat w value)

/-- The bytes of a machine word. -/
def wordBytes {w : Nat} (x : BitVec w) : List UInt8 := leBytes (w / 8) x.toNat

/-- The two bytes that `read_bool` takes. -/
def boolOfByte : Nat → Except SnapFailure Bool
  | 0 => .ok false
  | 1 => .ok true
  | _ => .error (snapshotInvalid "snapshot boolean is not canonical")

def readBool : SnapRead σ Bool := do
  let byte ← readU8
  fromExcept (boolOfByte byte)

/-- The handle of a timer, if there is one. -/
def readSnapshotHandle : SnapRead σ (Option (BitVec 64)) := do
  let present ← readBool
  if present then do
    let handle ← readWord 64
    pure (some handle)
  else pure none

def snapshotHandleBytes : Option (BitVec 64) → List UInt8
  | none => boolByte false
  | some handle => boolByte true ++ wordBytes handle

/-- `MAX_COUNT`. -/
def maxCount : Nat := 2 ^ 20

def readCount (maximum : Nat) : SnapRead σ Nat := do
  let value ← readU32
  refuseIf (min maximum maxCount < value) (snapshotInvalid "snapshot count exceeds bound")
  pure value

/-- A validator, run on what was read. -/
def validated (x : SnapResult α) : SnapRead σ α := fromExcept (x.mapError .snap)

/-! ## Lengths -/

/-- `MAX_SECTION_LEN`. -/
def maxSectionLen : Nat := 4 * 1024 * 1024 * 1024

/-- `checked_snapshot_len_add`. -/
def checkedSnapshotLenAdd (lhs rhs : Nat) : Except SnapFailure Nat :=
  if lhs + rhs ≤ maxSectionLen then .ok (lhs + rhs) else .error .lengthOutOfRange

/-- `checked_snapshot_len_mul`. -/
def checkedSnapshotLenMul (lhs rhs : Nat) : Except SnapFailure Nat :=
  if lhs * rhs ≤ maxSectionLen then .ok (lhs * rhs) else .error .lengthOutOfRange

theorem checkedSnapshotLenAdd_ok {lhs rhs : Nat} (h : lhs + rhs ≤ maxSectionLen) :
    checkedSnapshotLenAdd lhs rhs = .ok (lhs + rhs) :=
  if_pos h

theorem checkedSnapshotLenMul_ok {lhs rhs : Nat} (h : lhs * rhs ≤ maxSectionLen) :
    checkedSnapshotLenMul lhs rhs = .ok (lhs * rhs) :=
  if_pos h

theorem foldlM_checkedSnapshotLenAdd (f : α → Nat) (items : List α) {start : Nat}
    (h : start + (items.map f).sum ≤ maxSectionLen) :
    items.foldlM (fun len item => checkedSnapshotLenAdd len (f item)) start =
      .ok (start + (items.map f).sum) := by
  induction items generalizing start with
  | nil => rfl
  | cons item items ih =>
    rw [List.map_cons, List.sum_cons, ← Nat.add_assoc] at h ⊢
    rw [List.foldlM_cons, checkedSnapshotLenAdd_ok (by omega)]
    exact ih h

@[simp] theorem length_leBytes (width value : Nat) : (leBytes width value).length = width := by
  induction width generalizing value with
  | zero => rfl
  | succ width ih => exact congrArg (· + 1) (ih _)

@[simp] theorem length_wordBytes {w : Nat} (x : BitVec w) : (wordBytes x).length = w / 8 :=
  length_leBytes _ _

@[simp] theorem length_boolByte (b : Bool) : (boolByte b).length = 1 := rfl

/-! ## Round trips of the readers -/

theorem leNat_leBytes {width value : Nat} (h : value < 256 ^ width) :
    leNat (leBytes width value) = value := by
  induction width generalizing value with
  | zero =>
    rw [Nat.pow_zero] at h
    exact (Nat.lt_one_iff.mp h).symm
  | succ width ih =>
    have hrest : value / 256 < 256 ^ width := by
      rw [Nat.pow_succ] at h
      omega
    show (UInt8.ofNat value).toNat + 256 * leNat (leBytes width (value / 256)) = value
    rw [ih hrest, UInt8.toNat_ofNat']
    omega

section

variable {self : σ} {value : Nat}

theorem decodes_readLe {width : Nat} (h : value < 256 ^ width) :
    Decodes (readLe width) self (leBytes width value) value := by
  have hread : Decodes (readLe width) self (leBytes width value) (leNat (leBytes width value)) :=
    (decodes_takeBytes (length_leBytes width value)).map leNat
  rwa [leNat_leBytes h] at hread

theorem decodes_readWord {w : Nat} (x : BitVec w) (hw : 8 ∣ w := by decide) :
    Decodes (readWord w) self (wordBytes x) x := by
  have hfits : x.toNat < 256 ^ (w / 8) := by
    have hpow : 256 ^ (w / 8) = 2 ^ w := by
      rw [show (256 : Nat) = 2 ^ 8 from rfl, ← Nat.pow_mul, Nat.mul_div_cancel' hw]
    rw [hpow]
    exact x.isLt
  have hread : Decodes (readWord w) self (wordBytes x) (BitVec.ofNat w x.toNat) :=
    (decodes_readLe hfits).map (BitVec.ofNat w)
  rwa [BitVec.ofNat_toNat, BitVec.setWidth_eq] at hread

theorem decodes_readBool (b : Bool) : Decodes readBool self (boolByte b) b := by
  have hbyte : Decodes (readU8 : SnapRead σ Nat) self (boolByte b) b.toNat := by
    cases b with
    | false | true => exact decodes_readLe (by decide)
  exact hbyte.bind_last (decodes_fromExcept (by cases b <;> rfl))

theorem decodes_readSnapshotHandle (handle : Option (BitVec 64)) :
    Decodes readSnapshotHandle self (snapshotHandleBytes handle) handle := by
  cases handle with
  | none => exact (decodes_readBool _).bind_last (Decodes.pure none)
  | some handle => exact (decodes_readBool _).bind ((decodes_readWord handle).map some)

theorem decodes_readCount {maximum : Nat} (h : value ≤ min maximum maxCount) :
    Decodes (readCount maximum) self (leBytes 4 value) value := by
  have hfits : value < 256 ^ 4 := by
    have : maxCount < 256 ^ 4 := by decide
    omega
  refine (decodes_readLe hfits).bind_last ?_
  exact .check (Nat.not_lt.mpr h) (Decodes.pure value)

theorem decodes_validated {x : SnapResult α} {a : α} (h : x = .ok a) :
    Decodes (validated x) self [] a :=
  decodes_fromExcept (x := x.mapError SnapFailure.snap) (by rw [h]; rfl)

end

theorem untouched_readLe (width : Nat) : untouched.Holds (readLe width : SnapRead σ Nat) :=
  (untouched_takeBytes _ _).bind fun _ => .pure _

theorem untouched_readBool : untouched.Holds (readBool : SnapRead σ Bool) :=
  (untouched_readLe 1).bind fun _ => untouched_fromExcept _

theorem untouched_readCount (maximum : Nat) :
    untouched.Holds (readCount maximum : SnapRead σ Nat) :=
  (untouched_readLe 4).bind fun _ => (untouched_refuseIf _ _).bind fun _ => .pure _

end RustyBox
