-- SUMMARY: Locked SMRAM is private to SMM exactly when no device transfer touches it.
import RustyBox.Memory.Traffic
import RustyBox.Lib.BitSet

/-!
# Locked SMRAM

Once the SMRAM control register is locked and closed, and the legacy VGA aperture covers
the window, no route of a processor outside SMM ends in the window, and no register write
or window move opens one. `read_ram` and `write_ram` look at neither, so the window is
private exactly as long as the transfers of the devices stay out of it.
-/

namespace RustyBox

open Lib List Positions

namespace Board

variable (b : Board)

/-- The window filled with `k`. -/
def fillSmram (k : Nat → BitVec 8) : Board :=
  { b with ram := fun off => if inSmramWindow off then k off else b.ram off }

/-- The register is locked and closed, and what it says has been applied. -/
structure Locked : Prop where
  applied : b.applySmram (smramEffect (b.pciConf 0x72)) = b
  smrame : b.pciConf 0x72 &&& 0x08#8 ≠ 0#8
  dlck : b.pciConf 0x72 &&& 0x10#8 ≠ 0#8
  dopen : b.pciConf 0x72 &&& 0x40#8 = 0#8

/-- The legacy VGA aperture. -/
def vgaRegion : MappedRegion := ⟨0xA0000, 0xBFFFF, .vgaLegacy⟩

def VgaRegistered : Prop := vgaRegion ∈ b.mmio.regions

/-- What every run keeps: the lock holds, SMRAM is not open and the aperture is there. The
register may be ahead of what has been applied. -/
structure Closed : Prop where
  enable : b.smramEnable = false
  dlck : b.pciConf 0x72 &&& 0x10#8 ≠ 0#8
  dopen : b.pciConf 0x72 &&& 0x40#8 = 0#8
  vga : b.VgaRegistered

end Board

/-- The bytes of the window are the secret. -/
def smramSecret : Secret Board (Nat → BitVec 8) where
  fill k b := b.fillSmram k
  Shows k b := ∀ off, inSmramWindow off → b.ram off = k off
  shows_fill k b off h := by
    show (if inSmramWindow off then k off else b.ram off) = k off
    rw [if_pos h]

/-- A device transfer that stays out of the window. The other operations are no transfers. -/
def BusOp.AvoidsSmram : BusOp → Board → Prop
  | .readRam addr len, b => ∀ off ∈ b.transferSpan addr len, ¬ inSmramWindow off
  | .writeRam addr data, b => ∀ off ∈ b.transferSpan addr data.length, ¬ inSmramWindow off
  | _, _ => True

theorem inSmramWindow_iff {a : Nat} : inSmramWindow a ↔ 0xA0000 ≤ a ∧ a < 0xC0000 := by
  simp [inSmramWindow]

/-! ## The lock -/

namespace Board

variable {b : Board}

theorem applySmram_smramEnable {v : BitVec 8} (h : v &&& 0x40#8 = 0#8) :
    (b.applySmram (smramEffect v)).smramEnable = false := by
  unfold smramEffect
  split_ifs
  · rfl
  · rfl
  · simp [applySmram, h]

theorem Locked.closed (h : b.Locked) (hvga : b.VgaRegistered) : b.Closed where
  enable := (congrArg Board.smramEnable h.applied).symm.trans (applySmram_smramEnable h.dopen)
  dlck := h.dlck
  dopen := h.dopen
  vga := hvga

/-- Under the lock DOPEN cannot be set. -/
theorem smramControl_locked (value : BitVec 8) (h : b.pciConf 0x72 &&& 0x10#8 ≠ 0#8) :
    (b.smramControl value).pciConf 0x72 &&& 0x10#8 ≠ 0#8 ∧
      (b.smramControl value).pciConf 0x72 &&& 0x40#8 = 0#8 := by
  have hconf : (b.smramControl value).pciConf 0x72 =
      (((value &&& 0x78#8) ||| 0x02#8) &&& 0xBF#8) ||| 0x10#8 := by
    simp [smramControl, setConf, h]
  rw [hconf]
  clear hconf
  revert value
  decide

/-- The register after a configuration write: as before, or what `smram_control` makes
of it. Nothing is applied yet. -/
theorem pciWriteByte_spec (addr : Nat) (value : BitVec 8) :
    (b.pciWriteByte addr value).smramEnable = b.smramEnable ∧
    (b.pciWriteByte addr value).mmio = b.mmio ∧
    ((b.pciWriteByte addr value).pciConf 0x72 = b.pciConf 0x72 ∨
      (b.pciWriteByte addr value).pciConf 0x72 = (b.smramControl value).pciConf 0x72) := by
  unfold pciWriteByte
  dsimp only
  split
  · split
    · exact ⟨rfl, rfl, .inl (if_neg (by omega))⟩
    · exact ⟨rfl, rfl, .inl rfl⟩
  · split
    · exact ⟨rfl, rfl, .inr rfl⟩
    · exact ⟨rfl, rfl, .inl (if_neg (by omega))⟩

theorem Closed.pciWriteByte (h : b.Closed) (addr : Nat) (value : BitVec 8) :
    (b.pciWriteByte addr value).Closed := by
  obtain ⟨henable, hmmio, hconf⟩ := b.pciWriteByte_spec addr value
  have hreg : (b.pciWriteByte addr value).pciConf 0x72 &&& 0x10#8 ≠ 0#8 ∧
      (b.pciWriteByte addr value).pciConf 0x72 &&& 0x40#8 = 0#8 := by
    rcases hconf with hconf | hconf <;> rw [hconf]
    · exact ⟨h.dlck, h.dopen⟩
    · exact smramControl_locked value h.dlck
  exact ⟨henable.trans h.enable, hreg.1, hreg.2, by rw [VgaRegistered, hmmio]; exact h.vga⟩

theorem Closed.pciWrite (h : b.Closed) (address : Nat) (value : BitVec 32) (ioLen : Nat) :
    (b.pciWrite address value ioLen).Closed := by
  unfold Board.pciWrite
  split
  · exact h
  · -- the invariant goes through the bytes of the write
    generalize range ioLen = is
    induction is generalizing b with
    | nil => exact h
    | cons i is ih =>
      rw [foldl_cons]
      apply ih
      split
      · exact h.pciWriteByte _ _
      · exact h

theorem applyPam_closed (h : b.Closed) : b.applyPam.Closed := by
  unfold applyPam
  split
  · exact ⟨h.enable, h.dlck, h.dopen, h.vga⟩
  · exact h

theorem Closed.applyPendingMachineBoundary (h : b.Closed) :
    b.applyPendingMachineBoundary.Closed := by
  have hpam := applyPam_closed h
  unfold Board.applyPendingMachineBoundary
  dsimp only
  split
  · have hsame : ∀ c, (b.applyPam.applySmram c).pciConf = b.applyPam.pciConf ∧
        (b.applyPam.applySmram c).mmio = b.applyPam.mmio := by
      intro c
      cases c <;> exact ⟨rfl, rfl⟩
    obtain ⟨hconf, hmmio⟩ := hsame (smramEffect (b.applyPam.pciConf 0x72))
    refine ⟨applySmram_smramEnable hpam.dopen, ?_, ?_, ?_⟩
    · rw [hconf]
      exact hpam.dlck
    · rw [hconf]
      exact hpam.dopen
    · rw [hmmio]
      exact hpam.vga
  · exact hpam

/-- A window other than the aperture may come, go or move. -/
theorem Closed.remap {token : MmioToken} {f : MmioMap.MmioM Unit} (h : b.Closed)
    (hf : (MmioMap.othersStay token).Holds f) (ht : token ≠ .vgaLegacy) : (b.remap f).Closed :=
  ⟨h.enable, h.dlck, h.dopen, hf b.mmio vgaRegion h.vga ht.symm⟩

theorem putCells_frame (cs : List Cell) (data : List (BitVec 8)) :
    ∃ ram rom, b.putCells cs data = { b with ram := ram, rom := rom } := by
  unfold putCells
  generalize cs.zip data = xs
  induction xs generalizing b with
  | nil => exact ⟨b.ram, b.rom, rfl⟩
  | cons x xs ih =>
    rw [foldl_cons]
    obtain ⟨ram, rom, hrest⟩ := @ih (b.putCell x.1 x.2)
    rw [hrest]
    cases x.1 with
    | ram off | rom off | blank v => exact ⟨ram, rom, rfl⟩

theorem Closed.putCells (h : b.Closed) (cs : List Cell) (data : List (BitVec 8)) :
    (b.putCells cs data).Closed := by
  obtain ⟨ram, rom, hput⟩ := b.putCells_frame cs data
  rw [hput]
  exact ⟨h.enable, h.dlck, h.dopen, h.vga⟩

theorem Closed.store (h : b.Closed) (data : List (BitVec 8)) (r : Route) :
    (b.store data r).Closed := by
  cases r with
  | cells cs => exact h.putCells cs data
  | mmio hit | refused => exact h

/-- No operation opens the window. -/
theorem Closed.exec (h : b.Closed) (op : BusOp) : (b.exec op).Closed := by
  cases op with
  | load monitorHit path addr len => exact h
  | store monitorHit path addr data => exact h.store data _
  | fetch monitorHit page => exact h
  | pciWrite address value ioLen => exact h.pciWrite address value ioLen
  | boundary => exact h.applyPendingMachineBoundary
  | setA20 enabled | setBiosWrite enabled => exact ⟨h.enable, h.dlck, h.dopen, h.vga⟩
  | ioapicWindow add base =>
    have hstay : (MmioMap.othersStay .ioapic).Holds (Board.ioapicWindow add base) :=
      .ite (MmioMap.map_othersStay _ _ _) (MmioMap.unmap_othersStay _ _ _)
    exact h.remap hstay (by decide)
  | vgaBar registers old new =>
    refine h.remap (MmioMap.relocate_othersStay _ old new) ?_
    cases registers <;> decide
  | deviceStore addr data => exact h.store data _
  | readRam addr len => exact h
  | writeRam addr data => exact h.putCells _ data

/-! ## Routes outside the window -/

end Board

/-- A byte outside the window. -/
def Cell.Public : Cell → Prop
  | .ram off => ¬ inSmramWindow off
  | .rom _ => True
  | .blank _ => True

def Route.Public : Route → Prop
  | .cells cs => ∀ c ∈ cs, c.Public
  | .mmio _ => True
  | .refused => True

namespace Board

variable {b : Board}

variable {a : BitVec 64} {len off : Nat}

/-- RAM below the window, or above it, is stored below it, or above it. -/
theorem guestRamSpan_public {ramLen i : Nat} (hspan : guestRamSpan a len ramLen = some off)
    (hi : i < len)
    (ha : a.toNat + len ≤ 0xA0000 ∨ 0xC0000 ≤ a.toNat) : ¬ inSmramWindow (off + i) := by
  obtain ⟨-, -, -, rfl⟩ := Machine.guestRamSpan_eq_some.mp hspan
  rw [inSmramWindow_iff]
  unfold translateGpaToLinear pciHoleEnd pciHoleSize
  split <;> omega

theorem ramCells_public (h : ∀ i < len, ¬ inSmramWindow (off + i)) :
    ∀ c ∈ ramCells off len, c.Public := by
  intro c hc
  obtain ⟨i, hi, rfl⟩ := List.mem_map.mp hc
  exact h i (List.mem_range.mp hi)

theorem replicate_public (len : Nat) (v : BitVec 8) :
    ∀ c ∈ replicate len (Cell.blank v), c.Public := by
  intro c hc
  rw [eq_of_mem_replicate hc]
  trivial

theorem romCells_public (len : Nat) (f : Nat → Nat) :
    ∀ c ∈ (range len).map fun i => Cell.rom (f i), c.Public := by
  intro c hc
  obtain ⟨i, -, rfl⟩ := List.mem_map.mp hc
  trivial

theorem stubCells_public
    (ha : a.toNat + len ≤ 0xA0000 ∨ 0xC0000 ≤ a.toNat) : ∀ c ∈ b.stubCells a len, c.Public := by
  unfold stubCells
  split
  · exact replicate_public len _
  · split
    · next off hspan => exact ramCells_public fun i hi => guestRamSpan_public hspan hi ha
    · exact replicate_public len _

theorem translate_public {a : Nat} (h : 0xC0000 ≤ a) : ¬ inSmramWindow (translateGpaToLinear a) := by
  rw [inSmramWindow_iff]
  unfold translateGpaToLinear pciHoleEnd pciHoleSize
  split <;> omega

theorem romCell_public (a : Nat) : (romCell a).Public := by
  unfold romCell
  split <;> trivial

theorem legacyReadCell_public {a : Nat} (h : 0xC0000 ≤ a) : (b.legacyReadCell a).Public := by
  unfold legacyReadCell
  rw [if_neg (by omega)]
  split
  · split
    · exact translate_public h
    · exact romCell_public a
  · trivial

theorem legacyWriteCell_public {a : Nat} (h : 0xC0000 ≤ a) : (b.legacyWriteCell a).Public := by
  unfold legacyWriteCell
  rw [if_neg (by omega)]
  split
  · split
    · exact translate_public h
    · split <;> trivial
  · trivial

theorem Closed.lookup (h : b.Closed) {a : Nat} (ha : inSmramWindow a) :
    ∃ hit, b.mmio.lookup a = some hit := by
  rw [inSmramWindow_iff] at ha
  exact MmioMap.lookup_isSome h.vga ha.1 (by show a ≤ 0xBFFFF; omega)

variable {p : CpuMemoryPolicy} {addr : BitVec 64} {c : Cell}

section

variable (h : b.Closed) (hp : p.smmMode = false)
include h hp

/-- Outside SMM a closed SMRAM answers nothing. -/
theorem Closed.smramHit (a : Nat) : b.smramHit p a = false := by
  simp [Board.smramHit, h.enable, hp]

/-- A page access comes to the aperture or stays out of the window. -/
theorem Closed.physicalPage_public {legacy : Nat → Cell}
    {outside : Nat → List Cell} (hlegacy : ∀ a, 0xC0000 ≤ a → (legacy a).Public)
    (houtside : ∀ a, ∀ c ∈ outside a, c.Public) :
    (b.physicalPage p addr len legacy outside).Public := by
  unfold physicalPage
  dsimp only
  split
  · trivial
  next hpage =>
  rw [h.smramHit hp, if_neg Bool.false_ne_true]
  split
  · trivial
  next hlookup =>
  have hout : ¬ inSmramWindow (b.a20Addr addr).toNat := by
    intro hin
    obtain ⟨hit, hhit⟩ := h.lookup hin
    rw [hhit] at hlookup
    cases hlookup
  rw [inSmramWindow_iff] at hout
  split
  · split
    · intro c hc
      obtain ⟨i, -, rfl⟩ := List.mem_map.mp hc
      exact hlegacy _ (by omega)
    · apply stubCells_public
      by_cases hlow : (b.a20Addr addr).toNat < 0xA0000
      · -- an access within a page that starts below the window ends below it
        have hmod := b.mod_a20Addr addr (.inr (.inr rfl))
        exact .inl (by omega)
      · exact .inr (by omega)
  · exact houtside _

theorem Closed.readPhysicalPage_public (addr : BitVec 64)
    (len : Nat) : (b.readPhysicalPage p addr len).Public := by
  refine h.physicalPage_public hp (fun _ => legacyReadCell_public) fun a => ?_
  split
  · exact romCells_public len _
  · exact replicate_public len _

theorem Closed.writePhysicalPage_public (addr : BitVec 64)
    (len : Nat) : (b.writePhysicalPage p addr len).Public := by
  refine h.physicalPage_public hp (fun _ => legacyWriteCell_public) fun a => ?_
  split
  · exact romCells_public len _
  · exact replicate_public len _

end

/-- What a host mapping starts with: not RAM, or the RAM byte of an address outside the
window. -/
def HostByte (a : Nat) : Cell → Prop
  | .ram off => off = translateGpaToLinear a ∧ ¬ inSmramWindow a
  | .rom _ => True
  | .blank _ => True

theorem residentRam_hostByte (ha : ¬ inSmramWindow a.toNat)
    (hc : b.residentRam a = some c) : HostByte a.toNat c := by
  obtain ⟨off, hspan, rfl⟩ := Option.map_eq_some_iff.mp hc
  obtain ⟨-, -, -, hoff⟩ := Machine.guestRamSpan_eq_some.mp hspan
  exact ⟨hoff, ha⟩

theorem romCell_hostByte (a a' : Nat) : HostByte a (romCell a') := by
  unfold romCell
  split <;> trivial

theorem hostReadRange_hostByte (hc : b.hostReadRange a = some c) : HostByte a.toNat c := by
  unfold hostReadRange at hc
  dsimp only at hc
  split at hc
  · cases hc
  next hout =>
  split at hc
  · split at hc
    · exact residentRam_hostByte hout hc
    · cases hc
      exact romCell_hostByte _ _
  · split at hc
    · split at hc
      · cases hc
        exact romCell_hostByte _ _
      · exact residentRam_hostByte hout hc
    · split at hc
      · cases hc
        trivial
      · split at hc
        · cases hc
        · split at hc <;> cases hc <;> trivial

/-- Outside SMM a host mapping never starts in the window, not even for a fetch. -/
theorem Closed.hostMemRange_hostByte (h : b.Closed) (hp : p.smmMode = false) {rw : HostAccess}
    (hc : b.hostMemRange p rw addr = some c) : HostByte (b.a20Addr addr).toNat c := by
  unfold hostMemRange at hc
  rw [if_neg (by simp [h.enable, hp])] at hc
  split at hc
  · cases hc
  · split at hc
    · cases hc
    next hcovers =>
    have hout : ¬ inSmramWindow (b.a20Addr addr).toNat := by
      intro hin
      obtain ⟨hit, hhit⟩ := h.lookup hin
      obtain ⟨r, hr, -⟩ := Option.map_eq_some_iff.mp hhit
      exact hcovers (by rw [MmioMap.covers, hr]; rfl)
    split at hc
    · split at hc
      · exact residentRam_hostByte hout hc
      · cases hc
    · exact hostReadRange_hostByte hc

theorem HostByte.public {a : Nat} (h : HostByte a c) : c.Public := by
  cases c with
  | ram off =>
    obtain ⟨rfl, ha⟩ := h
    show ¬ inSmramWindow (translateGpaToLinear a)
    rw [inSmramWindow_iff] at ha ⊢
    unfold translateGpaToLinear pciHoleEnd pciHoleSize
    split <;> omega
  | rom off => trivial
  | blank v => trivial

/-- A run of RAM that a plain route takes. -/
theorem plainRoute_public {off : Option Nat}
    (h : ∀ o, off = some o → ∀ i < len, ¬ inSmramWindow (o + i)) : (plainRoute off len).Public := by
  cases off with
  | none => trivial
  | some o => exact ramCells_public (h o rfl)

theorem directRamOffset_public (addr : BitVec 64) (len : Nat) :
    (plainRoute (b.host.directRamOffset addr len) len).Public := by
  refine plainRoute_public fun off hoff i hi => ?_
  obtain ⟨hplain, hspan⟩ := Machine.directRamOffset_eq_some.mp hoff
  exact guestRamSpan_public hspan hi (by omega)

theorem walkOffset_public (addr : BitVec 64) (len : Nat) :
    (plainRoute (b.walkOffset addr len) len).Public := by
  refine plainRoute_public fun off hoff i hi => ?_
  unfold walkOffset at hoff
  split at hoff
  next hentry =>
    obtain ⟨hplain, hspan⟩ := Machine.walkRamOffset_eq_some.mp hoff
    obtain ⟨hlen, halign⟩ := hentry
    have hmod : (b.host.applyA20 addr).toNat % len = 0 := by
      rw [← halign]
      exact b.mod_a20Addr addr (by omega)
    exact guestRamSpan_public hspan hi (by rcases hlen with rfl | rfl <;> omega)
  · cases hoff

theorem hostPageOffset_public (addr : BitVec 64) (len : Nat) :
    (plainRoute (b.hostPageOffset addr len) len).Public := by
  refine plainRoute_public fun off hoff i hi => ?_
  unfold hostPageOffset at hoff
  split at hoff
  next hpage =>
    obtain ⟨page, hhost, rfl⟩ := Option.map_eq_some_iff.mp hoff
    obtain ⟨hwalk, -⟩ := Option.filter_eq_some_iff.mp hhost
    obtain ⟨hplain, hspan⟩ := Machine.walkRamOffset_eq_some.mp hwalk
    have hmod : (b.host.applyA20 (BitVec.ofNat 64 (addr.toNat / 0x1000 * 0x1000))).toNat
        % 0x1000 = 0 := by
      have hpage := b.mod_a20Addr (BitVec.ofNat 64 (addr.toNat / 0x1000 * 0x1000))
        (.inr (.inr rfl))
      rw [a20Addr, BitVec.toNat_ofNat] at hpage
      omega
    rw [add_assoc]
    exact guestRamSpan_public hspan (by omega) (by omega)
  · cases hoff

theorem Closed.routes_public (h : b.Closed) (monitorHit : Bool) (path : CpuPath)
    (addr : BitVec 64) (len : Nat) : (b.loadRoute monitorHit path addr len).Public ∧
      (b.storeRoute monitorHit path addr len).Public := by
  cases path with
  | direct => exact ⟨directRamOffset_public addr len, directRamOffset_public addr len⟩
  | walk => exact ⟨walkOffset_public addr len, walkOffset_public addr len⟩
  | hostPage => exact ⟨hostPageOffset_public addr len, hostPageOffset_public addr len⟩
  | slowByte =>
    unfold loadRoute storeRoute
    dsimp only
    constructor
    all_goals
      split
      · next c hc =>
        exact List.forall_mem_singleton.mpr (h.hostMemRange_hostByte rfl hc).public
    · exact h.readPhysicalPage_public rfl addr 1
    · exact h.writePhysicalPage_public rfl addr 1
  | routed =>
    exact ⟨h.readPhysicalPage_public rfl addr len, h.writePhysicalPage_public rfl addr len⟩

/-- A page that starts outside the window has no byte in it. -/
theorem Closed.fetchRoute_public (h : b.Closed) (monitorHit : Bool) (page : Nat) :
    (b.fetchRoute monitorHit page).Public := by
  unfold fetchRoute
  split
  · next off hoff =>
    obtain ⟨rfl, hout⟩ := h.hostMemRange_hostByte rfl hoff
    have halign := b.mod_a20Addr (BitVec.ofNat 64 (page * 0x1000)) (.inr (.inr rfl))
    rw [BitVec.toNat_ofNat] at halign
    rw [inSmramWindow_iff] at hout
    refine ramCells_public fun i hi => ?_
    rw [inSmramWindow_iff]
    unfold translateGpaToLinear pciHoleEnd pciHoleSize
    split <;> omega
  · exact romCells_public _ _
  · exact replicate_public _ _
  · trivial

/-! ## Operations and the secret -/

variable (k : Nat → BitVec 8)

theorem transferSpan_fillSmram (addr n : Nat) :
    (b.fillSmram k).transferSpan addr n = b.transferSpan addr n := by
  have ha20 : (b.fillSmram k).a20Addr = b.a20Addr := rfl
  have hlen : (b.fillSmram k).guestLen = b.guestLen := rfl
  induction n generalizing addr with
  | zero => rfl
  | succ n ih => simp only [transferSpan, ih, ha20, hlen]

theorem loaded_fillSmram {r : Route} (h : r.Public) : (b.fillSmram k).loaded r = b.loaded r := by
  cases r with
  | cells cs =>
    refine congrArg Answer.bytes (map_congr_left fun c hc => ?_)
    cases c with
    | ram off => exact if_neg (h _ hc)
    | rom off => rfl
    | blank v => rfl
  | mmio hit => rfl
  | refused => rfl

theorem putCell_fillSmram (h : c.Public) (v : BitVec 8) :
    (b.fillSmram k).putCell c v = (b.putCell c v).fillSmram k := by
  cases c with
  | ram off =>
    have hram : (fun o => if o = off then v else if inSmramWindow o then k o else b.ram o) =
        fun o => if inSmramWindow o then k o else if o = off then v else b.ram o := by
      funext o
      by_cases ho : o = off
      · rw [if_pos ho, if_pos ho, if_neg (ho ▸ h)]
      · rw [if_neg ho, if_neg ho]
    exact congrArg (fun ram => { b with ram := ram }) hram
  | rom off => rfl
  | blank v => rfl

theorem putCells_fillSmram {cs : List Cell} (h : ∀ c ∈ cs, c.Public) (data : List (BitVec 8)) :
    (b.fillSmram k).putCells cs data = (b.putCells cs data).fillSmram k := by
  have hzip : ∀ x ∈ cs.zip data, x.1.Public := fun x hx => h x.1 (of_mem_zip hx).1
  unfold putCells
  generalize cs.zip data = xs at hzip
  induction xs generalizing b with
  | nil => rfl
  | cons x xs ih =>
    rw [foldl_cons, putCell_fillSmram k (hzip x mem_cons_self)]
    exact ih fun y hy => hzip y (mem_cons_of_mem _ hy)

theorem store_fillSmram {r : Route} (h : r.Public) (data : List (BitVec 8)) :
    (b.fillSmram k).store data r = (b.store data r).fillSmram k := by
  cases r with
  | cells cs => exact putCells_fillSmram k h data
  | mmio hit => rfl
  | refused => rfl

theorem pciWriteByte_fillSmram (addr : Nat) (value : BitVec 8) :
    (b.fillSmram k).pciWriteByte addr value = (b.pciWriteByte addr value).fillSmram k := by
  have hconf : (b.fillSmram k).pciConf = b.pciConf := rfl
  unfold pciWriteByte
  dsimp only
  rw [hconf]
  split
  · split <;> rfl
  · split <;> rfl

theorem pciWrite_fillSmram (address : Nat) (value : BitVec 32) (ioLen : Nat) :
    (b.fillSmram k).pciWrite address value ioLen = (b.pciWrite address value ioLen).fillSmram k := by
  unfold pciWrite
  split
  · rfl
  · generalize range ioLen = is
    induction is generalizing b with
    | nil => rfl
    | cons i is ih =>
      rw [foldl_cons, foldl_cons, ← ih]
      congr 1
      split
      · exact pciWriteByte_fillSmram k _ _
      · rfl

theorem applyPendingMachineBoundary_fillSmram :
    (b.fillSmram k).applyPendingMachineBoundary = b.applyPendingMachineBoundary.fillSmram k := by
  have hpam : (b.fillSmram k).applyPam = b.applyPam.fillSmram k := by
    have hpending : (b.fillSmram k).pamPending = b.pamPending := rfl
    unfold applyPam
    rw [hpending]
    split <;> rfl
  unfold applyPendingMachineBoundary
  dsimp only
  rw [hpam]
  have hpending : (b.applyPam.fillSmram k).smramPending = b.applyPam.smramPending := rfl
  have hconf : (b.applyPam.fillSmram k).pciConf = b.applyPam.pciConf := rfl
  rw [hpending, hconf]
  split
  · generalize smramEffect (b.applyPam.pciConf 0x72) = c
    cases c <;> rfl
  · rfl

/-- A route that stays out of the window makes its operation blind. -/
theorem blind_of_public {op : BusOp} (h : b.Closed) (havoid : op.AvoidsSmram b) :
    server.Blind smramSecret op b := by
  intro k
  cases op with
  | load monitorHit path addr len =>
    exact ⟨rfl, loaded_fillSmram k (h.routes_public monitorHit path addr len).1⟩
  | store monitorHit path addr data =>
    exact ⟨store_fillSmram k (h.routes_public monitorHit path addr data.length).2 data, rfl⟩
  | fetch monitorHit page => exact ⟨rfl, loaded_fillSmram k (h.fetchRoute_public monitorHit page)⟩
  | pciWrite address value ioLen => exact ⟨pciWrite_fillSmram k address value ioLen, rfl⟩
  | boundary => exact ⟨applyPendingMachineBoundary_fillSmram k, rfl⟩
  | setA20 enabled | setBiosWrite enabled | ioapicWindow add base | vgaBar registers old new =>
    exact ⟨rfl, rfl⟩
  | deviceStore addr data =>
    exact ⟨store_fillSmram k (h.writePhysicalPage_public rfl addr data.length) data, rfl⟩
  | readRam addr len =>
    refine ⟨rfl, ?_⟩
    show Answer.bytes (((b.fillSmram k).transferSpan addr len).map (b.fillSmram k).ram) =
      .bytes ((b.transferSpan addr len).map b.ram)
    rw [transferSpan_fillSmram]
    exact congrArg Answer.bytes (map_congr_left fun off hoff => if_neg (havoid off hoff))
  | writeRam addr data =>
    constructor
    · show (b.fillSmram k).putCells
        (((b.fillSmram k).transferSpan addr data.length).map Cell.ram) data = _
      rw [transferSpan_fillSmram, putCells_fillSmram k]
      · rfl
      · intro c hc
        obtain ⟨off, hoff, rfl⟩ := List.mem_map.mp hc
        exact havoid off hoff
    · show Answer.copied ((b.fillSmram k).transferSpan addr data.length).length = _
      rw [transferSpan_fillSmram]
      rfl

/-! ## Transfers that touch the window -/

theorem length_transferSpan_le (addr n : Nat) : (b.transferSpan addr n).length ≤ n := by
  induction n generalizing addr with
  | zero => rfl
  | succ n ih =>
    unfold transferSpan
    split
    · exact Nat.zero_le _
    · dsimp only
      split
      · exact Nat.zero_le _
      · split
        · exact Nat.succ_le_succ (ih (addr + 1))
        · exact Nat.zero_le _

theorem putCells_cons (off : Nat) (offs : List Nat) (d : BitVec 8) (ds : List (BitVec 8)) :
    b.putCells ((off :: offs).map .ram) (d :: ds) =
      (b.putCell (.ram off) d).putCells (offs.map .ram) ds := rfl

/-- A write leaves the bytes it does not cover. -/
theorem ram_putCells_of_notMem {offs : List Nat} {data : List (BitVec 8)}
    (h : off ∉ offs) : (b.putCells (offs.map .ram) data).ram off = b.ram off := by
  induction offs generalizing b data with
  | nil => rfl
  | cons o offs ih =>
    cases data with
    | nil => rfl
    | cons d ds =>
      rw [putCells_cons, ih fun hmem => h (mem_cons_of_mem _ hmem)]
      refine if_neg ?_
      rintro rfl
      exact h mem_cons_self

/-- What a write leaves in a byte it covers does not depend on what was there. -/
theorem ram_putCells_of_mem {c : Board} {offs : List Nat} {data : List (BitVec 8)}
    (hlen : offs.length ≤ data.length) (h : off ∈ offs) :
    (b.putCells (offs.map .ram) data).ram off = (c.putCells (offs.map .ram) data).ram off := by
  induction offs generalizing b c data with
  | nil => cases h
  | cons o offs ih =>
    cases data with
    | nil => cases hlen
    | cons d ds =>
      rw [putCells_cons, putCells_cons]
      by_cases hmem : off ∈ offs
      · exact ih (Nat.le_of_succ_le_succ hlen) hmem
      · obtain rfl : off = o := (List.mem_cons.mp h).resolve_right hmem
        rw [ram_putCells_of_notMem hmem, ram_putCells_of_notMem hmem]
        show (if off = off then d else _) = if off = off then d else _
        rw [if_pos rfl, if_pos rfl]

theorem add_one_ne (v : BitVec 8) : v + 1#8 ≠ v := by
  revert v
  decide

/-- A transfer that touches the window gives it away or overwrites it. -/
theorem leaks_of_not_avoidsSmram {op : BusOp} (havoid : ¬ op.AvoidsSmram b) :
    server.Leaks smramSecret op b := by
  cases op with
  | readRam addr len =>
    obtain ⟨off, hoff, hin⟩ : ∃ off ∈ b.transferSpan addr len, inSmramWindow off := by
      simpa [BusOp.AvoidsSmram] using havoid
    refine ⟨fun o => b.ram o + 1#8, .inl fun heq => ?_⟩
    have hmap : ((b.fillSmram _).transferSpan addr len).map (b.fillSmram _).ram =
        (b.transferSpan addr len).map b.ram := Answer.bytes.inj heq
    rw [transferSpan_fillSmram] at hmap
    have hbyte := List.map_inj_left.mp hmap off hoff
    have hfill : (b.fillSmram fun o => b.ram o + 1#8).ram off = b.ram off + 1#8 := if_pos hin
    exact add_one_ne _ (hfill.symm.trans hbyte)
  | writeRam addr data =>
    obtain ⟨off, hoff, hin⟩ : ∃ off ∈ b.transferSpan addr data.length, inSmramWindow off := by
      simpa [BusOp.AvoidsSmram] using havoid
    refine ⟨fun o => (b.exec (.writeRam addr data)).ram o + 1#8, .inr fun hshow => ?_⟩
    have hbyte : ((b.fillSmram _).putCells
        (((b.fillSmram _).transferSpan addr data.length).map .ram) data).ram off =
          (b.exec (.writeRam addr data)).ram off + 1#8 := hshow off hin
    rw [transferSpan_fillSmram,
      ram_putCells_of_mem (c := b) (b.length_transferSpan_le addr data.length) hoff] at hbyte
    exact add_one_ne _ hbyte.symm
  | _ => exact absurd trivial havoid

/-- From a locked board, whatever the processors outside SMM, the bridge and the devices do,
the window is private exactly when every device transfer stays out of it. -/
theorem locked_smram_private_iff (b : Board) (hlock : b.Locked) (hvga : b.VgaRegistered)
    (t : Traffic) : server.Private smramSecret t b ↔ server.Always BusOp.AvoidsSmram t b :=
  Server.private_iff (fun op _ h => h.exec op) (fun _ _ h => blind_of_public h)
    (fun _ _ _ => leaks_of_not_avoidsSmram) t b (hlock.closed hvga)

/-! ## A locked board -/

/-- 1 MiB of RAM, A20 on, SMRAM locked and closed (`0x1A`), the aperture in the first slot,
and in RAM a descriptor at `0x1000` for one word at `0xA0000`, the last of its table, and a
fw_cfg descriptor at `0x2000` for two bytes of entry 1. -/
def lockedBoard : Board where
  host := ⟨0x100000, rfl, by decide, true, ⟨fun _ _ _ => none, fun _ _ _ => false⟩⟩
  guestLen := 0x100000
  pciEnabled := true
  biosRomAddr := 0xfffc0000
  biosWriteEnabled := false
  memoryType _ _ := false
  smramAvailable := true
  smramEnable := false
  smramRestricted := false
  mmio := ⟨fun i => if i = 0 then some vgaRegion else none⟩
  pciConf i := if i = 0x72 then 0x1A#8 else 0#8
  pamPending := false
  smramPending := false
  ram off :=
    -- the IDE descriptor: address 0x000A0000, size 2 and the end-of-table bit
    if off = 0x1002 then 0x0A#8 else if off = 0x1004 then 0x02#8 else if off = 0x1007 then 0x80#8
    -- the fw_cfg descriptor: SELECT entry 1 and READ, length 2, address 0xA0000
    else if off = 0x2001 then 0x01#8 else if off = 0x2003 then 0x0A#8
    else if off = 0x2007 then 0x02#8 else if off = 0x200D then 0x0A#8
    else 0#8
  rom _ := 0#8

theorem lockedBoard_locked : lockedBoard.Locked := ⟨rfl, by decide, by decide, by decide⟩

theorem lockedBoard_vgaRegistered : lockedBoard.VgaRegistered := MmioMap.mem_regions.mpr ⟨0, rfl⟩

/-- Processor accesses to the window and an attempt to open it. -/
theorem locked_smram_private_cpu :
    server.Private smramSecret
      (.ask (.pciWrite 0x72 0x4A#32 1) fun _ => .ask .boundary fun _ =>
        .ask (.store false .routed 0xA0000#64 [0xAA#8]) fun _ =>
          .ask (.load false .slowByte 0xA0000#64 1) fun _ => .done) lockedBoard :=
  (locked_smram_private_iff lockedBoard lockedBoard_locked lockedBoard_vgaRegistered _).mpr
    ⟨trivial, trivial, trivial, trivial, trivial⟩

/-- A READ DMA of the two bytes the drive hands out. -/
def ideReadIntoSmram : Traffic :=
  BmDma.pciIdeTimer ⟨true, 0x1000#32, true, true, 0, 0, fun _ => 0#8⟩ [[0xAA#8, 0xBB#8]] true .done

/-- A memory-to-device transfer of one byte at `0xA0000`. -/
def dmaReadFromSmram : Traffic :=
  DmaChannel.raiseHlda ⟨false, 0x0A#8, 0#16, 0#16, false, 2#2⟩ none .done

def fwCfgIntoSmram : Traffic :=
  FwCfg.processDma ⟨0#16, 0, fun key => if key = 1#16 then some [0xAA#8, 0xBB#8] else none⟩
    0x2000 .done

/-- A state in which a byte of the window is not what it was filled with. -/
theorem not_private_of_ram {t : Traffic} (off : Nat) (v : BitVec 8) (hin : inSmramWindow off)
    (hv : v ≠ k off) (h : v ∈ (server.states t (b.fillSmram k)).map (·.ram off)) :
    ¬ server.Private smramSecret t b := by
  intro hp
  obtain ⟨s, hs, rfl⟩ := List.mem_map.mp h
  exact hv ((hp k).2 s hs off hin)

/-- Each of the three devices reaches the window of a locked board: the IDE transfer puts
the drive's byte at `0xA0000`, fw_cfg overwrites it too and the 8237 reads it. -/
theorem device_transfers_reach_locked_smram :
    lockedBoard.Locked ∧ lockedBoard.VgaRegistered ∧
      (server.states ideReadIntoSmram lockedBoard).map (·.ram 0xA0000) = [0x00#8, 0xAA#8] ∧
      ¬ server.Private smramSecret ideReadIntoSmram lockedBoard ∧
      ¬ server.Private smramSecret fwCfgIntoSmram lockedBoard ∧
      ¬ server.Private smramSecret dmaReadFromSmram lockedBoard := by
  refine ⟨lockedBoard_locked, lockedBoard_vgaRegistered, by decide +kernel, ?_, ?_, ?_⟩
  iterate 2 exact not_private_of_ram (fun _ => 0#8) 0xA0000 0xAA#8 rfl (by decide) (by decide +kernel)
  · intro hp
    have hanswers : server.answers dmaReadFromSmram (lockedBoard.fillSmram fun _ => 0x55#8) =
        server.answers dmaReadFromSmram lockedBoard := (hp fun _ => 0x55#8).1
    exact absurd hanswers (by decide +kernel)

end Board

end RustyBox
