-- SUMMARY: Saving and restoring the I/O APIC, and which register writes make it unsavable.
import RustyBox.Irq.Fabric
import RustyBox.PcSystem.Restore

/-!
# Snapshots of the I/O APIC

`save` validates every redirection entry and every queued message before it writes. An entry
holds whatever the guest stored in it, reserved bits included, so a guest can store an entry
that `save` refuses. These stores, `IrqFabric.Spoils`, are the only obstacle: what `save`
accepts comes back from `restore` as it was.
-/

namespace RustyBox

open Lib

/-! ## The validators -/

def validIoapicDeliveryMode (mode : BitVec 8) : Prop :=
  mode = 0 ∨ mode = 1 ∨ mode = 2 ∨ mode = 4 ∨ mode = 5 ∨ mode = 7

def ioapicModeRequiresVector (mode : BitVec 8) : Prop := mode = 0 ∨ mode = 1

instance (mode : BitVec 8) : Decidable (validIoapicDeliveryMode mode) :=
  inferInstanceAs (Decidable (_ ∨ _))

instance (mode : BitVec 8) : Decidable (ioapicModeRequiresVector mode) :=
  inferInstanceAs (Decidable (_ ∨ _))

/-- The bits of the pins. -/
def pinMask : BitVec 32 := 1#32 <<< ioapicNumPins - 1#32

def validateIoapicConfiguration (live : BxIoApic) (enabled : Bool)
    (baseAddr id intin irr : BitVec 32) : SnapResult Unit := do
  failIf (enabled ≠ live.enabled ∨ baseAddr ≠ live.baseAddr)
    (.invalid "IOAPIC MMIO configuration does not match live topology")
  failIf (id &&& ~~~ioapicIdMask ≠ 0#32) (.invalid "IOAPIC ID exceeds capability")
  failIf (intin &&& ~~~pinMask ≠ 0#32 ∨ irr &&& ~~~pinMask ≠ 0#32)
    (.invalid "IOAPIC pin state exceeds capability")

def validateIoapicRoute (e : IoRedirectEntry) : SnapResult Unit := do
  failIf (e.lo &&& ~~~0x0001FFFF#32 ≠ 0#32 ∨ e.hi &&& 0x00FFFFFF#32 ≠ 0#32)
    (.invalid "IOAPIC redirection entry contains reserved bits")
  failIf (¬ validIoapicDeliveryMode e.deliveryMode) (.invalid "IOAPIC delivery mode is reserved")
  failIf (ioapicModeRequiresVector e.deliveryMode ∧ e.vector < 0x10#8 ∧ e.lo &&& 1#32 <<< 16 = 0#32)
    (.invalid "IOAPIC interrupt vector is invalid")
  failIf (e.lo &&& 1#32 <<< 14 ≠ 0#32 ∧ e.lo &&& 1#32 <<< 15 = 0#32)
    (.invalid "IOAPIC edge-triggered route has remote IRR set")
  failIf (ioapicIdMask < e.destination.setWidth 32)
    (.invalid "IOAPIC destination exceeds capability")

/-- The conditions `validate_ioapic_delivery` refuses. -/
def PendingIoApicDelivery.Invalid (d : PendingIoApicDelivery) : Prop :=
  ioapicNumPins ≤ d.pin.toNat ∨ ¬ validIoapicDeliveryMode d.deliveryMode ∨ 1#8 < d.triggerMode ∨
    1#8 < d.destMode ∨ ioapicIdMask < d.dest ∨
    (ioapicModeRequiresVector d.deliveryMode ∧ d.vector < 0x10#8) ∨
    (d.needsPicIac ∧ (d.deliveryMode ≠ 7#8 ∨ d.vector ≠ 0#8))

instance (d : PendingIoApicDelivery) : Decidable d.Invalid := inferInstanceAs (Decidable (_ ∨ _))

def validateIoapicDelivery (d : PendingIoApicDelivery) : SnapResult Unit :=
  failIf d.Invalid (.invalid "IOAPIC pending delivery is invalid")

namespace BxIoApic

variable (s : BxIoApic)

/-- The redirection table, in pin order. -/
def entries : List IoRedirectEntry := (List.finRange ioapicNumPins).map s.ioredtbl

def validateIoapicSnapshotState : SnapResult Unit := do
  validateIoapicConfiguration s s.enabled s.baseAddr s.id s.intin s.irr
  forM s.entries validateIoapicRoute
  failIf (ioapicQueueCapacity < s.pendingDeliveries.length)
    (.invalid "IOAPIC pending queue exceeds capacity")
  forM s.pendingDeliveries validateIoapicDelivery

/-! ## The byte stream -/

def snapshotLen : Except SnapFailure Nat := do
  s.validateIoapicSnapshotState.mapError .snap
  let routes ← checkedSnapshotLenMul 24 8
  let queue ← checkedSnapshotLenMul s.pendingDeliveries.length 10
  let fieldsAndRoutes ← checkedSnapshotLenAdd 25 routes
  let queuePrefix ← checkedSnapshotLenAdd fieldsAndRoutes 4
  checkedSnapshotLenAdd queuePrefix queue

def entryBytes (e : IoRedirectEntry) : List UInt8 := wordBytes e.lo ++ wordBytes e.hi

def deliveryBytes (d : PendingIoApicDelivery) : List UInt8 :=
  wordBytes d.pin ++ wordBytes d.vector ++ wordBytes d.deliveryMode ++ wordBytes d.triggerMode ++
    wordBytes d.dest ++ wordBytes d.destMode ++ boolByte d.needsPicIac

def saveIoapicDelivery (d : PendingIoApicDelivery) : SnapResult (List UInt8) := do
  validateIoapicDelivery d
  .ok (deliveryBytes d)

/-- The fields before the table. -/
def headerBytes : List UInt8 :=
  leBytes 4 1 ++ boolByte s.enabled ++ wordBytes s.baseAddr ++ wordBytes s.id ++
    wordBytes s.ioregsel ++ wordBytes s.intin ++ wordBytes s.irr

def save : Except SnapFailure (List UInt8) := do
  let _ ← s.snapshotLen
  failIf (u32Max < s.pendingDeliveries.length)
    (snapshotInvalid "IOAPIC pending queue count is too large")
  failIf (ioapicQueueCapacity < s.pendingDeliveries.length)
    (snapshotInvalid "IOAPIC pending queue exceeds capacity")
  let deliveries ← (s.pendingDeliveries.mapM saveIoapicDelivery).mapError .snap
  .ok (s.headerBytes ++ (s.entries.map entryBytes).flatten ++
    leBytes 4 s.pendingDeliveries.length ++ deliveries.flatten)

end BxIoApic

section

variable {σ : Type}

def readIoRedirectEntry : SnapRead σ IoRedirectEntry := do
  let lo ← readWord 32
  let hi ← readWord 32
  validated (validateIoapicRoute ⟨lo, hi⟩)
  pure ⟨lo, hi⟩

def restoreIoapicDelivery : SnapRead σ PendingIoApicDelivery := do
  let pin ← readWord 8
  let vector ← readWord 8
  let deliveryMode ← readWord 8
  let triggerMode ← readWord 8
  let dest ← readWord 32
  let destMode ← readWord 8
  let needsPicIac ← readBool
  let delivery : PendingIoApicDelivery :=
    ⟨pin, vector, deliveryMode, triggerMode, dest, destMode, needsPicIac⟩
  validated (validateIoapicDelivery delivery)
  pure delivery

end

/-- What `restore` reads before it assigns anything. -/
def readIoApic : SnapRead BxIoApic BxIoApic := do
  let sectionVersion ← readU32
  refuseIf (sectionVersion ≠ 1) (snapshotInvalid "unsupported IOAPIC snapshot section version")
  let enabled ← readBool
  let baseAddr ← readWord 32
  let id ← readWord 32
  let ioregsel ← readWord 32
  let intin ← readWord 32
  let irr ← readWord 32
  let s ← live
  validated (validateIoapicConfiguration s enabled baseAddr id intin irr)
  let entries ← times readIoRedirectEntry ioapicNumPins
  let pendingCount ← readCount ioapicQueueCapacity
  let pendingDeliveries ← times restoreIoapicDelivery pendingCount
  pure { enabled, baseAddr, id, ioregsel, intin, irr, pendingDeliveries,
         ioredtbl := fun pin => entries.getD pin {} }

/-- `restore`. The registration of the register window stays as it is. -/
def BxIoApic.restore : SnapRead BxIoApic Unit :=
  restoring readIoApic fun restored s =>
    { restored with enabled := s.enabled, baseAddr := s.baseAddr }

/-! ## Routes -/

/-- The delivery status is not validated. -/
theorem validateIoapicRoute_congr {e e' : IoRedirectEntry} (hhi : e'.hi = e.hi)
    (hlo : e'.lo &&& ~~~(1#32 <<< 12) = e.lo &&& ~~~(1#32 <<< 12)) :
    validateIoapicRoute e' = validateIoapicRoute e := by
  have hmode : e'.deliveryMode = e.deliveryMode :=
    congrArg (BitVec.setWidth 8) (field_congr hlo (by decide))
  have hvector : e'.vector = e.vector := congrArg (BitVec.setWidth 8) (submask_congr hlo (by decide))
  have hdest : e'.destination = e.destination := by
    rw [IoRedirectEntry.destination, IoRedirectEntry.destination, hhi]
  have hreserved : e'.lo &&& ~~~0x0001FFFF#32 = e.lo &&& ~~~0x0001FFFF#32 :=
    submask_congr hlo (by decide)
  have hmask : e'.lo &&& 1#32 <<< 16 = e.lo &&& 1#32 <<< 16 := submask_congr hlo (by decide)
  have hremote : e'.lo &&& 1#32 <<< 14 = e.lo &&& 1#32 <<< 14 := submask_congr hlo (by decide)
  have htrigger : e'.lo &&& 1#32 <<< 15 = e.lo &&& 1#32 <<< 15 := submask_congr hlo (by decide)
  simp only [validateIoapicRoute, hmode, hvector, hdest, hhi, hreserved, hmask, hremote, htrigger]

theorem validateIoapicRoute_setDeliveryStatus (e : IoRedirectEntry) :
    validateIoapicRoute e.setDeliveryStatus = validateIoapicRoute e := by
  refine validateIoapicRoute_congr rfl ?_
  rw [IoRedirectEntry.setDeliveryStatus, BitVec.and_or_distrib_right]
  simp

theorem validateIoapicRoute_clearDeliveryStatus (e : IoRedirectEntry) :
    validateIoapicRoute e.clearDeliveryStatus = validateIoapicRoute e := by
  refine validateIoapicRoute_congr rfl ?_
  rw [IoRedirectEntry.clearDeliveryStatus, BitVec.and_assoc, BitVec.and_self]

/-- What the queue needs to know of a valid route. -/
theorem route_of_validate {e : IoRedirectEntry} (h : validateIoapicRoute e = .ok ()) :
    validIoapicDeliveryMode e.deliveryMode ∧
      (e.isMasked = false → ioapicModeRequiresVector e.deliveryMode → ¬ e.vector < 0x10#8) := by
  simp only [validateIoapicRoute, check_bind_eq_ok, failIf_eq_ok] at h
  obtain ⟨-, hmode, hvector, -⟩ := h
  refine ⟨not_not.mp hmode, fun hmask hreq hlow => hvector ⟨hreq, hlow, ?_⟩⟩
  by_contra hbit
  have hset : e.lo.getLsbD 16 := (and_one_shiftLeft_ne_zero (by decide)).mp hbit
  have hzero : (e.lo >>> 16 &&& 1#32).getLsbD 0 = false := by
    rw [bne_eq_false_iff_eq.mp hmask, BitVec.getLsbD_zero]
  rw [BitVec.getLsbD_and, BitVec.getLsbD_ushiftRight, hset] at hzero
  exact absurd hzero (by decide)

theorem and_one_le (x : BitVec 32) : ¬ 1#8 < (x &&& 1#32).setWidth 8 := by
  have hle : (x &&& 1#32).toNat ≤ 1 := by
    exact Nat.and_le_right
  simp only [BitVec.lt_def, BitVec.toNat_setWidth, BitVec.toNat_ofNat]
  omega

/-- The message of a valid, unmasked route is valid: the vector is the route's own, or the
8259 pair's in ExtINT mode, where any vector is. -/
theorem message_valid {s : BxIoApic} {pin : Fin ioapicNumPins} {vector : BitVec 8}
    (h : validateIoapicRoute (s.ioredtbl pin) = .ok ()) (hmask : (s.ioredtbl pin).isMasked = false)
    (hvector : vector = (s.ioredtbl pin).vector ∨ (s.ioredtbl pin).deliveryMode = 7#8) :
    ¬ (s.message pin vector).Invalid := by
  obtain ⟨hmode, hlow⟩ := route_of_validate h
  have hpin : ¬ ioapicNumPins ≤ (BitVec.ofNat 8 pin.val).toNat := by
    have := pin.isLt
    simp only [BitVec.toNat_ofNat] at this ⊢
    omega
  have hdest : ¬ ioapicIdMask < ((s.ioredtbl pin).destination.setWidth 32) := by
    simp only [ioapicIdMask, BitVec.lt_def, BitVec.toNat_setWidth, BitVec.toNat_ofNat]
    omega
  rintro (h | h | h | h | h | ⟨hreq, h⟩ | ⟨h, -⟩)
  · exact hpin h
  · exact h hmode
  · exact and_one_le _ h
  · exact and_one_le _ h
  · exact hdest h
  · rcases hvector with rfl | hext
    · exact hlow hmask hreq h
    · have hreq : ioapicModeRequiresVector (s.ioredtbl pin).deliveryMode := hreq
      rw [hext] at hreq
      exact absurd hreq (by decide)
  · exact Bool.false_ne_true h

/-! ## What is valid -/

namespace BxIoApic

variable {s : BxIoApic}

/-- Only bits of pins. -/
def PinsOnly (bits : BitVec 32) : Prop := bits &&& ~~~pinMask = 0#32

/-- What holds of the registers and the queue whatever the guest stores. -/
structure Sized (s : BxIoApic) : Prop where
  id : s.id &&& ~~~ioapicIdMask = 0#32
  intin : PinsOnly s.intin
  irr : PinsOnly s.irr
  queue : s.pendingDeliveries.length ≤ ioapicQueueCapacity

def RoutesOk (s : BxIoApic) : Prop := ∀ pin, validateIoapicRoute (s.ioredtbl pin) = .ok ()

def DeliveriesOk (s : BxIoApic) : Prop := ∀ d ∈ s.pendingDeliveries, ¬ d.Invalid

theorem validate_iff :
    s.validateIoapicSnapshotState = .ok () ↔ s.Sized ∧ s.RoutesOk ∧ s.DeliveriesOk := by
  simp only [validateIoapicSnapshotState, validateIoapicConfiguration, check_bind_eq_ok,
    failIf_eq_ok, forM_eq_ok, entries, List.mem_map, List.mem_finRange, true_and,
    validateIoapicDelivery, not_or, not_not, forall_exists_index, forall_apply_eq_imp_iff]
  constructor
  · rintro ⟨⟨hid, hintin, hirr⟩, hroutes, hlen, hqueue⟩
    exact ⟨⟨hid, hintin, hirr, Nat.not_lt.mp hlen⟩, hroutes, hqueue⟩
  · rintro ⟨hsized, hroutes, hqueue⟩
    exact ⟨⟨hsized.id, hsized.intin, hsized.irr⟩, hroutes, Nat.not_lt.mpr hsized.queue, hqueue⟩

/-! ## The round trip -/

/-- The device can be saved, and what is saved comes back in a device with the same register
window, whatever else that device holds. -/
def Snapshottable (s : BxIoApic) : Prop :=
  ∃ bytes, s.save = .ok bytes ∧ s.snapshotLen = .ok bytes.length ∧
    ∀ (t : BxIoApic) (rest : List UInt8), t.enabled = s.enabled → t.baseAddr = s.baseAddr →
      restore.run ⟨t, bytes ++ rest⟩ = .ok () ⟨s, rest⟩

section

variable {σ : Type} {self : σ}

theorem decodes_readIoRedirectEntry {e : IoRedirectEntry} (h : validateIoapicRoute e = .ok ()) :
    Decodes readIoRedirectEntry self (entryBytes e) e := by
  refine (decodes_readWord _).bind ((decodes_readWord _).bind_last ?_)
  exact (decodes_validated h).bind_nil (Decodes.pure e)

theorem decodes_restoreIoapicDelivery {d : PendingIoApicDelivery} (h : ¬ d.Invalid) :
    Decodes restoreIoapicDelivery self (deliveryBytes d) d := by
  have hvalid : validateIoapicDelivery d = .ok () := failIf_eq_ok.mpr h
  iterate 6 refine (decodes_readWord _).bind ?_
  refine (decodes_readBool _).bind_last ?_
  exact (decodes_validated hvalid).bind_nil (Decodes.pure d)

end

/-- What `save` writes. -/
def savedBytes (s : BxIoApic) : List UInt8 :=
  s.headerBytes ++ (s.entries.map entryBytes).flatten ++ leBytes 4 s.pendingDeliveries.length ++
    (s.pendingDeliveries.map deliveryBytes).flatten

theorem length_savedBytes (s : BxIoApic) :
    s.savedBytes.length = 221 + s.pendingDeliveries.length * 10 := by
  have hentries : (s.entries.map entryBytes).flatten.length = 192 := by
    rfl
  have hqueue := length_flatten_of_forall₂ (R := fun d b => b = deliveryBytes d) (n := 10)
    (fun _ _ h => by rw [h, deliveryBytes]; simp)
    (List.forall₂_map_right_iff.mpr
      (List.forall₂_same.mpr fun d (_ : d ∈ s.pendingDeliveries) => rfl))
  rw [savedBytes, headerBytes]
  simp only [List.length_append, length_leBytes, length_wordBytes, length_boolByte]
  omega

theorem snapshotLen_of_validate (h : s.validateIoapicSnapshotState = .ok ()) :
    s.snapshotLen = .ok s.savedBytes.length := by
  have hlen := (validate_iff.mp h).1.queue
  have hmax : ioapicQueueCapacity = 256 := rfl
  have hsection : maxSectionLen = 4294967296 := rfl
  have hqueue : checkedSnapshotLenMul s.pendingDeliveries.length 10 =
      .ok (s.pendingDeliveries.length * 10) := checkedSnapshotLenMul_ok (by omega)
  have htotal : checkedSnapshotLenAdd 221 (s.pendingDeliveries.length * 10) =
      .ok (221 + s.pendingDeliveries.length * 10) := checkedSnapshotLenAdd_ok (by omega)
  rw [length_savedBytes, snapshotLen, h, hqueue]
  exact htotal

theorem save_of_validate (h : s.validateIoapicSnapshotState = .ok ()) :
    s.save = .ok s.savedBytes := by
  obtain ⟨hsized, -, hqueue⟩ := validate_iff.mp h
  have hmax : ioapicQueueCapacity = 256 := rfl
  have hu32 : u32Max = 4294967295 := rfl
  have hlen := hsized.queue
  have hdeliveries : s.pendingDeliveries.mapM saveIoapicDelivery =
      .ok (s.pendingDeliveries.map deliveryBytes) :=
    mapM_eq_map fun d hd => by
      rw [saveIoapicDelivery, validateIoapicDelivery, failIf, if_neg (hqueue d hd)]
      rfl
  rw [save, snapshotLen_of_validate h, hdeliveries, failIf, if_neg (by omega), failIf,
    if_neg (by omega)]
  rfl

theorem decodes_readIoApic {t : BxIoApic} (h : s.validateIoapicSnapshotState = .ok ())
    (henabled : t.enabled = s.enabled) (hbase : t.baseAddr = s.baseAddr) :
    Decodes readIoApic t s.savedBytes s := by
  obtain ⟨hsized, hroutes, hqueue⟩ := validate_iff.mp h
  have hconfig : validateIoapicConfiguration t s.enabled s.baseAddr s.id s.intin s.irr = .ok () := by
    rw [validateIoapicConfiguration]
    simp only [check_bind_eq_ok, failIf_eq_ok, henabled, hbase, hsized.id, not_or, not_not,
      true_and]
    exact ⟨hsized.intin, hsized.irr⟩
  have hcount : s.pendingDeliveries.length ≤ min ioapicQueueCapacity maxCount :=
    le_min hsized.queue (hsized.queue.trans (by decide))
  rw [savedBytes]
  simp only [List.append_assoc]
  refine (decodes_readBool _).bind ?_
  iterate 5 refine (decodes_readWord _).bind ?_
  refine (decodes_validated hconfig).bind_nil ?_
  refine (decodes_times ((List.length_map _).trans List.length_finRange)
    (List.forall₂_map_right_iff.mpr (List.forall₂_same.mpr fun e he => ?_))).bind ?_
  · obtain ⟨pin, -, rfl⟩ := List.mem_map.mp he
    exact decodes_readIoRedirectEntry (hroutes pin)
  refine (decodes_readCount hcount).bind ?_
  refine (decodes_times rfl (List.forall₂_map_right_iff.mpr
    (List.forall₂_same.mpr fun d hd => decodes_restoreIoapicDelivery (hqueue d hd)))).bind_last ?_
  have htable : (fun pin : Fin ioapicNumPins =>
      ((List.finRange ioapicNumPins).map s.ioredtbl).getD pin {}) = s.ioredtbl :=
    funext fun pin => getD_finRange_map s.ioredtbl _ pin
  rw [htable]
  exact Decodes.pure s

/-- Saving succeeds, and the saved bytes restore the device, exactly when the validator
accepts it. -/
theorem snapshottable_iff : s.Snapshottable ↔ s.validateIoapicSnapshotState = .ok () := by
  constructor
  · rintro ⟨bytes, -, hlen, -⟩
    rw [snapshotLen] at hlen
    cases hvalid : s.validateIoapicSnapshotState with
    | ok _ => rfl
    | error e =>
      rw [hvalid] at hlen
      exact nomatch hlen
  · intro h
    refine ⟨_, save_of_validate h, snapshotLen_of_validate h, fun t rest henabled hbase => ?_⟩
    have hrun : restore.run ⟨t, s.savedBytes ++ rest⟩ =
        .ok () ⟨{ s with enabled := t.enabled, baseAddr := t.baseAddr }, rest⟩ :=
      run_restoring (decodes_readIoApic h henabled hbase) rest
    rwa [henabled, hbase] at hrun

/-! ## Steps of the device -/

theorem pinsOnly_setBit {bits : BitVec 32} (h : PinsOnly bits) (pin : Fin ioapicNumPins) :
    PinsOnly (setBit bits (pinBit pin)) := by
  have hpin : ∀ pin : Fin ioapicNumPins, 1#32 <<< (pinBit pin).val &&& ~~~pinMask = 0#32 := by
    decide
  rw [PinsOnly, setBit, BitVec.and_or_distrib_right, h, hpin pin, BitVec.or_zero]

theorem pinsOnly_clearBit {bits : BitVec 32} (h : PinsOnly bits) (pin : Fin ioapicNumPins) :
    PinsOnly (clearBit bits (pinBit pin)) := by
  rw [PinsOnly, clearBit, BitVec.and_assoc, BitVec.and_comm (~~~(1#32 <<< (pinBit pin).val)),
    ← BitVec.and_assoc, h, BitVec.zero_and]

/-- An update of one entry that its validity does not depend on. -/
theorem routesOk_update_iff {pin : Fin ioapicNumPins} {e : IoRedirectEntry}
    (he : validateIoapicRoute e = validateIoapicRoute (s.ioredtbl pin)) :
    (∀ p, validateIoapicRoute (Function.update s.ioredtbl pin e p) = .ok ()) ↔ s.RoutesOk := by
  refine forall_congr' fun p => ?_
  by_cases hp : p = pin
  · subst hp
    rw [Function.update_self, he]
  · rw [Function.update_of_ne hp]

theorem sized_deliver (h : s.Sized) (pin : Fin ioapicNumPins) (vector : BitVec 8) :
    (s.deliver pin vector).Sized := by
  simp only [deliver]
  split
  · rename_i henq
    simp only [enqueues, Bool.and_eq_true, decide_eq_true_eq] at henq
    refine ⟨h.id, h.intin, ?_, ?_⟩
    · split
      · exact pinsOnly_clearBit h.irr pin
      · exact h.irr
    · rw [List.length_append]
      exact henq.2
  · exact ⟨h.id, h.intin, h.irr, h.queue⟩

theorem routesOk_deliver_iff (pin : Fin ioapicNumPins) (vector : BitVec 8) :
    (s.deliver pin vector).RoutesOk ↔ s.RoutesOk := by
  exact routesOk_update_iff (validateIoapicRoute_setDeliveryStatus _)

theorem deliveriesOk_deliver (hq : s.DeliveriesOk) (hr : s.RoutesOk) {pin : Fin ioapicNumPins}
    {vector : BitVec 8} (hmask : (s.ioredtbl pin).isMasked = false)
    (hvector : vector = (s.ioredtbl pin).vector ∨ (s.ioredtbl pin).deliveryMode = 7#8) :
    (s.deliver pin vector).DeliveriesOk := by
  simp only [deliver]
  split
  · intro d hd
    rcases List.mem_append.mp hd with hd | hd
    · exact hq d hd
    · rw [List.mem_singleton.mp hd]
      exact message_valid (hr pin) hmask hvector
  · exact hq

/-- The scan keeps the registers in size and the routes as valid as they were, and queues
valid messages for valid routes. -/
theorem service_valid (h : s.Sized) {π : Type} (acknowledge : π → π × BitVec 8) (p : π) :
    (service acknowledge (s, p)).1.Sized ∧
      ((service acknowledge (s, p)).1.RoutesOk ↔ s.RoutesOk) ∧
      (s.RoutesOk → s.DeliveriesOk → (service acknowledge (s, p)).1.DeliveriesOk) := by
  refine service_rule (Q := fun sp => sp.1.Sized ∧ (sp.1.RoutesOk ↔ s.RoutesOk) ∧
    (s.RoutesOk → s.DeliveriesOk → sp.1.DeliveriesOk)) ?_ ?_ ⟨h, .rfl, fun _ hq => hq⟩
  · rintro s' p pin ⟨hs, hr, hq⟩ hmask hmode
    refine ⟨sized_deliver hs _ _, (routesOk_deliver_iff _ _).trans hr, fun hroutes hqueue => ?_⟩
    exact deliveriesOk_deliver (hq hroutes hqueue) (hr.mpr hroutes) hmask (.inr hmode)
  · rintro s' p pin ⟨hs, hr, hq⟩ hmask -
    refine ⟨sized_deliver hs _ _, (routesOk_deliver_iff _ _).trans hr, fun hroutes hqueue => ?_⟩
    exact deliveriesOk_deliver (hq hroutes hqueue) (hr.mpr hroutes) hmask (.inl rfl)

theorem setPinLevel_valid (h : s.Sized) (intIn : Nat) (level : Bool) :
    (s.setPinLevel intIn level).1.Sized ∧ (s.setPinLevel intIn level).1.ioredtbl = s.ioredtbl ∧
      (s.setPinLevel intIn level).1.pendingDeliveries = s.pendingDeliveries := by
  simp only [setPinLevel]
  generalize (if intIn = 0 then 2 else intIn) = target
  split_ifs
  · exact ⟨h, rfl, rfl⟩
  · exact ⟨⟨h.id, pinsOnly_setBit h.intin _, pinsOnly_setBit h.irr _, h.queue⟩, rfl, rfl⟩
  · exact ⟨⟨h.id, pinsOnly_clearBit h.intin _, pinsOnly_clearBit h.irr _, h.queue⟩, rfl, rfl⟩
  · exact ⟨⟨h.id, pinsOnly_setBit h.intin _, pinsOnly_setBit h.irr _, h.queue⟩, rfl, rfl⟩
  · exact ⟨⟨h.id, pinsOnly_setBit h.intin _, h.irr, h.queue⟩, rfl, rfl⟩
  · exact ⟨⟨h.id, pinsOnly_clearBit h.intin _, h.irr, h.queue⟩, rfl, rfl⟩
  · exact ⟨h, rfl, rfl⟩

/-- The entry that a write to the register window puts into the table. -/
def alignedEntry (s : BxIoApic) (address : Nat) (value : BitVec 32) :
    Option (Fin ioapicNumPins × IoRedirectEntry) :=
  if address % 256 ≠ 0x10 ∨ s.ioregsel = 0x00#32 ∨ s.ioregsel = 0x01#32 ∨ s.ioregsel = 0x02#32 then
    none
  else
    (redtblIndex s.ioregsel).map fun pin =>
      (pin, if s.ioregsel &&& 1#32 ≠ 0#32 then (s.ioredtbl pin).setHiPart value
        else (s.ioredtbl pin).setLoPart value)

def storedEntry (s : BxIoApic) (addr len : Nat) (data : List UInt8) :
    Option (Fin ioapicNumPins × IoRedirectEntry) :=
  (memWriteValue addr len data).bind (s.alignedEntry addr)

/-- The table with an entry stored. -/
def tableWith (s : BxIoApic) :
    Option (Fin ioapicNumPins × IoRedirectEntry) → Fin ioapicNumPins → IoRedirectEntry
  | some (pin, e) => Function.update s.ioredtbl pin e
  | none => s.ioredtbl

/-- Storing into a table of valid routes. -/
theorem routesOk_tableWith_iff (h : s.RoutesOk)
    (stored : Option (Fin ioapicNumPins × IoRedirectEntry)) :
    (∀ p, validateIoapicRoute (s.tableWith stored p) = .ok ()) ↔
      ∀ pin e, stored = some (pin, e) → validateIoapicRoute e = .ok () := by
  constructor
  · rintro hall pin e rfl
    have hpin := hall pin
    rwa [tableWith, Function.update_self] at hpin
  · intro hstored p
    rcases stored with _ | ⟨pin, e⟩
    · exact h p
    · rw [tableWith]
      by_cases hp : p = pin
      · subst hp
        rw [Function.update_self]
        exact hstored p e rfl
      · rw [Function.update_of_ne hp]
        exact h p

theorem writeAligned_valid (h : s.Sized) (address : Nat) (value : BitVec 32) :
    (s.writeAligned address value).1.Sized ∧
      (s.writeAligned address value).1.pendingDeliveries = s.pendingDeliveries ∧
      (s.writeAligned address value).1.ioredtbl = s.tableWith (s.alignedEntry address value) := by
  rw [writeAligned, alignedEntry]
  by_cases h0 : address % 256 = 0x00
  · have hstored : address % 256 ≠ 0x10 := by omega
    rw [if_pos h0, if_pos (.inl hstored)]
    exact ⟨⟨h.id, h.intin, h.irr, h.queue⟩, rfl, rfl⟩
  rw [if_neg h0]
  by_cases h10 : address % 256 ≠ 0x10
  · rw [if_pos h10, if_pos (.inl h10)]
    exact ⟨h, rfl, rfl⟩
  rw [if_neg h10]
  by_cases hid : s.ioregsel = 0x00#32
  · rw [if_pos hid, if_pos (.inr (.inl hid))]
    refine ⟨⟨?_, h.intin, h.irr, h.queue⟩, rfl, rfl⟩
    rw [BitVec.and_assoc, show ioapicIdMask &&& ~~~ioapicIdMask = 0#32 by decide, BitVec.and_zero]
  rw [if_neg hid]
  by_cases hro : s.ioregsel = 0x01#32 ∨ s.ioregsel = 0x02#32
  · rw [if_pos hro, if_pos (.inr (.inr hro))]
    exact ⟨h, rfl, rfl⟩
  have hstored : ¬(address % 256 ≠ 0x10 ∨ s.ioregsel = 0x00#32 ∨ s.ioregsel = 0x01#32 ∨
      s.ioregsel = 0x02#32) := by
    simp only [h10, hid, hro, or_self, not_false_eq_true]
  rw [if_neg hro, if_neg hstored]
  cases redtblIndex s.ioregsel with
  | none => exact ⟨h, rfl, rfl⟩
  | some pin => exact ⟨⟨h.id, h.intin, h.irr, h.queue⟩, rfl, rfl⟩

theorem memWrite_valid (h : s.Sized) (addr len : Nat) (data : List UInt8) :
    (s.memWrite addr len data).1.Sized ∧
      (s.memWrite addr len data).1.pendingDeliveries = s.pendingDeliveries ∧
      (s.memWrite addr len data).1.ioredtbl = s.tableWith (s.storedEntry addr len data) := by
  rw [memWrite, storedEntry]
  cases memWriteValue addr len data with
  | none => exact ⟨h, rfl, rfl⟩
  | some value => exact writeAligned_valid h addr value

theorem completeDeferredDelivery_valid (h : s.Sized) (delivery : PendingIoApicDelivery)
    (done : Bool) :
    (s.completeDeferredDelivery delivery done).Sized ∧
      ((s.completeDeferredDelivery delivery done).RoutesOk ↔ s.RoutesOk) ∧
      (s.completeDeferredDelivery delivery done).pendingDeliveries = s.pendingDeliveries := by
  have hirr (pin : Fin ioapicNumPins) :
      PinsOnly (if delivery.triggerMode = 0#8 then clearBit s.irr (pinBit pin) else s.irr) ∧
        PinsOnly (if delivery.triggerMode = 0#8 then setBit s.irr (pinBit pin) else s.irr) := by
    split
    · exact ⟨pinsOnly_clearBit h.irr pin, pinsOnly_setBit h.irr pin⟩
    · exact ⟨h.irr, h.irr⟩
  rw [completeDeferredDelivery]
  split
  · split
    · exact ⟨⟨h.id, h.intin, (hirr _).1, h.queue⟩,
        routesOk_update_iff (validateIoapicRoute_clearDeliveryStatus _), rfl⟩
    · exact ⟨⟨h.id, h.intin, (hirr _).2, h.queue⟩,
        routesOk_update_iff (validateIoapicRoute_setDeliveryStatus _), rfl⟩
  · exact ⟨h, .rfl, rfl⟩

end BxIoApic

/-! ## Runs -/

namespace IrqFabric

variable {f : IrqFabric}

open BxIoApic

/-- The step stores a redirection entry that `save` refuses. -/
def Spoils (f : IrqFabric) : FabricOp → Prop
  | .mmioWrite addr len data =>
    ∃ pin e, f.ioapic.storedEntry addr len data = some (pin, e) ∧ validateIoapicRoute e ≠ .ok ()
  | _ => False

theorem serviced_valid {r : BxIoApic × ServiceRequest} (h : r.1.Sized) :
    (f.serviced r).ioapic.Sized ∧ ((f.serviced r).ioapic.RoutesOk ↔ r.1.RoutesOk) ∧
      (r.1.RoutesOk → r.1.DeliveriesOk → (f.serviced r).ioapic.DeliveriesOk) := by
  obtain ⟨ioapic, request⟩ := r
  cases request with
  | needed => exact service_valid h BxPicC.iac f.pic
  | notNeeded => exact ⟨h, .rfl, fun _ hq => hq⟩

/-- Routes and queue untouched by the change itself, the device stays valid. -/
theorem serviced_keeps {r : BxIoApic × ServiceRequest}
    (hvalid : f.ioapic.RoutesOk ∧ f.ioapic.DeliveriesOk)
    (h : r.1.Sized) (htable : r.1.ioredtbl = f.ioapic.ioredtbl)
    (hqueue : r.1.pendingDeliveries = f.ioapic.pendingDeliveries) :
    (f.serviced r).ioapic.RoutesOk ∧ (f.serviced r).ioapic.DeliveriesOk := by
  have hroutes : r.1.RoutesOk := by
    rw [RoutesOk, htable]
    exact hvalid.1
  have hdeliveries : r.1.DeliveriesOk := by
    rw [DeliveriesOk, hqueue]
    exact hvalid.2
  obtain ⟨-, hr, hq⟩ := serviced_valid (f := f) h
  exact ⟨hr.mpr hroutes, hq hroutes hdeliveries⟩

theorem sized_step (h : f.ioapic.Sized) (op : FabricOp) : (f.step op).ioapic.Sized := by
  cases op with
  | setIsaLevel line level =>
    rw [step, setIsaLevel]
    rcases f.pic.setIrqLevel line level with ⟨pic, edge⟩
    cases edge with
    | notCrossed => exact h
    | crossed => exact (serviced_valid (setPinLevel_valid h line level).1).1
  | mmioWrite addr len data => exact (serviced_valid (memWrite_valid h addr len data).1).1
  | setIoapicPin pin level => exact (serviced_valid (setPinLevel_valid h pin level).1).1
  | takePendingDeliveries => exact ⟨h.id, h.intin, h.irr, Nat.zero_le _⟩
  | completeDeferredDelivery delivery done => exact (completeDeferredDelivery_valid h delivery done).1
  | resampleOnEoi vector =>
    rw [step, resampleOnEoi]
    split
    · exact (service_valid h BxPicC.iac f.pic).1
    · exact h
  | picWrite port value | picRead port ioLen | setMode isMaster mode | acknowledge => exact h

/-- A store to the register window leaves the device valid exactly when what it stores is. -/
theorem valid_mmioWrite_iff (hs : f.ioapic.Sized) (h : f.ioapic.RoutesOk ∧ f.ioapic.DeliveriesOk)
    (addr len : Nat) (data : List UInt8) :
    ((f.mmioWrite addr len data).ioapic.RoutesOk ∧ (f.mmioWrite addr len data).ioapic.DeliveriesOk) ↔
      ¬ f.Spoils (.mmioWrite addr len data) := by
  obtain ⟨hsized, hqueue, htable⟩ := memWrite_valid hs addr len data
  have hdeliveries : (f.ioapic.memWrite addr len data).1.DeliveriesOk := by
    rw [DeliveriesOk, hqueue]
    exact h.2
  obtain ⟨-, hr, hq⟩ := serviced_valid (f := f) hsized
  have hroutes : (f.ioapic.memWrite addr len data).1.RoutesOk ↔
      ¬ f.Spoils (.mmioWrite addr len data) := by
    rw [RoutesOk, htable, routesOk_tableWith_iff h.1, Spoils]
    push Not
    rfl
  refine ⟨fun hafter => hroutes.mp (hr.mp hafter.1), fun hgood => ?_⟩
  exact ⟨hr.mpr (hroutes.mpr hgood), hq (hroutes.mpr hgood) hdeliveries⟩

theorem valid_step_iff (hs : f.ioapic.Sized) (h : f.ioapic.RoutesOk ∧ f.ioapic.DeliveriesOk)
    (op : FabricOp) :
    ((f.step op).ioapic.RoutesOk ∧ (f.step op).ioapic.DeliveriesOk) ↔ ¬ f.Spoils op := by
  cases op with
  | mmioWrite addr len data => exact valid_mmioWrite_iff hs h addr len data
  | setIsaLevel line level =>
    simp only [Spoils, not_false_eq_true, iff_true, step, setIsaLevel]
    rcases f.pic.setIrqLevel line level with ⟨pic, edge⟩
    cases edge with
    | notCrossed => exact h
    | crossed =>
      obtain ⟨hsized, htable, hqueue⟩ := setPinLevel_valid hs line level
      exact serviced_keeps (f := { f with pic }) h hsized htable hqueue
  | setIoapicPin pin level =>
    simp only [Spoils, not_false_eq_true, iff_true]
    obtain ⟨hsized, htable, hqueue⟩ := setPinLevel_valid hs pin level
    exact serviced_keeps h hsized htable hqueue
  | takePendingDeliveries =>
    simp only [Spoils, not_false_eq_true, iff_true]
    exact ⟨h.1, fun _ hd => by cases hd⟩
  | completeDeferredDelivery delivery done =>
    simp only [Spoils, not_false_eq_true, iff_true]
    obtain ⟨-, hr, hqueue⟩ := completeDeferredDelivery_valid hs delivery done
    refine ⟨hr.mpr h.1, ?_⟩
    rw [step, DeliveriesOk, hqueue]
    exact h.2
  | resampleOnEoi vector =>
    simp only [Spoils, not_false_eq_true, iff_true, step, resampleOnEoi]
    split
    · obtain ⟨-, hr, hq⟩ := service_valid hs BxPicC.iac f.pic
      exact ⟨hr.mpr h.1, hq h.1 h.2⟩
    · exact h
  | picWrite port value | picRead port ioLen | setMode isMaster mode => simpa [Spoils, step] using h
  | acknowledge =>
    simp only [Spoils, not_false_eq_true, iff_true]
    exact h

/-- A fresh fabric whose I/O APIC has its register window somewhere, or none. -/
def placed (enabled : Bool) (baseAddr : BitVec 32) : IrqFabric :=
  { new with ioapic := { BxIoApic.new with enabled, baseAddr } }

/-- In a run from power-on the I/O APIC can be saved and restored at every point exactly when
the guest never stores a redirection entry that the validator refuses. -/
theorem ioapic_snapshottable_iff (enabled : Bool) (baseAddr : BitVec 32) (ops : List FabricOp) :
    (∀ f ∈ ops.scanl step (placed enabled baseAddr), f.ioapic.Snapshottable) ↔
      StepsMeet step (fun f op => ¬ f.Spoils op) (placed enabled baseAddr) ops := by
  have hsized : (placed enabled baseAddr).ioapic.Sized :=
    ⟨show 1#32 &&& ~~~ioapicIdMask = 0#32 by decide, show 0#32 &&& ~~~pinMask = 0#32 by decide,
      show 0#32 &&& ~~~pinMask = 0#32 by decide, Nat.zero_le _⟩
  have hroutes : (placed enabled baseAddr).ioapic.RoutesOk :=
    fun _ => show validateIoapicRoute {} = .ok () by decide
  refine forall_scanl_iff_stepsMeet_of_inv (I := fun f => f.ioapic.Sized)
    (fun _ op h _ => sized_step h op) (fun f op hs h => ?_) hsized ?_ ops
  · rw [snapshottable_iff, BxIoApic.validate_iff] at h
    rw [snapshottable_iff, BxIoApic.validate_iff, ← valid_step_iff hs h.2 op]
    exact and_iff_right (sized_step hs op)
  · rw [snapshottable_iff, BxIoApic.validate_iff]
    exact ⟨hsized, hroutes, fun _ hd => nomatch hd⟩

/-- The guest selects the low part of entry 0 and stores all ones. -/
def reservedBitOps : List FabricOp :=
  [.mmioWrite 0x00 4 [0x10, 0, 0, 0], .mmioWrite 0x10 4 [0xFF, 0xFF, 0xFF, 0xFF]]

/-- The reserved bits stay in the entry and the device can no longer be saved. -/
theorem reserved_bits_unsavable :
    ((placed true 0xFEC00000).run reservedBitOps).ioapic.save =
      .error (snapshotInvalid "IOAPIC redirection entry contains reserved bits") := by
  decide +kernel

end IrqFabric

end RustyBox
