-- SUMMARY: Everything that reaches the memory system, one operation at a time, and the transfers of the three DMA devices.
import RustyBox.Lib.LittleEndian
import RustyBox.Lib.Secrecy
import RustyBox.Memory.Routing

/-!
# Traffic on the memory bus

`BusOp` is what can reach the memory system between two resets: accesses of processors
outside SMM, writes to the host bridge, the boundary at which pending register changes take
effect, moves of device windows, and the transfers of devices. `Board.server` runs them and
says what each delivers. A run of the machine is a dialogue with that server: which
operation comes next may depend on everything delivered before. Bus-master IDE, the 8237
and fw_cfg are dialogues that only use `read_ram` and `write_ram`.
-/

namespace RustyBox

open Lib

/-! ## The host bridge -/

/-- `SmramControl`. -/
inductive SmramControl
  | disable
  | enable (dopen dcls : Bool)
  deriving DecidableEq

/-- `smram_effect` of a register value. -/
def smramEffect (v : BitVec 8) : SmramControl :=
  if v &&& 0x08#8 = 0#8 then .disable
  else if v &&& 0x40#8 ≠ 0#8 ∧ v &&& 0x20#8 ≠ 0#8 then .disable
  else .enable (v &&& 0x40#8 ≠ 0#8) (v &&& 0x20#8 ≠ 0#8)

namespace Board

variable (b : Board)

def setConf (i : Nat) (v : BitVec 8) : Board :=
  { b with pciConf := fun j => if j = i then v else b.pciConf j }

/-- `smram_control`: under DLCK the new value keeps DLCK and loses DOPEN. -/
def smramControl (value : BitVec 8) : Board :=
  let v := (value &&& 0x78#8) ||| 0x02#8
  b.setConf 0x72 (if b.pciConf 0x72 &&& 0x10#8 ≠ 0#8 then (v &&& 0xBF#8) ||| 0x10#8 else v)

/-- What a register of the bridge holds after a byte is written to it, apart from the PAM
and SMRAM registers. -/
def bridgeRegister (addr : Nat) (old value : BitVec 8) : BitVec 8 :=
  if addr = 0x04 then (value &&& 0x40#8) ||| 0x06#8
  else if addr = 0x05 then value &&& 0x01#8
  else if addr = 0x06 ∨ addr = 0x0C ∨ addr = 0x0F then old
  else if addr = 0x07 then old &&& value &&& 0xFD#8
  else if addr = 0x0D then value &&& 0xF8#8
  else if addr = 0x50 then value &&& 0x70#8
  else if addr = 0x51 then (value &&& 0x80#8) ||| 0x01#8
  else if addr = 0x7A then (value &&& 0xF5#8) ||| (old &&& 0x0A#8)
  else if addr = 0x73 ∨ addr = 0xB4 ∨ 0xB8 ≤ addr ∧ addr ≤ 0xBB ∨ addr = 0xF0 then old
  else value

/-- One byte of `pci_write`. -/
def pciWriteByte (addr : Nat) (value : BitVec 8) : Board :=
  let old := b.pciConf addr
  if 0x59 ≤ addr ∧ addr ≤ 0x5F then
    if value ≠ old then { b.setConf addr value with pamPending := true } else b
  else if addr = 0x72 then { b.smramControl value with smramPending := true }
  else b.setConf addr (bridgeRegister addr old value)

/-- `BxPciBridge::pci_write`. -/
def pciWrite (address : Nat) (value : BitVec 32) (ioLen : Nat) : Board :=
  if 0x10 ≤ address ∧ address < 0x34 then b
  else (List.range ioLen).foldl (fun b i =>
    if address + i < 256 then b.pciWriteByte (address + i) (byteAt value i) else b) b

/-- `shadow_ram_effect`: the PAM bit of an area. -/
def shadowRamEffect (area : Nat) (write : Bool) : Bool :=
  if area = 12 then (b.pciConf 0x59).getLsbD (4 + write.toNat)
  else (b.pciConf (0x5A + area / 2)).getLsbD (area % 2 * 4 + write.toNat)

/-- `disable_smram` and `enable_smram`. -/
def applySmram : SmramControl → Board
  | .disable => { b with smramAvailable := false, smramEnable := false, smramRestricted := false }
  | .enable dopen dcls =>
    { b with smramAvailable := true, smramEnable := dopen, smramRestricted := dcls }

def applyPam : Board :=
  if b.pamPending then
    { b with
      memoryType := fun area write =>
        if area < 13 then b.shadowRamEffect area write else b.memoryType area write
      pamPending := false }
  else b

/-- `apply_pending_machine_boundary`, the arms that concern the host bridge. -/
def applyPendingMachineBoundary : Board :=
  let b := b.applyPam
  if b.smramPending then { b.applySmram (smramEffect (b.pciConf 0x72)) with smramPending := false }
  else b

/-! ## Operations -/

end Board

inductive BusOp
  | load (monitorHit : Bool) (path : CpuPath) (addr : BitVec 64) (len : Nat)
  | store (monitorHit : Bool) (path : CpuPath) (addr : BitVec 64) (data : List (BitVec 8))
  | fetch (monitorHit : Bool) (page : Nat)
  | pciWrite (address : Nat) (value : BitVec 32) (ioLen : Nat)
  | boundary
  | setA20 (enabled : Bool)
  | setBiosWrite (enabled : Bool)
  /-- The I/O APIC registers or unregisters its page. -/
  | ioapicWindow (add : Bool) (base : Nat)
  /-- A VGA memory BAR moves. -/
  | vgaBar (registers : Bool) (old new : Option (Nat × Nat))
  /-- A message a device sends through `write_physical_page`. -/
  | deviceStore (addr : BitVec 64) (data : List (BitVec 8))
  | readRam (addr : Nat) (len : Nat)
  | writeRam (addr : Nat) (data : List (BitVec 8))

/-- What an operation delivers to whoever issued it. -/
inductive Answer
  | bytes (data : List (BitVec 8))
  | device (hit : MmioHit)
  | copied (n : Nat)
  | refused
  | done
  deriving DecidableEq

namespace Board

variable (b : Board)

def cellValue : Cell → BitVec 8
  | .ram off => b.ram off
  | .rom off => b.rom off
  | .blank v => v

def putCell (c : Cell) (v : BitVec 8) : Board :=
  match c with
  | .ram off => { b with ram := fun o => if o = off then v else b.ram o }
  | .rom off => { b with rom := fun o => if o = off then v else b.rom o }
  | .blank _ => b

/-- The bytes of a write, one after the other. -/
def putCells (cs : List Cell) (data : List (BitVec 8)) : Board :=
  (cs.zip data).foldl (fun b x => b.putCell x.1 x.2) b

def loaded : Route → Answer
  | .cells cs => .bytes (cs.map b.cellValue)
  | .mmio hit => .device hit
  | .refused => .refused

def stored : Route → Answer
  | .cells _ => .done
  | .mmio hit => .device hit
  | .refused => .refused

def store (data : List (BitVec 8)) : Route → Board
  | .cells cs => b.putCells cs data
  | .mmio _ => b
  | .refused => b

def remap (f : MmioMap.MmioM Unit) : Board := { b with mmio := finalState (f.run b.mmio) }

/-- The region of the I/O APIC. -/
def ioapicWindow (add : Bool) (base : Nat) : MmioMap.MmioM Unit :=
  if add then MmioMap.map .ioapic base (base + 0xfff) else MmioMap.unmap .ioapic base (base + 0xfff)

def vgaBarToken (registers : Bool) : MmioToken := if registers then .vgaRegisters else .vgaLfb

def exec : BusOp → Board
  | .load .. => b
  | .store monitorHit path addr data =>
    b.store data (b.storeRoute monitorHit path addr data.length)
  | .fetch .. => b
  | .pciWrite address value ioLen => b.pciWrite address value ioLen
  | .boundary => b.applyPendingMachineBoundary
  | .setA20 enabled => { b with host := { b.host with a20Enabled := enabled } }
  | .setBiosWrite enabled => { b with biosWriteEnabled := enabled }
  | .ioapicWindow add base => b.remap (ioapicWindow add base)
  | .vgaBar registers old new => b.remap (MmioMap.relocate (vgaBarToken registers) old new)
  | .deviceStore addr data => b.store data (b.writePhysicalPage .device addr data.length)
  | .readRam .. => b
  | .writeRam addr data => b.putCells ((b.transferSpan addr data.length).map .ram) data

def answer : BusOp → Answer
  | .load monitorHit path addr len => b.loaded (b.loadRoute monitorHit path addr len)
  | .store monitorHit path addr data => stored (b.storeRoute monitorHit path addr data.length)
  | .fetch monitorHit page => b.loaded (b.fetchRoute monitorHit page)
  | .deviceStore addr data => stored (b.writePhysicalPage .device addr data.length)
  | .readRam addr len => .bytes ((b.transferSpan addr len).map b.ram)
  | .writeRam addr data => .copied (b.transferSpan addr data.length).length
  | .pciWrite .. | .boundary | .setA20 _ | .setBiosWrite _ | .ioapicWindow .. | .vgaBar .. => .done

def server : Server Board BusOp Answer where
  exec op b := b.exec op
  answer op b := b.answer op

end Board

abbrev Traffic := Dialogue BusOp Answer

/-! ## Bus-master IDE -/

/-- Bytes of an answer; a byte that was not delivered is a zero of the caller's buffer. -/
def Answer.byte : Answer → Nat → BitVec 8
  | .bytes data, i => data.getD i 0#8
  | _, _ => 0#8

def Answer.dwordLe (a : Answer) (i : Nat) : BitVec 32 :=
  a.byte (i + 3) ++ a.byte (i + 2) ++ a.byte (i + 1) ++ a.byte i

def Answer.dwordBe (a : Answer) (i : Nat) : BitVec 32 :=
  a.byte i ++ a.byte (i + 1) ++ a.byte (i + 2) ++ a.byte (i + 3)

/-- One channel of `bmdma`. -/
structure BmDma where
  started : Bool
  prdCurrent : BitVec 32
  cmdRwcon : Bool
  dataReady : Bool
  bufferIdx : Nat
  bufferTop : Nat
  buffer : Nat → BitVec 8

/-- `BMDMA_BUFFER_SIZE`. -/
def bmdmaBufferSize : Nat := 0x20000

namespace BmDma

/-- The READ DMA loop over the sectors the drive hands out; `none` when it runs dry. -/
def fill (ch : BmDma) (count : Int) : List (List (BitVec 8)) → Option BmDma
  | [] => if 0 < count then none else some ch
  | sector :: rest =>
    if 0 < count then
      let last := min (ch.bufferTop + sector.length) bmdmaBufferSize
      fill { ch with
        bufferTop := last
        buffer := fun i =>
          if ch.bufferTop ≤ i ∧ i < last then sector.getD (i - ch.bufferTop) 0#8 else ch.buffer i }
        (count - sector.length) rest
    else some ch

/-- The buffered bytes a READ DMA hands to memory for a descriptor of `size` bytes. -/
def payload (ch : BmDma) (size : Nat) : List (BitVec 8) :=
  (List.range (min (ch.bufferIdx + size) bmdmaBufferSize - ch.bufferIdx)).map fun i =>
    ch.buffer (ch.bufferIdx + i)

/-- The byte count of a descriptor. -/
def prdSize (raw : BitVec 32) : Nat :=
  if raw &&& 0xfffe#32 = 0#32 then 0x10000 else (raw &&& 0xfffe#32).toNat

/-- After a descriptor: done at the end of the table, else the size of the next one is
fetched. -/
def nextPrd (ch : BmDma) (raw : BitVec 32) (k : Traffic) : Traffic :=
  if raw &&& 0x80000000#32 ≠ 0#32 then k
  else .ask (.readRam (ch.prdCurrent + 8).toNat 8) fun _ => k

/-- `pci_ide_timer`. The drive is given by the sectors it hands out and by whether it takes
all the sectors of a write. -/
def pciIdeTimer (ch : BmDma) (sectors : List (List (BitVec 8))) (driveAccepts : Bool)
    (k : Traffic) : Traffic :=
  if ¬ ch.started ∨ ch.prdCurrent = 0#32 then k
  else if ch.cmdRwcon ∧ ¬ ch.dataReady then k
  else .ask (.readRam ch.prdCurrent.toNat 8) fun prd =>
    let addr := (prd.dwordLe 0).toNat
    let raw := prd.dwordLe 4
    let size := prdSize raw
    if ch.cmdRwcon then
      match ch.fill (size - (ch.bufferTop - ch.bufferIdx : Nat)) sectors with
      | none => k
      | some ch => .ask (.writeRam addr (ch.payload size)) fun a =>
        if a = .copied (ch.payload size).length then ch.nextPrd raw k else k
    else
      .ask (.readRam addr (min (ch.bufferTop + size) bmdmaBufferSize - ch.bufferTop)) fun _ =>
        if driveAccepts then ch.nextPrd raw k else k

end BmDma

/-! ## The 8237 -/

/-- The channel that `raise_hlda` has selected; `sixteenBit` is a channel of the second
controller. -/
structure DmaChannel where
  sixteenBit : Bool
  pageReg : BitVec 8
  currentAddress : BitVec 16
  currentCount : BitVec 16
  addressDecrement : Bool
  transferType : BitVec 2

namespace DmaChannel

/-- `BX_DMA_BUFFER_SIZE`. -/
def bufferSize : Nat := 512

def phyAddr (ch : DmaChannel) : Nat :=
  ((ch.pageReg.setWidth 32 <<< 16) |||
    (ch.currentAddress.setWidth 32 <<< ch.sixteenBit.toNat)).toNat

def maxLen (ch : DmaChannel) : Nat :=
  if ch.addressDecrement then 1 <<< ch.sixteenBit.toNat
  else min ((ch.currentCount.toNat + 1) * 2 ^ ch.sixteenBit.toNat % 2 ^ 16) bufferSize

/-- The transfer of `raise_hlda`. `fromDevice` is what the handler of the channel puts into
the buffer, `none` when no handler is registered. -/
def raiseHlda (ch : DmaChannel) (fromDevice : Option (List (BitVec 8))) (k : Traffic) : Traffic :=
  if ch.transferType = 1#2 then
    match fromDevice with
    | some data => .ask (.writeRam ch.phyAddr data) fun _ => k
    | none => k
  else if ch.transferType = 2#2 then .ask (.readRam ch.phyAddr ch.maxLen) fun _ => k
  else k

end DmaChannel

/-! ## fw_cfg -/

structure FwCfg where
  curEntry : BitVec 16
  curOffset : Nat
  /-- `get_entry_data`, with `FW_CFG_ENTRY_MASK` applied. -/
  entryData : BitVec 16 → Option (List (BitVec 8))

namespace FwCfg

def dmaError : BitVec 32 := 0x01
def dmaRead : BitVec 32 := 0x02
def dmaSkip : BitVec 32 := 0x04
def dmaSelect : BitVec 32 := 0x08
def dmaWrite : BitVec 32 := 0x10

/-- `FW_CFG_ENTRY_MASK`. -/
def entryMask : BitVec 16 := 0x3FFF

def beBytes (v : BitVec 32) : List (BitVec 8) := [byteAt v 3, byteAt v 2, byteAt v 1, byteAt v 0]

/-- The control word written back over the descriptor. -/
def complete (addr : Nat) (control : BitVec 32) (k : Traffic) : Traffic :=
  let control :=
    if control &&& dmaWrite ≠ 0 then (control ||| dmaError) &&& ~~~dmaWrite else control
  .ask (.writeRam addr (beBytes (control &&& ~~~dmaSkip &&& ~~~dmaSelect))) fun _ => k

/-- `process_dma`. -/
def processDma (f : FwCfg) (dmaAddr : Nat) (k : Traffic) : Traffic :=
  .ask (.readRam dmaAddr 16) fun desc =>
    -- A descriptor that is not delivered whole is not interpreted.
    if (match desc with | .bytes data => data.length | _ => 0) ≠ 16 then k
    else
      let control := desc.dwordBe 0
      let length := (desc.dwordBe 4).toNat
      let address := (desc.dwordBe 8 ++ desc.dwordBe 12).toNat
      let selected := control &&& dmaSelect ≠ 0
      let entry := if selected then control.extractLsb' 16 16 else f.curEntry
      let offset := if selected then 0 else f.curOffset
      if control &&& dmaRead = 0 then complete dmaAddr control k
      else match f.entryData (entry &&& entryMask) with
        | none => complete dmaAddr ((control ||| dmaError) &&& ~~~dmaRead) k
        | some data =>
          let chunk := (data.drop offset).take length
          .ask (.writeRam address chunk) fun a =>
            complete dmaAddr
              ((if a = .copied chunk.length then control else control ||| dmaError) &&& ~~~dmaRead)
              k

end FwCfg

end RustyBox
