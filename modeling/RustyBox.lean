import RustyBox.Cpu.DtlbCoherence
import RustyBox.Cpu.ShiftIterate
import RustyBox.Cpu.InstructionPlacement
import RustyBox.Cpu.SmmRoundTrip
import RustyBox.Cpu.FarJump
import RustyBox.Cpu.FaultingStore
import RustyBox.Cpu.SegmentLimits
import RustyBox.Cpu.NestedTask
import RustyBox.Cpu.DeliveryArithmetic
import RustyBox.Decoder.EvexRegisters
import RustyBox.Memory.SmramPrivacy
import RustyBox.Memory.MmioIndex
import RustyBox.Memory.SwappedRam
import RustyBox.Memory.PlanSound
import RustyBox.Memory.BiosImage
import RustyBox.Cpu.WordOps
import RustyBox.Cpu.Bmi64
import RustyBox.Cpu.Aes
import RustyBox.Cpu.TracePool
import RustyBox.Irq.PicLatch
import RustyBox.Irq.IoApicSnapshot
import RustyBox.Irq.LocalApicRestorable
import RustyBox.Pit.Paths
import RustyBox.Iodev.Hpet
import RustyBox.Iodev.SerialSnapshot
