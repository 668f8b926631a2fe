import AvrEmulator.Stack
import AvrEmulator.TimerCycles
import AvrEmulator.InstructionSet
import AvrEmulator.LogicFlags
import AvrEmulator.MultiByte
import AvrEmulator.Faults
import AvrEmulator.Latency
import AvrEmulator.TimerInterrupts
import AvrEmulator.TimerPrescaler
import AvrEmulator.Priority
import AvrEmulator.UartStream
import AvrEmulator.UartDelivery
import AvrEmulator.OutOfRange
import AvrEmulator.IoRegisters
import AvrEmulator.PortRegisters
import AvrEmulator.Firmware
import AvrEmulator.Multiply
import AvrEmulator.ArithmeticFlags
import AvrEmulator.Fetch
import AvrEmulator.Skips
import AvrEmulator.TimerCtc
import AvrEmulator.ProgramMemory
import AvrEmulator.Jumps
import AvrEmulator.Snapshot
import AvrEmulator.Isolation
import AvrEmulator.Relocation
import AvrEmulator.Disassembly
import AvrEmulator.LongAddress
import AvrEmulator.Pacing
import AvrEmulator.BranchTargets
import AvrEmulator.MultiByteShift
import AvrEmulator.ReturnAddresses
import AvrEmulator.Clock
import AvrEmulator.TimerClock
import AvrEmulator.Cadence
import AvrEmulator.UartLatency
import AvrEmulator.DelayLoop
import AvrEmulator.StartupData
import AvrEmulator.StartupCode
import AvrEmulator.Diagnosis
import AvrEmulator.SerialTab
import AvrEmulator.Controls
import AvrEmulator.Transparency
import AvrEmulator.Hosting
import AvrEmulator.Views
import AvrEmulator.DisasmTab
import AvrEmulator.Boot
import AvrEmulator.Echo
import AvrEmulator.UartStores
