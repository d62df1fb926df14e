import ModbusRtu.Base.System
import ModbusRtu.Base.Buffer
import ModbusRtu.Base.CountedLoop
import ModbusRtu.Base.Scatter
import ModbusRtu.Base.WriteLog
import ModbusRtu.Base.RawMemory
import ModbusRtu.Base.Alternation
import ModbusRtu.Base.BitCount
import ModbusRtu.Base.FewBits
import ModbusRtu.Base.TableCrc
import ModbusRtu.Base.ShiftRegister
import ModbusRtu.Base.Clock
import ModbusRtu.Base.DeafReceiver
import ModbusRtu.Base.Checked
import ModbusRtu.Base.Unreliable
import ModbusRtu.Base.Transducer
import ModbusRtu.Base.SharedLine
import ModbusRtu.Code.Defs
import ModbusRtu.Code.Crc
import ModbusRtu.Code.Rtu
import ModbusRtu.Code.Memory
import ModbusRtu.Code.Master
import ModbusRtu.Code.Transaction
import ModbusRtu.Code.Tty
import ModbusRtu.Code.Atmega
import ModbusRtu.Code.LinuxSlave
import ModbusRtu.Spec.Requests
import ModbusRtu.Spec.Receiver
import ModbusRtu.Logic.Words
import ModbusRtu.Logic.Frames
import ModbusRtu.Logic.CrcTables
import ModbusRtu.Logic.RtuSteps
import ModbusRtu.Logic.RtuWf
import ModbusRtu.Logic.RtuCalls
import ModbusRtu.Logic.OwnCalls
import ModbusRtu.Logic.Unanswered
import ModbusRtu.Logic.Reactions
import ModbusRtu.Logic.FramePhases
import ModbusRtu.Logic.AttendedRuns
import ModbusRtu.Logic.Timing
import ModbusRtu.Logic.TimerCalls
import ModbusRtu.Logic.Handlers
import ModbusRtu.Logic.Refusals
import ModbusRtu.Logic.RequestBytes
import ModbusRtu.Logic.Execution
import ModbusRtu.Logic.SlavePath
import ModbusRtu.Logic.RequestCalls
import ModbusRtu.Logic.MasterFrames
import ModbusRtu.Logic.Residue
import ModbusRtu.Theorems.Confinement
import ModbusRtu.Theorems.Isolation
import ModbusRtu.Theorems.Recovery
import ModbusRtu.Theorems.Delivery
import ModbusRtu.Theorems.Separation
import ModbusRtu.Theorems.Gaps
import ModbusRtu.Theorems.Traffic
import ModbusRtu.Theorems.Losses
import ModbusRtu.Theorems.Settling
import ModbusRtu.Theorems.Serving
import ModbusRtu.Theorems.Bus
import ModbusRtu.Theorems.ReceiverSteps
import ModbusRtu.Theorems.MemoryApplication
import ModbusRtu.Theorems.StateDiagram
import ModbusRtu.Theorems.Operations
import ModbusRtu.Theorems.Sessions
import ModbusRtu.Theorems.RoundTrip
import ModbusRtu.Theorems.Refinement
import ModbusRtu.Theorems.Atomicity
import ModbusRtu.Theorems.Exceptions
import ModbusRtu.Theorems.Ranges
import ModbusRtu.Theorems.RequestReads
import ModbusRtu.Theorems.Grammar
import ModbusRtu.Theorems.IntWidths
import ModbusRtu.Theorems.ReplyWindow
import ModbusRtu.Theorems.Classification
import ModbusRtu.Theorems.Cursors
import ModbusRtu.Theorems.Discipline
import ModbusRtu.Theorems.LinuxSlave
import ModbusRtu.Theorems.LinuxTiming
import ModbusRtu.Theorems.LinuxFrames
import ModbusRtu.Theorems.LinuxServing
import ModbusRtu.Theorems.Firmware
import ModbusRtu.Theorems.FirmwareFrames
import ModbusRtu.Theorems.Pairing
import ModbusRtu.Theorems.Transmission
import ModbusRtu.Theorems.Transactions
import ModbusRtu.Theorems.ReceiveBuffer
import ModbusRtu.Theorems.ErrorDetection
import ModbusRtu.Theorems.CrcEquivalence
import ModbusRtu.Theorems.Distance
import ModbusRtu.Theorems.Bursts
import ModbusRtu.Theorems.RunTogether
import ModbusRtu.Theorems.ImplaceCrc
import ModbusRtu.Theorems.Builders
import ModbusRtu.Theorems.Quantities
import ModbusRtu.Theorems.SerialTransfer
import ModbusRtu.Theorems.LowLatency
import ModbusRtu.Theorems.Readings
