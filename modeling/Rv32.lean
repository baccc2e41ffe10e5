import Rv32.Board.Construction
import Rv32.Board.Loading
import Rv32.Board.Run
import Rv32.Board.Slices
import Rv32.Board.SystemBus
import Rv32.Bus
import Rv32.CommandLine.Grammar
import Rv32.CommandLine.Program
import Rv32.CommandLine.Report
import Rv32.Csr.Bank
import Rv32.Csr.Number
import Rv32.Csr.Status
import Rv32.Device.Clint
import Rv32.Device.Frame
import Rv32.Device.Plic
import Rv32.Device.Uart
import Rv32.Elf.Content
import Rv32.Elf.Dynamic
import Rv32.Elf.File
import Rv32.Elf.Layout
import Rv32.Elf.Loading
import Rv32.Elf.Record
import Rv32.Elf.StringTable
import Rv32.Emulator.Options
import Rv32.Emulator.Session
import Rv32.FileSystem.Error
import Rv32.FileSystem.Tree
import Rv32.Hart.Arithmetic
import Rv32.Hart.Execution
import Rv32.Hart.State
import Rv32.Hart.Step
import Rv32.Hart.Trap
import Rv32.Instruction.Encoding
import Rv32.Instruction.Format
import Rv32.Instruction.Operation
import Rv32.Instruction.Resolution
import Rv32.Interval
import Rv32.Key
import Rv32.Log
import Rv32.Main
import Rv32.Memory.Ram
import Rv32.Memory.Sparse
import Rv32.MemoryMap
import Rv32.Numeral
import Rv32.Ppm
import Rv32.Privilege
import Rv32.Register
import Rv32.SelfTest.Options
import Rv32.SelfTest.Session
import Rv32.SelfTest.Signature
import Rv32.Text.CharSet
import Rv32.Text.CharSet.CombiningMark
import Rv32.Text.CharSet.Ignorable
import Rv32.Text.CharSet.Unprintable
import Rv32.Text.Quoted
import Rv32.Trap.Cause
import Rv32.Trap.Delegation
import Rv32.Trap.Interrupts
import Rv32.Trap.Vector
import Rv32.Word
import Rv32.Proofs.Csr.Status
import Rv32.Proofs.Csr.Access
import Rv32.Proofs.Hart.Effect
import Rv32.Proofs.Privilege.Integrity
import Rv32.Proofs.Trap.Entry
import Rv32.Proofs.Trap.Return
import Rv32.Proofs.Board.Sampling
import Rv32.Proofs.Board.Standard
import Rv32.Proofs.Board.Windows
import Rv32.Proofs.Board.Waiting
import Rv32.Proofs.Hart.Step
import Rv32.Proofs.Hart.Run
import Rv32.Proofs.Trap.ResumeAddress
import Rv32.Proofs.Board.Run
import Rv32.Proofs.Trap.Choice
import Rv32.Proofs.Hart.Reachable
import Rv32.Proofs.Csr.Legal
import Rv32.Proofs.Hart.Accesses
import Rv32.Proofs.Device.Plic
import Rv32.Proofs.Board.Reachable
import Rv32.Proofs.Board.Lines
import Rv32.Proofs.MemoryMap
import Rv32.Proofs.MemoryMap.Region
import Rv32.Proofs.MemoryMap.Gap
import Rv32.Proofs.MemoryMap.Search
import Rv32.Proofs.Privilege.Rise
import Rv32.Proofs.Csr.SupervisorView
import Rv32.Proofs.Privilege.Confidentiality
import Rv32.Proofs.Instruction.Place
import Rv32.Proofs.Instruction.RoundTrip
import Rv32.Proofs.Instruction.Encodings
import Rv32.Proofs.Instruction.Grammar
import Rv32.Proofs.Bus.Access
import Rv32.Proofs.Board.Routing
import Rv32.Proofs.Hart.Failure
import Rv32.Proofs.Hart.Reservation
import Rv32.Proofs.Board.Quiet
import Rv32.Proofs.Board.BareRun
import Rv32.Proofs.Board.Slices
import Rv32.Proofs.Device.Plic.Gateway
import Rv32.Proofs.Device.Plic.Service
import Rv32.Proofs.Device.Uart
import Rv32.Proofs.Device.Procedure
import Rv32.Proofs.Device.Refusal
import Rv32.Proofs.Board.Picture
import Rv32.Proofs.Memory.Paging
import Rv32.Proofs.Board.Fatal
import Rv32.Proofs.Csr.Permission
import Rv32.Proofs.Csr.Aliasing
import Rv32.Proofs.Csr.PartialWrite
import Rv32.Proofs.Hart.Footprint
import Rv32.Proofs.Csr.StatusBits
import Rv32.Proofs.Arithmetic.MulDiv
import Rv32.Proofs.Csr.View
import Rv32.Proofs.Csr.Idempotence
import Rv32.Proofs.Trap.Delivery
import Rv32.Proofs.Arithmetic.Integer
import Rv32.Proofs.Hart.ControlFlow
import Rv32.Proofs.Memory.ByteOrder
import Rv32.Proofs.Hart.LoadStore
import Rv32.Proofs.Hart.StraightLine
import Rv32.Proofs.Hart.AtomicUpdate
import Rv32.Proofs.Board.Loading
import Rv32.Proofs.Device.Plic.Ranking
import Rv32.Proofs.DoubleWord
import Rv32.Proofs.Device.Clint
import Rv32.Proofs.Device.Clint.Deadline
import Rv32.Proofs.Device.Uart.Interrupt
import Rv32.Proofs.Device.Uart.Divisor
import Rv32.Proofs.Device.Frame
import Rv32.Proofs.Hart.StepCounter
import Rv32.Proofs.Instruction.Immediate
import Rv32.Proofs.Ppm
import Rv32.Proofs.SelfTest.Signature
import Rv32.Proofs.Interval
import Rv32.Proofs.Board.Bounds
import Rv32.Proofs.Instruction.BitField
import Rv32.Proofs.Trap.StoredInterrupts
import Rv32.Proofs.Device.Uart.LineStatus
