import RiscvMachine.Isa.Arithmetic
import RiscvMachine.Bytes.Basic
import RiscvMachine.Bytes.Endian
import RiscvMachine.Bytes.RoundTrip
import RiscvMachine.Text.Numeral
import RiscvMachine.Hart.Basic
import RiscvMachine.Hart.Bus
import RiscvMachine.Hart.Execute
import RiscvMachine.Hart.Report
import RiscvMachine.Hart.Step
import RiscvMachine.Cache.Basic
import RiscvMachine.Device.Console
import RiscvMachine.Device.DebugChannel
import RiscvMachine.Device.Input
import RiscvMachine.DeviceTree.Template
import RiscvMachine.Config.Basic
import RiscvMachine.Config.Json
import RiscvMachine.CommandLine.Number
import RiscvMachine.Compression.Bits
import RiscvMachine.Compression.Crc32
import RiscvMachine.Compression.Deflate.Code
import RiscvMachine.Compression.Deflate.Inflate
import RiscvMachine.Compression.Gzip
import RiscvMachine.Image.Feed
import RiscvMachine.Image.GzipStream
import RiscvMachine.Compression.Xxh64
import RiscvMachine.Compression.Zstd.BackwardBits
import RiscvMachine.Compression.Zstd.Block
import RiscvMachine.Compression.Zstd.BitWindow
import RiscvMachine.Compression.Zstd.Buffer
import RiscvMachine.Compression.Zstd.Frame
import RiscvMachine.Image.Stream
import RiscvMachine.Snapshot.Basic
import RiscvMachine.Snapshot.Format
import RiscvMachine.Machine.Basic
import RiscvMachine.Machine.Boot
import RiscvMachine.Machine.Session
import RiscvMachine.CommandLine.Arguments
import RiscvMachine.CommandLine.Host
import RiscvMachine.CommandLine.Program
import RiscvMachine.Main
import RiscvMachine.Proofs.Config
import RiscvMachine.Proofs.Storage.Laws
import RiscvMachine.Proofs.Storage.Flat
import RiscvMachine.Proofs.Cache.Coherence
import RiscvMachine.Proofs.Cache.Access
import RiscvMachine.Proofs.Cache.Flush
import RiscvMachine.Proofs.Cache.Runs
import RiscvMachine.Proofs.Cache.Failure
import RiscvMachine.Proofs.Hart.Simulation
import RiscvMachine.Proofs.Hart.Trace
import RiscvMachine.Proofs.Hart.PreciseTraps
import RiscvMachine.Proofs.Hart.ReservedWords
import RiscvMachine.Proofs.Hart.Reservation
import RiscvMachine.Proofs.Image.Delivery
import RiscvMachine.Proofs.Machine.Build
import RiscvMachine.Proofs.Machine.Flat
import RiscvMachine.Proofs.Machine.Bus
import RiscvMachine.Proofs.Machine.Boot
import RiscvMachine.Proofs.Machine.BootSources
import RiscvMachine.Proofs.Machine.Refinement
import RiscvMachine.Proofs.Machine.BootState
import RiscvMachine.Proofs.Machine.History
import RiscvMachine.Proofs.Machine.Atomicity
import RiscvMachine.Proofs.Isa.Values
import RiscvMachine.Proofs.Isa.Encoding
import RiscvMachine.Proofs.Hart.Computations
import RiscvMachine.Proofs.Hart.Invariants
import RiscvMachine.Proofs.Storage.Requests
import RiscvMachine.Proofs.Storage.Sequences
import RiscvMachine.Proofs.Cache.FlushedStore
import RiscvMachine.Proofs.Machine.Sessions
import RiscvMachine.Proofs.Machine.Reboot
import RiscvMachine.Proofs.Hart.Edits
import RiscvMachine.Proofs.Hart.UserMode
import RiscvMachine.Proofs.Machine.FixedTime
import RiscvMachine.Proofs.Machine.Waiting
import RiscvMachine.Proofs.Machine.Sizes
import RiscvMachine.Proofs.Hart.Interrupts
import RiscvMachine.Proofs.DeviceTree.Reader
import RiscvMachine.Proofs.DeviceTree.RoundTrip
import RiscvMachine.Proofs.Hart.Replay
import RiscvMachine.Proofs.Cache.Bounds
import RiscvMachine.Proofs.Machine.Bounds
import RiscvMachine.Proofs.Machine.ConsoleOutput
import RiscvMachine.Proofs.Snapshot.Format
import RiscvMachine.Proofs.Machine.SessionMemory
import RiscvMachine.Proofs.Machine.TypedInput
import RiscvMachine.Proofs.Config.Json
import RiscvMachine.Proofs.Hart.ControlRegisters
import RiscvMachine.Proofs.Machine.AccessWidth
import RiscvMachine.Proofs.Hart.TrapReturn
import RiscvMachine.Proofs.Cache.Counters
import RiscvMachine.Proofs.Hart.Batches
import RiscvMachine.Proofs.Hart.FaultPolicy
import RiscvMachine.Proofs.DeviceTree.Patching
import RiscvMachine.Proofs.Machine.StringOutput
