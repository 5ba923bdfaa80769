import RiscvMachine.Bytes.Endian
import RiscvMachine.Compression.Zstd.Stream
import RiscvMachine.Snapshot.Basic

set_option autoImplicit false

/-! # Saved state dumps

The fields of a dump stand one after the other in little-endian byte order, without anything in
between; the whole is compressed. Alternatives are told by a number in front of them, of four
bytes for a choice of names and of one byte for the presence of a value. Bytes behind the last
field are ignored, and the last exception of the hart is not saved.
-/

namespace RiscvMachine

namespace DumpFormat

open Bytes

/-! ## Writing fields -/

/-- A word in four bytes. -/
def word (w : UInt32) : List UInt8 := littleEndianList 4 w.toNat

/-- A long word in eight bytes. -/
def long (w : UInt64) : List UInt8 := littleEndianList 8 w.toNat

/-- A truth value in one byte. -/
def flag (b : Bool) : List UInt8 := [if b then 1 else 0]

def optional : Option UInt32 → List UInt8
  | none => [0]
  | some w => 1 :: word w

/-- The number of a mode, which is not its number in `mstatus`. -/
def privilegeNumber : Privilege → UInt32
  | .user => 0
  | .machine => 1

def policyNumber : FaultPolicy → UInt32
  | .delegate => 0
  | .failFast => 1

def controlRegisters (c : ControlRegisters) : List UInt8 :=
  word c.mstatus ++ word c.mie ++ word c.mip ++ word c.mtvec ++ word c.mscratch ++ word c.mepc ++
    word c.mcause ++ word c.mtval ++ long c.cycle ++ long c.timer ++ long c.timerMatch

def hart (h : Hart) : List UInt8 :=
  word h.pc ++ h.registers.toList.flatMap word ++ controlRegisters h.csr ++
    word (privilegeNumber h.privilege) ++ flag h.waiting ++ optional h.reservation ++
    word (policyNumber h.faultPolicy) ++ word h.ramSize

def counters (c : Counters) : List UInt8 :=
  long c.hits ++ long c.accesses ++ long c.reads ++ long c.writes

def dump (d : StateDump) : List UInt8 :=
  word d.version ++ hart d.hart ++ counters d.counters

/-! ## Reading fields -/

/-- A computation that takes a value from the front of some bytes. -/
abbrev Reader := StateT (List UInt8) Option

def readNumber (n : Nat) : Reader Nat := fun bytes =>
  if n ≤ bytes.length then some (ofLittleEndianList (bytes.take n), bytes.drop n) else none

def readWord : Reader UInt32 := UInt32.ofNat <$> readNumber 4

def readLong : Reader UInt64 := UInt64.ofNat <$> readNumber 8

def readFlag : Reader Bool := do
  match ← readNumber 1 with
  | 0 => return false
  | 1 => return true
  | _ => failure

def readOptional : Reader (Option UInt32) := do
  if ← readFlag then return some (← readWord) else return none

def readWords : (n : Nat) → Reader (Vector UInt32 n)
  | 0 => return #v[]
  | n + 1 => do
    let words ← readWords n
    return words.push (← readWord)

def readPrivilege : Reader Privilege := do
  match ← readNumber 4 with
  | 0 => return .user
  | 1 => return .machine
  | _ => failure

def readPolicy : Reader FaultPolicy := do
  match ← readNumber 4 with
  | 0 => return .delegate
  | 1 => return .failFast
  | _ => failure

def readControlRegisters : Reader ControlRegisters := do
  let mstatus ← readWord
  let mie ← readWord
  let mip ← readWord
  let mtvec ← readWord
  let mscratch ← readWord
  let mepc ← readWord
  let mcause ← readWord
  let mtval ← readWord
  let cycle ← readLong
  let timer ← readLong
  let timerMatch ← readLong
  return { mstatus, mie, mip, mtvec, mscratch, mepc, mcause, mtval, cycle, timer, timerMatch }

def readHart : Reader Hart := do
  let pc ← readWord
  let registers ← readWords 32
  let csr ← readControlRegisters
  let privilege ← readPrivilege
  let waiting ← readFlag
  let reservation ← readOptional
  let faultPolicy ← readPolicy
  let ramSize ← readWord
  return { pc, registers, csr, privilege, waiting, reservation, faultPolicy, ramSize,
           lastFault := none }

def readCounters : Reader Counters := do
  let hits ← readLong
  let accesses ← readLong
  let reads ← readLong
  let writes ← readLong
  return { hits, accesses, reads, writes }

/-- Takes a dump of any version. -/
def readDump : Reader StateDump := do
  let version ← readWord
  let hart ← readHart
  let counters ← readCounters
  return { version, hart, counters }

end DumpFormat

namespace StateDump

/-- The bytes of a dump before compression. -/
def payload (d : StateDump) : ByteArray := (DumpFormat.dump d).toByteArray

/-- The saved form of a dump, compressed with the given encoder. -/
def toBytes (encode : ByteArray → ByteArray) (d : StateDump) : ByteArray := encode d.payload

/-- The dump of a payload. The version is looked at last. -/
def ofPayload (payload : ByteArray) : Except SnapshotError StateDump :=
  match DumpFormat.readDump payload.toList with
  | none => .error .deserialization
  | some (d, _) =>
    if d.version = currentVersion then .ok d else .error (.unsupportedVersion d.version)

def ofBytes (bytes : ByteArray) : Except SnapshotError StateDump :=
  match Compression.Zstd.decompress bytes with
  | none => .error .decompression
  | some payload => ofPayload payload

end StateDump

end RiscvMachine
