import RiscvMachine.Cache.Basic
import RiscvMachine.Hart.Report

set_option autoImplicit false

/-! # State dumps

What the operator is shown when a session is stopped, and what can be saved to a file: the state
of the hart and the traffic of the cache and the store. The contents of RAM are not part of it.
-/

namespace RiscvMachine

/-- The traffic of the cache and the store since the last reset. -/
structure Counters where
  hits : UInt64
  accesses : UInt64
  reads : UInt64
  writes : UInt64
  deriving DecidableEq, Repr

def Cache.counters {υ : Type} (c : Cache υ) : Counters where
  hits := c.hits
  accesses := c.accesses
  reads := c.store.reads
  writes := c.store.writes

/-- A dump with the version of its format. -/
structure StateDump where
  version : UInt32
  hart : Hart
  counters : Counters
  deriving DecidableEq, Repr

namespace StateDump

def currentVersion : UInt32 := 1

def of (hart : Hart) (counters : Counters) : StateDump := ⟨currentVersion, hart, counters⟩

open Text in
/-- The text of a dump: two lines of traffic, then the hart. -/
def report (d : StateDump) : String :=
  let count (n : UInt64) := decimal n.toNat
  s!"Cache: hit: {count d.counters.hits}, accessed: {count d.counters.accesses}\n" ++
    s!"RAM: read: {count d.counters.reads}, write: {count d.counters.writes}\n" ++
    d.hart.report

end StateDump

inductive SnapshotError
  /-- The bytes are no compressed file. -/
  | decompression
  /-- What was compressed is no dump. -/
  | deserialization
  | unsupportedVersion (version : UInt32)
  deriving DecidableEq, Repr

/-- The text of a failure, where the library has words of its own for it. -/
def SnapshotError.message? : SnapshotError → Option String
  | decompression => none
  | deserialization => none
  | unsupportedVersion version =>
    some s!"snapshot error: unsupported dump version {Text.decimal version.toNat}"

end RiscvMachine
