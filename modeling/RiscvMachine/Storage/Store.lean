import RiscvMachine.Storage.Error
import RiscvMachine.Storage.Unit

set_option autoImplicit false

/-! # The backing store

Units of one capacity joined into one flat space of bytes. A request is split into the spans
that lie within one unit each and is served span by span; it counts once, however many units it
touches, and it ends at the first unit that fails. A request past the end of the space is
refused before anything is counted or touched.
-/

namespace RiscvMachine

/-- A stretch of bytes within one unit. -/
structure Span where
  unit : Nat
  offset : Nat
  length : Nat
  deriving DecidableEq, Repr

/-- The spans of the `length` bytes from `addr` on, in units of the given capacity. -/
def Span.split (capacity addr length : Nat) : List Span :=
  if _ : length = 0 ∨ capacity = 0 then []
  else
    let offset := addr % capacity
    -- up to the end of the unit, if the range goes on behind it
    let n := min length (capacity - offset)
    ⟨addr / capacity, offset, n⟩ :: split capacity (addr + n) (length - n)
termination_by length
decreasing_by
  have := Nat.mod_lt addr (show 0 < capacity by omega)
  omega

/-- Joined units and the number of requests served. -/
structure Store (υ : Type) where
  units : Array υ
  unitCapacity : UInt32
  reads : UInt64
  writes : UInt64
  deriving Inhabited

/-- A read that failed, with the bytes that arrived before it did. -/
structure ReadFailure where
  error : StorageError
  arrived : ByteArray

namespace Store

variable {υ : Type} [StorageUnit υ]

/-- Joins units, which must share one capacity. -/
def ofUnits (units : Array υ) : Except StorageError (Store υ) :=
  match units[0]? with
  | none => .error .noUnits
  | some first =>
    let expected := StorageUnit.capacity first
    match units.findIdx? fun u => StorageUnit.capacity u != expected with
    | some i =>
      let actual := (units[i]?.map StorageUnit.capacity).getD 0
      .error (.capacityMismatch i expected actual)
    | none => .ok ⟨units, expected, 0, 0⟩

def capacity (s : Store υ) : Except Panic UInt64 :=
  Checked.multiply s.units.size s.unitCapacity.toNat

/-- The refusal of a range, if it does not lie within the space. -/
def refusal? (s : Store υ) (addr : UInt32) (length : Nat) : Option StorageError :=
  match s.capacity with
  | .error why => some (.panic why)
  | .ok capacity =>
    if capacity.toNat < addr.toNat + length then
      some (.outOfRange addr length capacity.toNat)
    else none

/-- Makes a call on one unit in its place. A call on a unit that is not there does nothing. -/
def onUnit {ε α : Type} (unit : Nat) (call : EStateM ε υ α) :
    StateM (Store υ) (Option (Except ε α)) := fun ⟨units, unitCapacity, reads, writes⟩ =>
  let visit (u : υ) : StateM (Option (Except ε α)) υ := fun _ =>
    match call u with
    | .ok answer u => (u, some (.ok answer))
    | .error failure u => (u, some (.error failure))
  let (units, answer) := units.modifyM unit visit none
  (answer, ⟨units, unitCapacity, reads, writes⟩)

/-- Reads the spans one after the other, behind the bytes that have arrived. -/
def readSpans : List Span → ByteArray → EStateM ReadFailure (Store υ) ByteArray
  | [], arrived => pure arrived
  | span :: rest, arrived => fun s =>
    match onUnit span.unit (StorageUnit.read span.offset span.length) s with
    | (some (.ok bytes), s) => readSpans rest (arrived ++ bytes) s
    | (some (.error bytes), s) => .error ⟨.io span.unit, arrived ++ bytes⟩ s
    | (none, s) => .error ⟨.io span.unit, arrived⟩ s

/-- Writes the bytes of `data` from index `done` on to the spans, one after the other. -/
def writeSpans (data : ByteArray) : List Span → Nat → EStateM StorageError (Store υ) Unit
  | [], _ => pure ()
  | span :: rest, done => fun s =>
    let bytes := data.extract done (done + span.length)
    match onUnit span.unit (StorageUnit.write span.offset bytes) s with
    | (some (.ok ()), s) => writeSpans data rest (done + span.length) s
    | (some (.error ()), s) => .error (.io span.unit) s
    | (none, s) => .error (.io span.unit) s

def read (addr : UInt32) (length : Nat) : EStateM ReadFailure (Store υ) ByteArray := fun s =>
  match s.refusal? addr length with
  | some error => .error ⟨error, ByteArray.empty⟩ s
  | none =>
    let spans := Span.split s.unitCapacity.toNat addr.toNat length
    readSpans spans ByteArray.empty { s with reads := s.reads + 1 }

def write (addr : UInt32) (data : ByteArray) : EStateM StorageError (Store υ) Unit := fun s =>
  match s.refusal? addr data.size with
  | some error => .error error s
  | none =>
    let spans := Span.split s.unitCapacity.toNat addr.toNat data.size
    writeSpans data spans 0 { s with writes := s.writes + 1 }

def resetCounters (s : Store υ) : Store υ :=
  { s with reads := 0, writes := 0 }

end Store

end RiscvMachine
