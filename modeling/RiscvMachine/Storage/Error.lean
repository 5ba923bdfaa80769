import RiscvMachine.Panic

set_option autoImplicit false

/-! # Storage failures

Why a request to the backing store could not be served, and the text that reports it.
-/

namespace RiscvMachine

/-- Why a request to the backing store, or building one, failed. -/
inductive StorageError
  /-- The requested range ends past the last byte of the store. -/
  | outOfRange (addr : UInt32) (length capacity : Nat)
  /-- A unit refused a transfer. -/
  | io (unit : Nat)
  /-- The units do not share one capacity. -/
  | capacityMismatch (unit : Nat) (expected actual : UInt32)
  /-- The store would have no unit at all. -/
  | noUnits
  /-- The program gave up. -/
  | panic (why : Panic)
  deriving DecidableEq, Repr

open Text in
def StorageError.message : StorageError → String
  | .outOfRange addr length capacity =>
    s!"access of {decimal length} bytes at 0x{hex 8 addr.toNat} exceeds backing capacity of " ++
      s!"{decimal capacity} bytes"
  | .io unit => s!"unit {decimal unit} I/O failure"
  | .capacityMismatch unit expected actual =>
    s!"unit {decimal unit} has capacity {decimal actual.toNat}, expected " ++
      s!"{decimal expected.toNat}"
  | .noUnits => "no storage units configured"
  | .panic why => why.message

end RiscvMachine
