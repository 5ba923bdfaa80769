set_option autoImplicit false

/-! # Access widths

The sizes of the memory accesses that a hart makes, and natural alignment.
-/

namespace RiscvMachine

inductive Width
  | byte
  | half
  | word
  deriving DecidableEq, Repr

namespace Width

def bytes : Width → Nat
  | byte => 1
  | half => 2
  | word => 4

/-- The part of a word that an access carries. -/
def truncate (width : Width) (value : UInt32) : UInt32 :=
  match width with
  | byte => value.toUInt8.toUInt32
  | half => value.toUInt16.toUInt32
  | word => value

def aligned (width : Width) (addr : UInt32) : Bool :=
  addr &&& (UInt32.ofNat width.bytes - 1) == 0

end Width

end RiscvMachine
