import RiscvMachine.Text.Numeral

set_option autoImplicit false

/-! # Giving up

The program gives up where a machine word cannot hold what is reckoned in it, where memory is asked
for that no allocator has, where a range of bytes ends behind them, and where an assertion does not
hold. Sizes, offsets and the numbers of blocks are reckoned with `Checked` for that reason. The
registers of the guest and the counters of traffic are not: they start again from zero.
-/

namespace RiscvMachine

inductive Panic
  | addition
  | multiplication
  | shiftRight
  | shiftLeft
  /-- More bytes at once than half the address space. -/
  | allocation
  /-- A range that ends at `stop`, behind the last of `size` bytes. -/
  | rangeEnd (stop size : Nat)
  | assertion (text : String)
  deriving DecidableEq, Repr

open Text in
def Panic.message : Panic → String
  | addition => "attempt to add with overflow"
  | multiplication => "attempt to multiply with overflow"
  | shiftRight => "attempt to shift right with overflow"
  | shiftLeft => "attempt to shift left with overflow"
  | allocation => "capacity overflow"
  | rangeEnd stop size =>
    s!"range end index {decimal stop} out of range for slice of length {decimal size}"
  | assertion text => text

namespace Checked

/-- The sum of two lengths or offsets, in 64 bits. -/
def add (a b : Nat) : Except Panic UInt64 :=
  if a + b < UInt64.size then .ok (UInt64.ofNat (a + b)) else .error .addition

def multiply (a b : Nat) : Except Panic UInt64 :=
  if a * b < UInt64.size then .ok (UInt64.ofNat (a * b)) else .error .multiplication

/-- Shifts by the width of a word and more have no value. -/
def shiftRight (a count : UInt32) : Except Panic UInt32 :=
  if count < 32 then .ok (a >>> count) else .error .shiftRight

def shiftLeft (a count : UInt32) : Except Panic UInt32 :=
  if count < 32 then .ok (a <<< count) else .error .shiftLeft

/-- Asks for the memory of `count` items of `size` bytes. -/
def allocate (count size : Nat) : Except Panic Unit :=
  if count * size < 1 <<< 63 then .ok () else .error .allocation

end Checked

end RiscvMachine
