import Mathlib
import RiscvMachine.Bytes.Endian

set_option autoImplicit false

/-! # Numbers written and read back

What a number becomes when it is written in a fixed number of bytes and read again. Main
statement: `ofLittleEndianList_littleEndianList`, nothing is lost but what does not fit.
-/

namespace RiscvMachine.Bytes

/-- What is written in `n` bytes is read back modulo their range. -/
theorem ofLittleEndianList_littleEndianList (n v : Nat) :
    ofLittleEndianList (littleEndianList n v) = v % 256 ^ n := by
  induction n generalizing v with
  | zero => simp [littleEndianList, ofLittleEndianList, Nat.mod_one]
  | succ n ih =>
    rw [littleEndianList, ofLittleEndianList, ih, Nat.pow_succ, Nat.mul_comm (256 ^ n) 256,
      Nat.mod_mul]
    simp

end RiscvMachine.Bytes
