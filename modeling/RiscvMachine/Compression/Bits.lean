import RiscvMachine.Bytes.Endian

set_option autoImplicit false

/-! # Reading bits

A compressed stream is a sequence of bits, the lowest bit of each byte first. `BitReader` is a
computation that reads such bits from a moving position and may find that the input ends too
early or is no valid stream. After an early end the same computation can be run again from the
old position once there is more input.
-/

namespace RiscvMachine.Compression

/-- Why decoding cannot go on. -/
inductive Stall
  /-- The input ends before the item that is being read. -/
  | needInput
  /-- The input is no valid stream. -/
  | corrupt
  deriving DecidableEq, Repr

/-- A computation that reads bits of an input from a position counted in bits. -/
abbrev BitReader := ReaderT ByteArray (EStateM Stall Nat)

/-- The number in the `n` bits from position `position` on. -/
def bitsAt (input : ByteArray) (position n : Nat) : Nat :=
  (Bytes.littleEndianAt input (position / 8) ((n + 14) / 8) >>> (position % 8)) % (1 <<< n)

namespace BitReader

def corrupt {α : Type} : BitReader α := throw .corrupt

def take (n : Nat) : BitReader Nat := fun input position =>
  if position + n ≤ 8 * input.size then .ok (bitsAt input position n) (position + n)
  else .error .needInput position

def alignToByte : BitReader Unit :=
  modify fun position => (position + 7) / 8 * 8

end BitReader

end RiscvMachine.Compression
