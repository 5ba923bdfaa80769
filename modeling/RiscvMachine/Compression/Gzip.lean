import RiscvMachine.Compression.Bits
import RiscvMachine.Compression.Crc32

set_option autoImplicit false

/-! # The gzip envelope

What stands around a deflate stream in a gzip member: a header with optional fields in front,
and the check and the length of the contents behind.
-/

namespace RiscvMachine.Compression.Gzip

def magic : List UInt8 := [0x1F, 0x8B]

def maxTextLength : Nat := 65535

/-- The byte at an offset, if it has arrived. -/
def byte (input : ByteArray) (i : Nat) : Except Stall Nat :=
  if i < input.size then .ok (Bytes.byteAt input i).toNat else .error .needInput

/-- The end of a zero-terminated text of at most `n` bytes. -/
def skipText (input : ByteArray) : Nat → Nat → Except Stall Nat
  | 0, i => do
    if (← byte input i) = 0 then return i + 1 else throw .corrupt
  | n + 1, i => do
    if (← byte input i) = 0 then return i + 1 else skipText input n (i + 1)

def hasFlag (flags bit : Nat) : Bool := flags.testBit bit

def headerLength (input : ByteArray) : Except Stall Nat := do
  if input.size < 10 then throw .needInput
  let flags ← byte input 3
  if !Bytes.startsWith input magic || (← byte input 2) ≠ 8 || 32 ≤ flags then throw .corrupt
  let mut i := 10
  if hasFlag flags 2 then
    let length := (← byte input i) + 256 * (← byte input (i + 1))
    i := i + 2 + length
    if input.size < i then throw .needInput
  if hasFlag flags 3 then
    i ← skipText input maxTextLength i
  if hasFlag flags 4 then
    i ← skipText input maxTextLength i
  if hasFlag flags 1 then
    let stored := (← byte input i) + 256 * (← byte input (i + 1))
    if stored ≠ (Crc32.checksum (input.extract 0 i)).toNat % 65536 then throw .corrupt
    i := i + 2
  return i

def trailerLength : Nat := 8

/-- Whether the trailer at an offset fits the contents. -/
def trailerMatches (input : ByteArray) (i : Nat) (contents : ByteArray) : Bool :=
  Bytes.littleEndianAt input i 4 == (Crc32.checksum contents).toNat &&
    Bytes.littleEndianAt input (i + 4) 4 == contents.size % UInt32.size

end RiscvMachine.Compression.Gzip
