import RiscvMachine.Bytes.Basic

set_option autoImplicit false

/-! # Numbers as bytes

Fixed-size numbers in little-endian and big-endian byte order. `littleEndian n v` holds the
lowest `n` bytes of `v`, and `littleEndianAt` reads such a number back.
-/

namespace RiscvMachine.Bytes

/-- The lowest `n` bytes of `v`, least significant first. -/
def littleEndianList : Nat → Nat → List UInt8
  | 0, _ => []
  | n + 1, v => UInt8.ofNat v :: littleEndianList n (v / 256)

/-- The number that the bytes spell, least significant first. -/
def ofLittleEndianList : List UInt8 → Nat
  | [] => 0
  | b :: rest => b.toNat + 256 * ofLittleEndianList rest

/-- The lowest `n` bytes of `v`, least significant first. -/
def littleEndian (n v : Nat) : ByteArray :=
  (littleEndianList n v).toByteArray

/-- The lowest `n` bytes of `v`, most significant first. -/
def bigEndian (n v : Nat) : ByteArray :=
  (littleEndianList n v).reverse.toByteArray

/-- The number whose `n` bytes stand from index `i` on, least significant first. -/
def littleEndianAt (bytes : ByteArray) (i : Nat) : Nat → Nat
  | 0 => 0
  | n + 1 => (byteAt bytes i).toNat + 256 * littleEndianAt bytes (i + 1) n

/-- The number whose `n` bytes stand from index `i` on, most significant first. -/
def bigEndianAt (bytes : ByteArray) (i : Nat) : Nat → Nat
  | 0 => 0
  | n + 1 => 256 * bigEndianAt bytes i n + (byteAt bytes (i + n)).toNat

end RiscvMachine.Bytes
