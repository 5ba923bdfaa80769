import RiscvMachine.Compression.Bits

set_option autoImplicit false

/-! # Bits read backwards

The entropy-coded parts of a zstd block are read from their last bit to their first. The highest
bit that is set in the last byte marks the end of the data. Bits taken beyond the start are
zero, and the stream remembers that this has happened.
-/

namespace RiscvMachine.Compression.Zstd

class BitSource (σ : Type) where
  /-- Takes the number in the next `n` bits. -/
  take (n : Nat) : StateM σ Nat

/-- A run of bits that is read from its end. -/
structure BackwardBits where
  bytes : ByteArray
  /-- How many bits are left. -/
  left : Nat
  /-- Whether more bits have been taken than there were. -/
  overrun : Bool

namespace BackwardBits

/-- The bits below the end mark; no bytes, or a last byte without a mark, hold no stream. -/
def ofBytes? (bytes : ByteArray) : Option BackwardBits :=
  let last := (Bytes.byteAt bytes (bytes.size - 1)).toNat
  if last = 0 then none else some ⟨bytes, 8 * (bytes.size - 1) + last.log2, false⟩

def peek (s : BackwardBits) (n : Nat) : Nat :=
  if n ≤ s.left then bitsAt s.bytes (s.left - n) n
  else bitsAt s.bytes 0 s.left <<< (n - s.left)

def drop (s : BackwardBits) (n : Nat) : BackwardBits :=
  ⟨s.bytes, s.left - n, s.overrun || s.left < n⟩

instance : BitSource BackwardBits where
  take n := fun s => (s.peek n, s.drop n)

def isUsedUp (s : BackwardBits) : Bool :=
  s.left = 0 && !s.overrun

end BackwardBits

end RiscvMachine.Compression.Zstd
