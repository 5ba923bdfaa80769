import RiscvMachine.Compression.Zstd.BackwardBits

set_option autoImplicit false

/-! # A window on bits

The streams of a Huffman code are read from their last bit to their first through a window of
eight bytes. Bits are taken from the top of the window. When whole bytes of it have been taken,
it is moved down over the bytes before, but not below a lowest byte. Whoever takes more bits than
that leaves finds those of the window once more, from its top on.
-/

namespace RiscvMachine.Compression.Zstd

/-- A window of eight bytes on a run of bytes. -/
structure BitWindow where
  bytes : ByteArray
  /-- The lowest byte that the window may cover. -/
  lowest : Nat
  /-- The lowest byte that it covers. -/
  position : Nat
  /-- The bits that it shows. -/
  word : UInt64
  /-- How many bits have been taken from its top. -/
  taken : Nat

namespace BitWindow

def place (bytes : ByteArray) (lowest position taken : Nat) : BitWindow :=
  ⟨bytes, lowest, position, UInt64.ofNat (Bytes.littleEndianAt bytes position 8), taken⟩

/-- How many bits the end mark takes: the highest bit that is set in the last byte of a stream
and the zeros above it. A byte of zero has no mark. -/
def markLength (last : UInt8) : Nat :=
  if last = 0 then 0 else 8 - last.toNat.log2

/-- The window on the last bits of the stream of `size` bytes from `start` on, below the end
mark. No bytes, or a last byte without a mark, hold no stream. In a stream of less than eight
bytes the upper bytes of the window count as taken. -/
def ofStream? (bytes : ByteArray) (start size : Nat) : Option BitWindow :=
  let last := Bytes.byteAt bytes (start + size - 1)
  if size = 0 ∨ last = 0 then none
  else if 8 ≤ size then some (place bytes start (start + size - 8) (markLength last))
  else
    let word := UInt64.ofNat (Bytes.littleEndianAt bytes start size)
    some ⟨bytes, start, start, word, markLength last + 8 * (8 - size)⟩

def peek (w : BitWindow) (n : Nat) : Nat :=
  if n = 0 then 0
  else ((w.word <<< UInt64.ofNat (w.taken % 64)) >>> UInt64.ofNat (64 - n)).toNat

def drop (w : BitWindow) (n : Nat) : BitWindow :=
  { w with taken := w.taken + n }

/-- The window without its whole bytes that have been taken, wherever that leads. -/
def slide (w : BitWindow) : BitWindow :=
  place w.bytes w.lowest (w.position - w.taken / 8) (w.taken % 8)

/-- Moves the window down as far as it may, and tells whether it could go on by all bytes that
have been taken. Nothing moves once more bits have been taken than there were. -/
def refill (w : BitWindow) : BitWindow × Bool :=
  if 64 < w.taken ∨ w.position = w.lowest then (w, false)
  else if w.lowest + w.taken / 8 ≤ w.position then (w.slide, true)
  else (place w.bytes w.lowest w.lowest (w.taken - 8 * (w.position - w.lowest)), false)

def overrun (w : BitWindow) : Bool := 64 < w.taken

def isUsedUp (w : BitWindow) : Bool :=
  w.position = w.lowest && w.taken = 64

instance : BitSource BitWindow where
  take n := fun w => (w.peek n, w.drop n)

end BitWindow

end RiscvMachine.Compression.Zstd
