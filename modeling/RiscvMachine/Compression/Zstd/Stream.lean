import RiscvMachine.Compression.Zstd.Frame

set_option autoImplicit false

/-! # Zstd data as a whole

The contents of a run of frames that is at hand. It is given to the decoder in pieces of a fixed
size, and with room for a fixed number of bytes, because that decides which frames are read as a
whole.
-/

namespace RiscvMachine.Compression.Zstd

/-- The size of the pieces in which input is given: a block and the header of the next. -/
def pieceSize : Nat := maxBlockSize + BlockHeader.length

def roomSize : Nat := 8192

/-- The contents of all frames of the input, with fuel for the items and the pieces. -/
def State.contents? (input : ByteArray) : Nat → (turn : Turn) → State → Option ByteArray
  | 0, _, _ => none
  | fuel + 1, turn, s =>
    match s.read turn with
    | .ok (item, stop) =>
      let s := s.apply item stop
      if item.endsFrame && input.size ≤ stop then some s.output
      else s.contents? input fuel { turn with pieceStart := max stop turn.pieceStart }
    | .error .needInput =>
      let start := turn.input.size
      if input.size ≤ start then none
      else s.contents? input fuel ⟨input.extract 0 (start + pieceSize), start, roomSize⟩
    | .error .corrupt => none

/-- The contents of a run of frames, of which there must be one at least. -/
def decompress (input : ByteArray) : Option ByteArray :=
  State.start.contents? input (4 * input.size + 2) ⟨input.extract 0 pieceSize, 0, roomSize⟩

/-! ## Writing -/

/-- Raw blocks for the bytes from index `i` on, each but the last of the greatest size. -/
def rawBlocks (bytes : ByteArray) : Nat → (i : Nat) → ByteArray
  | 0, _ => ByteArray.empty
  | fuel + 1, i =>
    let size := min maxBlockSize (bytes.size - i)
    let isLast := bytes.size ≤ i + size
    let block := Bytes.littleEndian BlockHeader.length (8 * size + if isLast then 1 else 0) ++
      bytes.extract i (i + size)
    if isLast then block else block ++ rawBlocks bytes fuel (i + size)

/-- A frame with the given contents, of fewer than `2 ^ 32` bytes, in raw blocks. -/
def store (bytes : ByteArray) : ByteArray :=
  Bytes.littleEndian 4 frameMagic ++ [0xA0].toByteArray ++ Bytes.littleEndian 4 bytes.size ++
    rawBlocks bytes (bytes.size / maxBlockSize + 1) 0

end RiscvMachine.Compression.Zstd
