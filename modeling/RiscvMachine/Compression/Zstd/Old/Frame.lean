import RiscvMachine.Compression.Xxh64
import RiscvMachine.Compression.Zstd.Header

set_option autoImplicit false

/-! # Frames of older formats

Before the format was settled it had others, of which the last four are still read. Their numbers
stand in the lowest digit of the magic number. A block states its kind in its upper bits and is
read as a whole; a block of no bytes ends the frame like an end block.
-/

namespace RiscvMachine.Compression.Zstd

inductive OldFormat
  | four
  | five
  | six
  | seven
  deriving DecidableEq, Repr

/-- What is known of a frame of an older format. -/
structure OldFrame where
  format : OldFormat
  /-- The most bytes of a block that arrives in pieces. -/
  blockLimit : Nat
  /-- The size of the buffer for the output. -/
  bufferSize : Nat
  /-- Whether the end block holds a checksum. -/
  hasChecksum : Bool

namespace OldFrame

/-- The format that the number at byte `start` stands for. -/
def format? (input : ByteArray) (start : Nat) : Option OldFormat :=
  if input.size < start + 4 then none
  else
    match Bytes.littleEndianAt input start 4 with
    | 0xFD2FB524 => some .four
    | 0xFD2FB525 => some .five
    | 0xFD2FB526 => some .six
    | 0xFD2FB527 => some .seven
    | _ => none

/-- The buffer size for blocks that need whole windows in front of them. -/
def roomyBuffer (window : Nat) : Nat := window + min window maxBlockSize + 16

/-- Reads the header of the first two formats: a number for the size of the window. -/
def readNarrow (format : OldFormat) (input : ByteArray) (start : Nat) :
    Except Stall (OldFrame × Nat) := do
  need input start 5
  let byte := (Bytes.byteAt input (start + 4)).toNat
  if 16 ≤ byte then throw .corrupt
  return (⟨format, maxBlockSize, 1 <<< (11 + byte), false⟩, start + 5)

/-- Reads the header of the third format, which may tell the size of the contents. -/
def readWide (input : ByteArray) (start : Nat) : Except Stall (OldFrame × Nat) := do
  need input start 5
  let byte := (Bytes.byteAt input (start + 4)).toNat
  let sizeBytes := [0, 1, 2, 8].getD (byte / 64) 0
  need input start (5 + sizeBytes)
  if byte / 32 % 2 = 1 then throw .corrupt
  let window := 1 <<< (12 + byte % 16)
  return (⟨.six, min window maxBlockSize, roomyBuffer window, false⟩, start + 5 + sizeBytes)

def maxWindow : Nat := 1 <<< 27

/-- Reads the header of the fourth format, which is that of the present one. -/
def readModern (input : ByteArray) (start : Nat) : Except Stall (OldFrame × Nat) := do
  need input start 5
  match ← FrameStart.readHeader input (start + 4) with
  | (.frame header, stop) =>
    let window := header.windowSize % UInt32.size
    if maxWindow < window then throw .corrupt
    let window := max window 1024
    return (⟨.seven, min window maxBlockSize, roomyBuffer window, header.hasChecksum⟩, stop)
  | _ => throw .corrupt

def read (format : OldFormat) (input : ByteArray) (start : Nat) :
    Except Stall (OldFrame × Nat) :=
  match format with
  | .six => readWide input start
  | .seven => readModern input start
  | _ => readNarrow format input start

/-- Whether the end block at byte `start` holds the checksum of the contents, if there has to be
one: the 22 bits of it that a block header has room for. -/
def checksumMatches (frame : OldFrame) (input : ByteArray) (start : Nat)
    (contents : ByteArray) : Bool :=
  let sum := (Xxh64.checksum contents).toNat / 2048
  let mask := 1 <<< 22
  !frame.hasChecksum || Bytes.bigEndianAt input start 3 % mask = sum % mask

end OldFrame

inductive OldBlockKind
  | compressed
  | raw
  | repeated
  | frameEnd
  deriving DecidableEq, Repr

structure OldBlockHeader where
  kind : OldBlockKind
  /-- How many bytes the block takes behind its header. -/
  size : Nat

def OldBlockHeader.read (input : ByteArray) (start : Nat) : OldBlockHeader :=
  let number := Bytes.bigEndianAt input start BlockHeader.length
  let size := number % (1 <<< 19)
  match number >>> 22 with
  | 0 => ⟨.compressed, size⟩
  | 1 => ⟨.raw, size⟩
  | 2 => ⟨.repeated, 1⟩
  | _ => ⟨.frameEnd, 0⟩

end RiscvMachine.Compression.Zstd
