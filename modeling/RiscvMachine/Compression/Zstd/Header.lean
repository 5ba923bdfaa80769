import RiscvMachine.Compression.Bits

set_option autoImplicit false

/-! # Headers

What stands in front of a zstd frame and of each of its blocks. A frame starts with a magic
number; a frame of another number can be skipped, and its contents are nothing.
-/

namespace RiscvMachine.Compression.Zstd

/-- Fails if the input has no `n` bytes from byte `start` on. -/
def need (input : ByteArray) (start n : Nat) : Except Stall Unit :=
  if input.size < start + n then throw .needInput else pure ()

/-! ## Frames -/

def frameMagic : Nat := 0xFD2FB528

/-- The numbers that a frame to be skipped starts with, without their lowest digit. -/
def skippableMagic : Nat := 0x184D2A5

def maxBlockSize : Nat := 0x20000

structure FrameHeader where
  /-- How far back a match may be expected to reach. -/
  windowSize : Nat
  /-- The most bytes of a block. -/
  blockLimit : Nat
  /-- The size of the contents, if it is told. -/
  contentSize : Option Nat
  /-- Whether a checksum follows. -/
  hasChecksum : Bool

inductive FrameStart
  | frame (header : FrameHeader)
  /-- So many bytes to be skipped. -/
  | skippable (size : Nat)

namespace FrameStart

/-- The size of the window that a window byte stands for. -/
def windowSize (byte : Nat) : Nat :=
  let base := 1 <<< (10 + byte / 8)
  base + base / 8 * (byte % 8)

/-- The greatest window byte, for windows of less than four gibibytes. -/
def maxWindowByte : Nat := 0xAF

/-- Reads a frame header behind the magic number. A size of all ones is not told. -/
def readHeader (input : ByteArray) (start : Nat) : Except Stall (FrameStart × Nat) := do
  need input start 1
  let flags := (Bytes.byteAt input start).toNat
  let single := flags / 32 % 2 = 1
  let windowBytes := if single then 0 else 1
  let idBytes := [0, 1, 2, 4].getD (flags % 4) 0
  let sizeBytes := [if single then 1 else 0, 2, 4, 8].getD (flags / 64) 0
  need input (start + 1) (windowBytes + idBytes + sizeBytes)
  let windowByte := (Bytes.byteAt input (start + 1)).toNat
  let idStart := start + 1 + windowBytes
  let sizeStart := idStart + idBytes
  let number := Bytes.littleEndianAt input sizeStart sizeBytes
  let size := if sizeBytes = 2 then number + 256 else number
  if flags / 8 % 2 = 1 ∨ (!single ∧ maxWindowByte < windowByte) then throw .corrupt
  if Bytes.littleEndianAt input idStart idBytes ≠ 0 then throw .corrupt
  let window := if single then size else windowSize windowByte
  let contentSize := if sizeBytes = 0 ∨ size + 1 = UInt64.size then none else some size
  let header := ⟨window, min window maxBlockSize, contentSize, flags / 4 % 2 = 1⟩
  return (.frame header, sizeStart + sizeBytes)

/-- Whether bytes agree with a number as far as both reach. -/
def startsLike (bytes : List UInt8) (magic : Nat) : Bool :=
  bytes.zip (Bytes.littleEndianList 4 magic) |>.all fun (byte, expected) => byte == expected

def canStart (bytes : List UInt8) : Bool :=
  startsLike bytes frameMagic ||
    match bytes with
    | [] => true
    | first :: rest => first.toNat / 16 = 5 && startsLike rest (skippableMagic / 16)

/-- Reads the start of a frame, of which at least five bytes must be there to be judged by. -/
def read (input : ByteArray) (start : Nat) : Except Stall (FrameStart × Nat) := do
  if !canStart (input.extract start (start + 4)).toList then throw .corrupt
  need input start 5
  if Bytes.littleEndianAt input start 4 = frameMagic then readHeader input (start + 4)
  else
    need input start 8
    return (.skippable (Bytes.littleEndianAt input (start + 4) 4), start + 8)

end FrameStart

/-! ## Blocks -/

inductive BlockKind
  | raw
  | repeated
  | compressed
  | reserved
  deriving DecidableEq, Repr

structure BlockHeader where
  isLast : Bool
  kind : BlockKind
  /-- How many bytes it holds, or takes if it is compressed. -/
  size : Nat

namespace BlockHeader

def length : Nat := 3

def read (input : ByteArray) (start : Nat) : BlockHeader :=
  let number := Bytes.littleEndianAt input start length
  let kind := match number / 2 % 4 with
    | 0 => BlockKind.raw
    | 1 => .repeated
    | 2 => .compressed
    | _ => .reserved
  ⟨number % 2 = 1, kind, number / 8⟩

def bodyLength (header : BlockHeader) : Nat :=
  if header.kind = .repeated then 1 else header.size

end BlockHeader

end RiscvMachine.Compression.Zstd
