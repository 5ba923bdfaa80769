import RiscvMachine.Compression.Xxh64
import RiscvMachine.Compression.Zstd.Block
import RiscvMachine.Compression.Zstd.Header

set_option autoImplicit false

/-! # Whole frames

Decoding of a frame that is at hand from its first to its last byte, into room that holds all of
its contents. Then the size of its window does not matter, and a block that is not compressed
may have any size. The contents must have the size that was told.
-/

namespace RiscvMachine.Compression.Zstd

def checksumLength (hasChecksum : Bool) : Nat := if hasChecksum then 4 else 0

/-- Whether the checksum at byte `start` is that of the contents, if there is one. -/
def checksumMatches (input : ByteArray) (start : Nat) (hasChecksum : Bool)
    (contents : ByteArray) : Bool :=
  !hasChecksum ||
    Bytes.littleEndianAt input start 4 = (Xxh64.checksum contents).toUInt32.toNat

/-- The end of the block at byte `start`, and whether it is the last; `none` if it is not all
there or of no kind. -/
def blockEnd? (input : ByteArray) (start : Nat) : Option (Nat × Bool) :=
  let header := BlockHeader.read input start
  let stop := start + BlockHeader.length + header.bodyLength
  if input.size < start + BlockHeader.length ∨ header.kind = .reserved ∨ input.size < stop then
    none
  else some (stop, header.isLast)

/-- The end of the run of blocks at byte `start`, if it is all there. -/
def blocksEnd? (input : ByteArray) : Nat → (start : Nat) → Option Nat
  | 0, _ => none
  | fuel + 1, start => do
    let (stop, isLast) ← blockEnd? input start
    if isLast then some stop else blocksEnd? input fuel stop

/-- The end of the frame whose blocks start at byte `start`, if it is all there. -/
def frameEnd? (header : FrameHeader) (input : ByteArray) (start : Nat) : Option Nat := do
  let stop := (← blocksEnd? input (input.size + 1) start) + checksumLength header.hasChecksum
  if input.size < stop then none else some stop

/-- The contents of the block at byte `start` behind those of the blocks before it. -/
def appendBlock? (limit room : Nat) (input : ByteArray) (start : Nat) (carried : Carried)
    (out : ByteArray) : Option (ByteArray × Carried) :=
  let header := BlockHeader.read input start
  let start := start + BlockHeader.length
  let room := room - out.size
  match header.kind with
  | .raw =>
    if room < header.size then none
    else some (out ++ input.extract start (start + header.size), carried)
  | .repeated =>
    if room < header.size then none
    else
      let bytes := List.replicate header.size (Bytes.byteAt input start)
      some (out ++ bytes.toByteArray, carried)
  | .compressed =>
    let body := input.extract start (start + header.size)
    (blockContents? ⟨out, 0, 0⟩ carried ⟨limit, room, false⟩ body).map fun (bytes, carried) =>
      (out ++ bytes, carried)
  | .reserved => none

/-- The contents of the run of blocks at byte `start`, and the byte behind it. -/
def appendBlocks? (limit room : Nat) (input : ByteArray) :
    Nat → (start : Nat) → Carried → ByteArray → Option (ByteArray × Nat)
  | 0, _, _, _ => none
  | fuel + 1, start, carried, out => do
    let (stop, isLast) ← blockEnd? input start
    let (out, carried) ← appendBlock? limit room input start carried out
    if isLast then some (out, stop)
    else appendBlocks? limit room input fuel stop carried out

/-- The contents of the frame whose blocks start at byte `start`, in at most `room` bytes. -/
def wholeFrame? (header : FrameHeader) (room : Nat) (input : ByteArray) (start : Nat) :
    Option ByteArray := do
  let (contents, stop) ←
    appendBlocks? header.blockLimit room input (input.size + 1) start .start ByteArray.empty
  if header.contentSize.any (· ≠ contents.size) then none
  if checksumMatches input stop header.hasChecksum contents then some contents else none

end RiscvMachine.Compression.Zstd
