import RiscvMachine.Compression.Zstd.Header
import RiscvMachine.Compression.Zstd.Old.Frame

set_option autoImplicit false

/-! # Buffers

A frame that is decoded block by block goes through a buffer. The buffer is filled from its start
again and again, and matches reach back into the present filling and the one before. So its size
decides how far a match may reach, and how much a frame may hold that tells its size. Buffers are
kept for later frames, which may find them larger than they need.
-/

namespace RiscvMachine.Compression.Zstd

/-! ## Sizes -/

/-- The sizes of the buffers for the input and the output, and how many frames in a row needed
less than a third of them. -/
structure Allocation where
  input : Nat
  output : Nat
  idle : Nat

namespace Allocation

def minWindow : Nat := 1024

/-- How much a decoder may write behind the end of a match. -/
def overlength : Nat := 32

/-- The buffer for output that a frame needs: a window, a block, and some more on both sides, or
all of its contents if they are less. -/
def neededOutput (header : FrameHeader) : Nat :=
  let window := max header.windowSize minWindow
  let block := min (min window maxBlockSize) header.blockLimit
  let needed := window + block + 2 * overlength
  match header.contentSize with
  | some size => min size needed
  | none => needed

/-- For so many frames in a row, buffers that are too large are kept. -/
def patience : Nat := 128

/-- The buffers for a frame: those that there are, unless they are too small, or have been too
large for too long. -/
def fit (a : Allocation) (header : FrameHeader) : Allocation :=
  let input := max header.blockLimit 4
  let output := neededOutput header
  let idle := if 3 * (input + output) ≤ a.input + a.output then a.idle + 1 else 0
  if a.input < input ∨ a.output < output ∨ patience ≤ idle then ⟨input, output, idle⟩
  else ⟨a.input, a.output, idle⟩

def fitSkippable (a : Allocation) (size : Nat) : Allocation :=
  a.fit ⟨0, 0, some size, false⟩

end Allocation

/-- The sizes of the buffers for frames of an older format. -/
structure OldAllocation where
  format : OldFormat
  input : Nat
  output : Nat

namespace OldAllocation

/-- The buffers for a frame: those that there are, unless they are too small or belong to
another format. -/
def fit (a : Option OldAllocation) (frame : OldFrame) : OldAllocation :=
  match a with
  | some ⟨format, input, output⟩ =>
    if format = frame.format then
      ⟨format, max input frame.blockLimit, max output frame.bufferSize⟩
    else ⟨frame.format, frame.blockLimit, frame.bufferSize⟩
  | none => ⟨frame.format, frame.blockLimit, frame.bufferSize⟩

end OldAllocation

/-! ## Filling -/

structure OutputBuffer where
  size : Nat
  /-- A new filling starts where less than this is left; nothing if the buffer is large enough for
  all of the frame. -/
  margin : Option Nat
  /-- Where in the output the present filling starts. -/
  filling : Nat
  /-- Where in the output the filling before it starts. -/
  previous : Nat

namespace OutputBuffer

/-- The buffer for a frame whose contents start at index `start` of the output. -/
def forFrame (size : Nat) (header : FrameHeader) (start : Nat) : OutputBuffer :=
  ⟨size, if header.contentSize.any (· ≤ size) then none else some header.blockLimit, start, start⟩

def forOldFrame (size : Nat) (frame : OldFrame) (start : Nat) : OutputBuffer :=
  ⟨size, some frame.blockLimit, start, start⟩

def room (b : OutputBuffer) (written : Nat) : Nat := b.size - (written - b.filling)

def advance (b : OutputBuffer) (written : Nat) : OutputBuffer :=
  match b.margin with
  | none => b
  | some margin =>
    if b.size < written - b.filling + margin then
      { b with filling := written, previous := b.filling }
    else b

end OutputBuffer

end RiscvMachine.Compression.Zstd
