import RiscvMachine.Compression.Zstd.Buffer
import RiscvMachine.Compression.Zstd.Old.Block
import RiscvMachine.Compression.Zstd.Whole

set_option autoImplicit false

/-! # Zstd frames

Decoding of a run of frames step by step. A step reads a whole frame that is at hand, a frame
header, one block or a part of a raw one, or the end of a frame; it either changes the state or
leaves it as it is and tells what is missing. So the input may arrive in pieces.

A frame that tells the size of its contents is read as a whole if all of it arrives in one piece
and the contents fit into the room that there is for them. All other frames go block by block,
with stricter rules for windows and blocks; but an empty block at the end hides whether the
contents have the size that was told.
-/

namespace RiscvMachine.Compression.Zstd

inductive Phase
  | frameStart
  | blockStart
  /-- In a raw block with so many bytes left. -/
  | raw (left : Nat) (isLast : Bool)
  | frameEnd
  /-- At the start of a frame of an older format. -/
  | oldStart (format : OldFormat)
  /-- At a block of such a frame. -/
  | oldBlock (frame : OldFrame)

/-- The state of decoding: the position in the input in bytes, all output so far, where that of
the present frame starts, what is known of the frame, and its buffers. -/
structure State where
  position : Nat
  output : ByteArray
  frameStart : Nat
  phase : Phase
  header : FrameHeader
  carried : Carried
  buffer : OutputBuffer
  allocation : Allocation
  oldAllocation : Option OldAllocation

def State.start : State where
  position := 0
  output := ByteArray.empty
  frameStart := 0
  phase := .frameStart
  header := ⟨0, 0, none, false⟩
  carried := .start
  buffer := ⟨0, none, 0, 0⟩
  allocation := ⟨0, 0, 0⟩
  oldAllocation := none

/-- What a decoder works with at one time: all input so far, where in it the latest piece starts,
and the room for output. -/
structure Turn where
  input : ByteArray
  pieceStart : Nat
  room : Nat

inductive Item
  | header (header : FrameHeader)
  /-- That the frame is of an older format. -/
  | oldFormat (format : OldFormat)
  | oldHeader (frame : OldFrame)
  /-- A frame that holds no contents, with so many bytes behind its header. -/
  | skipped (size : Nat)
  /-- A frame that is read as a whole. -/
  | whole (contents : ByteArray)
  | rawBlock (size : Nat) (isLast : Bool)
  /-- A block, or the next bytes of a raw one, and what it leaves to later ones. -/
  | contents (bytes : ByteArray) (carried : Carried) (next : Phase)
  | frameEnd

/-- What reads an item: the item and the byte behind it. -/
abbrev ItemReader := Except Stall (Item × Nat)

/-! ## Frame starts -/

/-- The size of the largest window that is accepted where a frame is not read as a whole. -/
def maxWindowSize : Nat := 0x8000001

/-- Reads a frame of which the header has been read up to byte `start`. -/
def State.readFrame (s : State) (turn : Turn) (header : FrameHeader) (start : Nat) :
    ItemReader :=
  let fits := s.position = turn.pieceStart ∧ header.contentSize.any (· ≤ turn.room)
  match if fits then frameEnd? header turn.input start else none with
  | some stop =>
    match wholeFrame? header turn.room turn.input start with
    | some contents => .ok (.whole contents, stop)
    | none => .error .corrupt
  | none =>
    if maxWindowSize < header.windowSize then .error .corrupt else .ok (.header header, start)

/-- Reads the start of a frame. Where the present format is not found, an older one may be, but
only at the start of a piece. -/
def State.readFrameStart (s : State) (turn : Turn) : ItemReader :=
  let input := turn.input
  match FrameStart.read input s.position with
  | .ok (.frame header, start) => s.readFrame turn header start
  | .ok (.skippable size, start) => do
    need input start size
    return (.skipped size, start + size)
  | .error .needInput => .error .needInput
  | .error .corrupt =>
    let start := turn.pieceStart
    match if input.size < s.position + 5 then none else OldFrame.format? input start with
    | some format => .ok (.oldFormat format, start)
    | none => .error .corrupt

/-! ## Blocks -/

def afterBlock (isLast : Bool) : Phase :=
  if isLast then .frameEnd else .blockStart

/-- The item for bytes of a block, up to byte `stop` of the input. They must fit into the buffer,
and with the last bytes of a frame its contents must have the size that was told. -/
def State.contents (s : State) (bytes : ByteArray) (carried : Carried) (next : Phase)
    (stop : Nat) : ItemReader :=
  let size := s.output.size - s.frameStart + bytes.size
  if s.buffer.room s.output.size < bytes.size ∨ s.header.blockLimit < bytes.size then
    .error .corrupt
  else
    match next with
    | .frameEnd =>
      if s.header.contentSize.any (· ≠ size) then .error .corrupt
      else .ok (.contents bytes carried next, stop)
    | _ => .ok (.contents bytes carried next, stop)

def State.history (s : State) : History := ⟨s.output, s.buffer.filling, s.buffer.previous⟩

/-- Reads a block; of a raw one with any bytes only the header. A block without a body is passed
over. -/
def State.readBlock (s : State) (input : ByteArray) : ItemReader := do
  need input s.position BlockHeader.length
  let header := BlockHeader.read input s.position
  let start := s.position + BlockHeader.length
  let next := afterBlock header.isLast
  if header.kind = .reserved ∨ s.header.blockLimit < header.bodyLength then throw .corrupt
  if header.bodyLength = 0 then return (.contents ByteArray.empty s.carried next, start)
  match header.kind with
  | .raw => return (.rawBlock header.size header.isLast, start)
  | .repeated =>
    need input start 1
    let bytes := (List.replicate header.size (Bytes.byteAt input start)).toByteArray
    s.contents bytes s.carried next (start + 1)
  | _ =>
    need input start header.size
    let stop := start + header.size
    let bounds := ⟨s.header.blockLimit, s.buffer.room s.output.size, true⟩
    match blockContents? s.history s.carried bounds (input.extract start stop) with
    | some (bytes, carried) => s.contents bytes carried next stop
    | none => throw .corrupt

def State.readRaw (s : State) (input : ByteArray) (left : Nat) (isLast : Bool) : ItemReader :=
  let n := min left (input.size - s.position)
  let stop := s.position + n
  if n = 0 then .error .needInput
  else
    let next := if left = n then afterBlock isLast else .raw (left - n) isLast
    s.contents (input.extract s.position stop) s.carried next stop

/-- Reads the end of a frame, where the checksum of the contents may stand. -/
def State.readFrameEnd (s : State) (input : ByteArray) : ItemReader := do
  let length := checksumLength s.header.hasChecksum
  need input s.position length
  let contents := s.output.extract s.frameStart s.output.size
  if checksumMatches input s.position s.header.hasChecksum contents then
    return (.frameEnd, s.position + length)
  else throw .corrupt

/-! ## Frames of older formats -/

def State.readOldStart (s : State) (input : ByteArray) (format : OldFormat) : ItemReader := do
  let (frame, stop) ← OldFrame.read format input s.position
  return (.oldHeader frame, stop)

/-- Waits for the body of a block, `n` bytes from byte `start` on. A body that does not arrive
in one piece is collected in a buffer. -/
def awaitOldBody (turn : Turn) (start n bufferSize : Nat) : Except Stall Unit :=
  if start + n ≤ turn.input.size then .ok ()
  else if turn.pieceStart ≤ start ∧ start < turn.input.size ∧ bufferSize < n then .error .corrupt
  else .error .needInput

/-- Reads a block of a frame of an older format. A byte that is repeated is refused. -/
def State.readOldBlock (s : State) (turn : Turn) (frame : OldFrame) : ItemReader := do
  let input := turn.input
  need input s.position BlockHeader.length
  let header := OldBlockHeader.read input s.position
  let start := s.position + BlockHeader.length
  if header.kind = .frameEnd then
    let contents := s.output.extract s.frameStart s.output.size
    if frame.checksumMatches input s.position contents then return (.frameEnd, start)
    else throw .corrupt
  if header.size = 0 then return (.frameEnd, start)
  awaitOldBody turn start header.size ((s.oldAllocation.map (·.input)).getD 0)
  let stop := start + header.size
  match header.kind with
  | .raw =>
    if s.buffer.room s.output.size < header.size then throw .corrupt
    return (.contents (input.extract start stop) s.carried (.oldBlock frame), stop)
  | .compressed =>
    let room := s.buffer.room s.output.size
    match oldBlockContents? frame.format s.history s.carried room (input.extract start stop) with
    | some (bytes, carried) => return (.contents bytes carried (.oldBlock frame), stop)
    | none => throw .corrupt
  | _ => throw .corrupt

/-! ## Steps -/

def State.read (s : State) (turn : Turn) : ItemReader :=
  match s.phase with
  | .frameStart => s.readFrameStart turn
  | .blockStart => s.readBlock turn.input
  | .raw left isLast => s.readRaw turn.input left isLast
  | .frameEnd => s.readFrameEnd turn.input
  | .oldStart format => s.readOldStart turn.input format
  | .oldBlock frame => s.readOldBlock turn frame

/-- The state after an item that ends at byte `stop`. -/
def State.apply (item : Item) (stop : Nat) (s : State) : State :=
  match item with
  | .header header =>
    let start := s.output.size
    let allocation := s.allocation.fit header
    { s with
      position := stop
      frameStart := start
      phase := .blockStart
      header := header
      carried := .start
      buffer := .forFrame allocation.output header start
      allocation := allocation }
  | .oldFormat format => { s with position := stop, phase := .oldStart format }
  | .oldHeader frame =>
    let start := s.output.size
    let allocation := OldAllocation.fit s.oldAllocation frame
    { s with
      position := stop
      frameStart := start
      phase := .oldBlock frame
      carried := .start
      buffer := .forOldFrame allocation.output frame start
      oldAllocation := some allocation }
  | .skipped size => { s with position := stop, allocation := s.allocation.fitSkippable size }
  | .whole contents => { s with position := stop, output := s.output ++ contents }
  | .rawBlock size isLast => { s with position := stop, phase := .raw size isLast }
  | .contents bytes carried next =>
    let ⟨_, output, frameStart, _, header, _, buffer, allocation, oldAllocation⟩ := s
    let output := output ++ bytes
    let buffer := if bytes.isEmpty then buffer else buffer.advance output.size
    ⟨stop, output, frameStart, next, header, carried, buffer, allocation, oldAllocation⟩
  | .frameEnd => { s with position := stop, phase := .frameStart }

def Item.endsFrame : Item → Bool
  | .skipped _ => true
  | .whole _ => true
  | .frameEnd => true
  | _ => false

end RiscvMachine.Compression.Zstd
