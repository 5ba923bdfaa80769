import RiscvMachine.Compression.Deflate.Code

set_option autoImplicit false

/-! # Inflating

Decoding of the deflate format step by step. A step reads one block header, one stretch of
stored bytes, or one symbol with its match; it either changes the state or leaves it as it is
and tells what is missing. So the input may arrive in pieces.

Matches may reach back 32 KiB. Where they reach back before the first byte, they find zeros.
-/

namespace RiscvMachine.Compression.Deflate

inductive Phase
  | blockStart
  /-- In a stored block with so many bytes left. -/
  | stored (left : Nat)
  /-- In a compressed block with its codes for literals and lengths and for distances. -/
  | coded (literals distances : Code)
  | finished

/-- The state of decoding: the position in the input in bits, all output so far, and whether
the present block is the last. -/
structure State where
  position : Nat
  output : ByteArray
  phase : Phase
  lastBlock : Bool

/-- The state at the start of a stream at the given byte of the input. -/
def State.start (offset : Nat) : State :=
  ⟨8 * offset, ByteArray.empty, .blockStart, false⟩

def windowSize : Nat := 32768

/-! ## Block headers -/

/-- The order in which the lengths of the code for lengths are written. -/
def lengthOrder : List Nat :=
  [16, 17, 18, 0, 8, 7, 9, 6, 10, 5, 11, 4, 12, 3, 13, 2, 14, 1, 15]

def fixedLiterals : Code :=
  .ofLengths (List.replicate 144 8 ++ List.replicate 112 9 ++ List.replicate 24 7 ++
    List.replicate 8 8)

def fixedDistances : Code :=
  .ofLengths (List.replicate 32 5)

def readTriples : Nat → BitReader (List Nat)
  | 0 => return []
  | n + 1 => do
    let first ← BitReader.take 3
    return first :: (← readTriples n)

/-- The lengths that a repetition symbol appends, given the lengths before it, last first. -/
def repeated (symbol : Nat) (before : List Nat) : BitReader (List Nat) := do
  if symbol < 16 then return [symbol]
  else if symbol = 16 then
    match before with
    | [] => BitReader.corrupt
    | last :: _ => return List.replicate (3 + (← BitReader.take 2)) last
  else if symbol = 17 then return List.replicate (3 + (← BitReader.take 3)) 0
  else return List.replicate (11 + (← BitReader.take 7)) 0

/-- Reads word lengths until there are `total`, last first; `fuel` bounds the symbols. -/
def readLengths (code : Code) (total : Nat) : Nat → List Nat → BitReader (List Nat)
  | 0, before => if before.length = total then return before else BitReader.corrupt
  | fuel + 1, before => do
    if before.length = total then return before
    if total < before.length then BitReader.corrupt
    let symbol ← code.decode
    let more ← repeated symbol before
    readLengths code total fuel (more ++ before)

/-- Reads the codes of a block that brings its own. -/
def readCodes : BitReader Phase := do
  let literalCount := 257 + (← BitReader.take 5)
  let distanceCount := 1 + (← BitReader.take 5)
  let lengthCount := 4 + (← BitReader.take 4)
  if 286 < literalCount ∨ 30 < distanceCount then BitReader.corrupt
  let triples ← readTriples lengthCount
  let written := lengthOrder.zip triples
  let lengthCode := Code.ofLengths ((List.range 19).map fun i => (written.lookup i).getD 0)
  if !lengthCode.isComplete then BitReader.corrupt
  let total := literalCount + distanceCount
  let lengths := (← readLengths lengthCode total total []).reverse
  let literals := Code.ofLengths (lengths.take literalCount)
  let distances := Code.ofLengths (lengths.drop literalCount)
  if !literals.isUsable || !distances.isUsable then BitReader.corrupt
  return .coded literals distances

/-- Reads the length of a stored block, which is written twice, once inverted. -/
def readStoredLength : BitReader Phase := do
  BitReader.alignToByte
  let length ← BitReader.take 16
  let inverse ← BitReader.take 16
  if length + inverse = 0xFFFF then return .stored length else BitReader.corrupt

/-- Reads a block header: whether the block is the last, and how it starts. -/
def readBlockHeader : BitReader (Bool × Phase) := do
  let last := (← BitReader.take 1) = 1
  match ← BitReader.take 2 with
  | 0 => return (last, ← readStoredLength)
  | 1 => return (last, .coded fixedLiterals fixedDistances)
  | 2 => return (last, ← readCodes)
  | _ => BitReader.corrupt

/-! ## Block contents -/

/-- The smallest length and the number of extra bits of each length symbol from 257 on. -/
def lengthTable : Array (Nat × Nat) :=
  #[(3, 0), (4, 0), (5, 0), (6, 0), (7, 0), (8, 0), (9, 0), (10, 0), (11, 1), (13, 1), (15, 1),
    (17, 1), (19, 2), (23, 2), (27, 2), (31, 2), (35, 3), (43, 3), (51, 3), (59, 3), (67, 4),
    (83, 4), (99, 4), (115, 4), (131, 5), (163, 5), (195, 5), (227, 5), (258, 0)]

/-- The smallest distance and the number of extra bits of each distance symbol. -/
def distanceTable : Array (Nat × Nat) :=
  #[(1, 0), (2, 0), (3, 0), (4, 0), (5, 1), (7, 1), (9, 2), (13, 2), (17, 3), (25, 3), (33, 4),
    (49, 4), (65, 5), (97, 5), (129, 6), (193, 6), (257, 7), (385, 7), (513, 8), (769, 8),
    (1025, 9), (1537, 9), (2049, 10), (3073, 10), (4097, 11), (6145, 11), (8193, 12),
    (12289, 12), (16385, 13), (24577, 13)]

def readExtra (table : Array (Nat × Nat)) (index : Nat) : BitReader Nat := do
  match table[index]? with
  | some (base, extra) => return base + (← BitReader.take extra)
  | none => BitReader.corrupt

inductive Symbol
  | literal (byte : UInt8)
  | copy (length distance : Nat)
  | endOfBlock

def readSymbol (literals distances : Code) : BitReader Symbol := do
  let symbol ← literals.decode
  if symbol < 256 then return .literal (UInt8.ofNat symbol)
  else if symbol = 256 then return .endOfBlock
  else
    let length ← readExtra lengthTable (symbol - 257)
    let distance ← readExtra distanceTable (← distances.decode)
    return .copy length distance

def copyMatch (distance : Nat) : Nat → ByteArray → ByteArray
  | 0, output => output
  | n + 1, output =>
    let byte := if distance ≤ output.size then Bytes.byteAt output (output.size - distance) else 0
    copyMatch distance n (output.push byte)

inductive Item
  /-- A block header: whether the block is the last, and how it starts. -/
  | header (last : Bool) (phase : Phase)
  /-- So many bytes of a stored block. -/
  | bytes (count : Nat)
  | symbol (symbol : Symbol)
  /-- The end of a stored block. -/
  | endOfStored

/-- Runs a bit reader at the position of the state. -/
def State.run {α : Type} (s : State) (input : ByteArray) (reader : BitReader α) :
    Except Stall (α × Nat) :=
  match reader input s.position with
  | .ok value position => .ok (value, position)
  | .error stall _ => .error stall

/-- Reads the next item and tells where it ends. Stored bytes are taken up to the next window
boundary of the output. -/
def State.read (s : State) (input : ByteArray) : Except Stall (Item × Nat) := do
  match s.phase with
  | .finished => throw .corrupt
  | .blockStart =>
    let ((last, phase), position) ← s.run input readBlockHeader
    return (.header last phase, position)
  | .stored left =>
    if left = 0 then return (.endOfStored, s.position)
    let available := input.size - s.position / 8
    let n := min left (min available (windowSize - s.output.size % windowSize))
    if n = 0 then throw .needInput
    return (.bytes n, s.position + 8 * n)
  | .coded literals distances =>
    let (symbol, position) ← s.run input (readSymbol literals distances)
    return (.symbol symbol, position)

def afterBlock (lastBlock : Bool) : Phase :=
  if lastBlock then .finished else .blockStart

/-- The state after an item that ends at `after`. -/
def State.apply (input : ByteArray) (item : Item) (after : Nat) : State → State :=
  fun ⟨position, output, phase, lastBlock⟩ =>
  match item with
  | .header last phase => ⟨after, output, phase, last⟩
  | .bytes n =>
    let left := match phase with
      | .stored left => left - n
      | _ => 0
    ⟨after, output ++ input.extract (position / 8) (after / 8), .stored left, lastBlock⟩
  | .symbol (.literal byte) => ⟨after, output.push byte, phase, lastBlock⟩
  | .symbol (.copy length distance) =>
    ⟨after, copyMatch distance length output, phase, lastBlock⟩
  | .symbol .endOfBlock => ⟨after, output, afterBlock lastBlock, lastBlock⟩
  | .endOfStored => ⟨after, output, afterBlock lastBlock, lastBlock⟩

inductive RoundEnd
  | finished
  | needInput
  | corrupt
  /-- The output has reached a multiple of the window size. -/
  | windowFull
  deriving DecidableEq, Repr

/-- Steps until something ends the round. A step reads a bit or ends a block, so twice as much
fuel as there are bits left is enough. -/
def State.round (input : ByteArray) : Nat → State → State × RoundEnd
  | 0, s => (s, .corrupt)
  | fuel + 1, s =>
    match s.phase with
    | .finished => (s, .finished)
    | _ =>
      match s.read input with
      | .error .needInput => (s, .needInput)
      | .error .corrupt => (s, .corrupt)
      | .ok (item, after) =>
        let windows := s.output.size / windowSize
        let s := s.apply input item after
        if windows < s.output.size / windowSize then (s, .windowFull) else s.round input fuel

end RiscvMachine.Compression.Deflate
