import RiscvMachine.Compression.Zstd.Literals
import RiscvMachine.Compression.Zstd.Sequences

set_option autoImplicit false

/-! # Compressed blocks

The contents of a compressed block are put together from its literals and from stretches of the
output so far. Blocks of one frame share tables and the three latest distances.
-/

namespace RiscvMachine.Compression.Zstd

/-- The three latest distances, latest first. -/
structure Distances where
  first : Nat
  second : Nat
  third : Nat

namespace Distances

def start : Distances := ⟨1, 4, 8⟩

/-- The distances after one of the given offset value; the latest is the one to use. Without
literals in between, the values 1 to 3 name the second, the third, and one less than the
first. -/
def use (d : Distances) (offset : Nat) (anyLiterals : Bool) : Distances :=
  if 3 < offset then ⟨offset - 3, d.first, d.second⟩
  else
    match offset + (if anyLiterals then 0 else 1) with
    | 1 => d
    | 2 => ⟨d.second, d.first, d.third⟩
    | 3 => ⟨d.third, d.first, d.second⟩
    | _ => ⟨d.first - 1, d.first, d.second⟩

end Distances

/-- What the blocks of a frame leave to later ones. -/
structure Carried where
  huffman : Option HuffmanTable
  tables : Option SequenceTables
  distances : Distances

def Carried.start : Carried := ⟨none, none, .start⟩

/-- The output before a block. It is written into a buffer that is filled from its start again
and again; what the present filling has not yet overwritten is left of the one before. -/
structure History where
  output : ByteArray
  /-- Where in the output the present filling starts. -/
  filling : Nat
  /-- Where the filling before it starts. -/
  previous : Nat

structure BlockBounds where
  /-- The most bytes that the block may take, and the most literals that it may have. -/
  limit : Nat
  /-- How many bytes there is room for. -/
  room : Nat
  /-- Whether the frame is decoded block by block. -/
  streamed : Bool

namespace BlockBounds

/-- How many literals there may be. -/
def literalLimit (bounds : BlockBounds) : Nat := min bounds.limit bounds.room

/-- The most bytes of a block with the given literals. In a frame that is decoded as a whole,
the literals are kept behind the block if there is enough room, and the block must not reach
them. -/
def outputLimit (bounds : BlockBounds) (literals : Literals) : Nat :=
  let margin := Literals.overlength
  if !bounds.streamed ∧ !literals.inPlace ∧
      bounds.limit + literals.bytes.size + 2 * margin < bounds.room then bounds.limit + margin
  else bounds.room

end BlockBounds

/-- What decides how sequences are carried out. -/
structure CopyRules where
  /-- The most bytes of the block. -/
  limit : Nat
  /-- How many of them must be left behind the literals of a sequence. -/
  margin : Nat
  /-- The distances after one of the given offset value. -/
  use : Distances → (offset : Nat) → (anyLiterals : Bool) → Distances

/-- A block that is being put together: its bytes, how many literals are used, and the
distances. -/
structure Assembly where
  block : ByteArray
  used : Nat
  distances : Distances

namespace Assembly

/-- The byte at an index of the output that goes on with a block. -/
def byteAt (history : History) (block : ByteArray) (i : Nat) : UInt8 :=
  let size := history.output.size
  if i < size then Bytes.byteAt history.output i else Bytes.byteAt block (i - size)

/-- The block with `n` more bytes, each the one `distance` bytes before it. Of the filling before
the present one, the first `written` bytes have been overwritten by those of the present one. -/
def repeatBytes (history : History) (written distance : Nat) : Nat → ByteArray → ByteArray
  | 0, block => block
  | n + 1, block =>
    let i := history.output.size + block.size - distance
    let i :=
      if i < history.filling ∧ i < history.previous + written then
        history.filling + (i - history.previous)
      else i
    repeatBytes history written distance n (block.push (byteAt history block i))

/-- Whether the rules allow a sequence behind so many bytes of the block. -/
def allows (rules : CopyRules) (s : Sequence) (size : Nat) : Bool :=
  size + s.literals + rules.margin ≤ rules.limit &&
    size + s.literals + s.copied ≤ rules.limit

/-- Carries out the sequences; fails if one needs more literals than there are, reaches back
too far, or is not allowed. -/
def carryOut (history : History) (literals : ByteArray) (rules : CopyRules) :
    List Sequence → Assembly → Option Assembly
  | [], a => some a
  | s :: rest, ⟨block, used, distances⟩ =>
    let distances := rules.use distances s.offset (0 < s.literals)
    let distance := distances.first
    let reach := history.output.size - history.previous + block.size + s.literals
    if literals.size < used + s.literals ∨ !allows rules s block.size ∨ distance = 0 ∨
        reach < distance then none
    else
      let block := block ++ literals.extract used (used + s.literals)
      let written := history.output.size - history.filling + block.size
      let block := repeatBytes history written distance s.copied block
      carryOut history literals rules rest ⟨block, used + s.literals, distances⟩

end Assembly

/-- The block of the given literals and sequences, and the distances after it. Literals that no
sequence uses stand at the end. -/
def assemble? (history : History) (rules : CopyRules) (literals : ByteArray)
    (sequences : List Sequence) (distances : Distances) : Option (ByteArray × Distances) := do
  let ⟨block, used, distances⟩ ←
    Assembly.carryOut history literals rules sequences ⟨ByteArray.empty, 0, distances⟩
  let block := block ++ literals.extract used literals.size
  if rules.limit < block.size then none else some (block, distances)

/-- The contents of a compressed block, and what it leaves to later blocks. -/
def blockContents? (history : History) (carried : Carried) (bounds : BlockBounds)
    (input : ByteArray) : Option (ByteArray × Carried) := do
  if input.size < 2 ∨ bounds.limit < input.size then none
  let literals ← Literals.read? input carried.huffman bounds.literalLimit
  let (sequences, tables) ← Sequence.readSection? input literals.stop carried.tables
  if bounds.room = 0 ∧ !sequences.isEmpty then none
  let rules := ⟨bounds.outputLimit literals, 0, .use⟩
  let (block, distances) ←
    assemble? history rules literals.bytes sequences carried.distances
  some (block, ⟨literals.table, tables, distances⟩)

end RiscvMachine.Compression.Zstd
