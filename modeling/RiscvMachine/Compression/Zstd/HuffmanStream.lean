import RiscvMachine.Compression.Zstd.BitWindow
import RiscvMachine.Compression.Zstd.Huffman

set_option autoImplicit false

/-! # Streams in a Huffman code

Decoding of the one or four streams that hold the literals of a block. A decoder looks up a fixed
number of bits in the table and finds one word, or two if the table is paired.

A stream should hold exactly the bytes that it is decoded to. This is checked, but not of four
streams that are long enough for decoding side by side: there a stream may have bits left, or go
on into the stream before it. The statement of the rule is `decodeFour?`.
-/

namespace RiscvMachine.Compression.Zstd

namespace HuffmanTable

/-- The byte whose word starts the given `lookWidth` bits, and the length of the word. -/
def cellFor (table : HuffmanTable) (bits : Nat) : UInt8 × Nat :=
  table.cells[bits >>> (table.lookWidth - table.log)]?.getD (0, 0)

/-- What one look finds: one byte or two, and the length of their words. -/
structure Found where
  first : UInt8
  second : Option UInt8
  length : Nat

def find (table : HuffmanTable) (bits : Nat) : Found :=
  let (first, length) := table.cellFor bits
  if !table.paired then ⟨first, none, length⟩
  else
    let (second, more) := table.cellFor ((bits <<< length) % (1 <<< table.lookWidth))
    if length + more ≤ table.lookWidth then ⟨first, some second, length + more⟩
    else ⟨first, none, length⟩

end HuffmanTable

/-- A stream that is being decoded: the window on it, and the bytes found so far. -/
structure HuffmanStream where
  window : BitWindow
  out : ByteArray

namespace HuffmanStream

def new (window : BitWindow) : HuffmanStream := ⟨window, ByteArray.empty⟩

def look (table : HuffmanTable) : HuffmanStream → HuffmanStream := fun ⟨window, out⟩ =>
  let found := table.find (window.peek table.lookWidth)
  let out := out.push found.first
  let out := match found.second with
    | some byte => out.push byte
    | none => out
  ⟨window.drop found.length, out⟩

def looks (table : HuffmanTable) : Nat → HuffmanStream → HuffmanStream
  | 0, s => s
  | n + 1, s => looks table n (s.look table)

/-- Moves the window down as far as it may and tells whether it could go all the way. -/
def refill : HuffmanStream → HuffmanStream × Bool := fun ⟨window, out⟩ =>
  let (window, went) := window.refill
  (⟨window, out⟩, went)

/-- How many looks are made between two refills, and the most bytes that they find. -/
def burst (table : HuffmanTable) : Nat × Nat :=
  if !table.paired then (4, 4)
  else if table.lookWidth = HuffmanTable.minLookWidth then (5, 10)
  else (4, 8)

/-- Decodes in bursts until the window cannot go on or a burst could find more than is wanted of
`size` bytes. -/
def decodeInBursts (table : HuffmanTable) (size : Nat) : Nat → HuffmanStream → HuffmanStream
  | 0, s => s
  | fuel + 1, s =>
    let (s, went) := s.refill
    let (count, most) := burst table
    if went ∧ s.out.size + most ≤ size then decodeInBursts table size fuel (s.looks table count)
    else s

/-- Decodes with a refill before each look until the window cannot go on or two bytes are more
than is wanted. -/
def decodeRefilling (table : HuffmanTable) (size : Nat) : Nat → HuffmanStream → HuffmanStream
  | 0, s => s
  | fuel + 1, s =>
    if size < s.out.size + 2 then s
    else
      let (s, went) := s.refill
      if went then decodeRefilling table size fuel (s.look table) else s

/-- Decodes without refills until `most` bytes are more than is wanted. -/
def decodeRest (table : HuffmanTable) (size most : Nat) : Nat → HuffmanStream → HuffmanStream
  | 0, s => s
  | fuel + 1, s =>
    if size < s.out.size + most then s
    else decodeRest table size most fuel (s.look table)

/-- The last look of a paired table, of which only the first byte is wanted. How many of the bits
belong to it is not known then, so they are taken as far as there are any. -/
def lookLast (table : HuffmanTable) : HuffmanStream → HuffmanStream := fun ⟨window, out⟩ =>
  let found := table.find (window.peek table.lookWidth)
  let window :=
    if found.second.isNone then window.drop found.length
    else if window.taken < 64 then window.drop (min found.length (64 - window.taken))
    else window
  ⟨window, out.push found.first⟩

def decode (table : HuffmanTable) (size : Nat) (s : HuffmanStream) : HuffmanStream :=
  let s := decodeInBursts table size (size + 1) s
  if !table.paired then decodeRest table size 1 (size + 1) s
  else
    let s := decodeRefilling table size (size + 1) s
    let s := decodeRest table size 2 (size + 1) s
    if s.out.size < size then s.lookLast table else s

/-- The contents of the stream of `length` bytes from `start` on, which must be exactly `size`
bytes. -/
def decodeExactly? (table : HuffmanTable) (size : Nat) (bytes : ByteArray)
    (start length : Nat) : Option ByteArray := do
  let ⟨window, out⟩ := decode table size (.new (← BitWindow.ofStream? bytes start length))
  if window.isUsedUp then some out else none

/-! ## Side by side -/

/-- Five looks, and the window moved down to match. -/
def stride (table : HuffmanTable) (s : HuffmanStream) : HuffmanStream :=
  let ⟨window, out⟩ := s.looks table 5
  ⟨window.slide, out⟩

/-- Strides of all streams until the last of them has `goal` bytes. -/
def strideTo (table : HuffmanTable) (goal : Nat) :
    Nat → List HuffmanStream → List HuffmanStream
  | 0, streams => streams
  | fuel + 1, streams =>
    if streams.getLast?.all (goal ≤ ·.out.size) then streams
    else strideTo table goal fuel (streams.map (stride table))

/-- How many strides are safe: each takes at most seven bytes of the first stream, and finds five
bytes, or up to ten in a paired table. Streams that find equally many bytes at a time are limited
by the last, which is the shortest. -/
def safeStrides (table : HuffmanTable) (sizes : List Nat) (streams : List HuffmanStream) : Nat :=
  let rooms := (sizes.zip streams).map fun (size, s) => size - s.out.size
  let byInput := ((streams.head?.map (·.window.position)).getD 0) / 7
  if table.paired then rooms.foldl (fun least room => min least (room / 10)) byInput
  else min byInput (rooms.getLast?.getD 0 / 5)

/-- Whether the windows stand in the order of the streams. -/
def areInOrder : List HuffmanStream → Bool
  | first :: second :: rest =>
    first.window.position ≤ second.window.position && areInOrder (second :: rest)
  | _ => true

/-- Decodes side by side as long as that is safe and no window has passed that of the stream
before. -/
def decodeSideBySide (table : HuffmanTable) (sizes : List Nat) :
    Nat → List HuffmanStream → List HuffmanStream
  | 0, streams => streams
  | fuel + 1, streams =>
    let strides := safeStrides table sizes streams
    if strides = 0 ∨ !areInOrder streams then streams
    else
      let goal := ((streams.getLast?.map (·.out.size)).getD 0) + 5 * strides
      decodeSideBySide table sizes fuel (strideTo table goal strides streams)

/-- Decodes the rest of a stream that starts at byte `start`. It must not have been read by more
than a window beyond its start; what is read from now on may be bits of the streams before. -/
def finish? (table : HuffmanTable) (start size : Nat) (s : HuffmanStream) : Option ByteArray :=
  if s.window.position + 8 < start then none else some (decode table size s).out

end HuffmanStream

namespace HuffmanTable

/-- Where each of four streams starts and stops, and how many bytes it is decoded to. -/
structure Span where
  start : Nat
  stop : Nat
  size : Nat

/-- The four streams that hold `n` bytes. The lengths of the first three stand in front; these
streams hold equally many bytes, and the last one the rest. -/
def spans (n : Nat) (input : ByteArray) : List Span :=
  let first := 6 + Bytes.littleEndianAt input 0 2
  let second := first + Bytes.littleEndianAt input 2 2
  let third := second + Bytes.littleEndianAt input 4 2
  let part := (n + 3) / 4
  [⟨6, first, part⟩, ⟨first, second, part⟩, ⟨second, third, part⟩,
    ⟨third, input.size, n - 3 * part⟩]

/-- Whether streams are decoded side by side: a look must take in as few bits as it can, each
stream must fill a window, and the last one must hold something. -/
def goSideBySide (table : HuffmanTable) (spans : List Span) : Bool :=
  table.lookWidth = minLookWidth &&
    spans.all fun span => span.start + 8 ≤ span.stop && 0 < span.size

def decodeSideBySide? (table : HuffmanTable) (input : ByteArray) (spans : List Span) :
    Option ByteArray := do
  let streams := spans.map fun span =>
    let mark := BitWindow.markLength (Bytes.byteAt input (span.stop - 1))
    HuffmanStream.new (.place input 0 (span.stop - 8) mark)
  let sizes := spans.map Span.size
  let streams := HuffmanStream.decodeSideBySide table sizes (sizes.foldl max 0) streams
  let parts ← (spans.zip streams).mapM fun (span, s) => s.finish? table span.start span.size
  return parts.foldl (· ++ ·) ByteArray.empty

/-- Decodes streams that must hold exactly their bytes, one after the other. -/
def decodeInTurn? (table : HuffmanTable) (input : ByteArray) (spans : List Span) :
    Option ByteArray := do
  let parts ← spans.mapM fun span =>
    HuffmanStream.decodeExactly? table span.size input span.start (span.stop - span.start)
  return parts.foldl (· ++ ·) ByteArray.empty

/-- The least number of bytes that four streams take: the three lengths, and one byte each. -/
def minFourSize : Nat := 10

/-- Whether there are four streams, none of which ends before it starts. -/
def areSpans (input : ByteArray) (spans : List Span) : Bool :=
  minFourSize ≤ input.size && spans.all fun span => span.start ≤ span.stop

def decodeFour? (table : HuffmanTable) (n : Nat) (input : ByteArray) : Option ByteArray :=
  let spans := spans n input
  if !areSpans input spans || n < 3 * ((n + 3) / 4) then none
  else if table.goSideBySide spans then table.decodeSideBySide? input spans
  else table.decodeInTurn? input spans

/-! ## Choosing a table -/

/-- What decoding costs in both ways, by how many sixteenths of the decoded size the encoded size
is: for one word and for two words at a time, what it costs to set up the table and what each 256
bytes cost. -/
abbrev Costs := Array (Nat × Nat × Nat × Nat)

def costs : Costs :=
  #[(0, 0, 1, 1), (0, 0, 1, 1), (150, 216, 381, 119), (170, 205, 514, 112),
    (177, 199, 539, 110), (197, 194, 644, 107), (221, 192, 735, 107), (256, 189, 881, 106),
    (359, 188, 1167, 109), (582, 187, 1570, 114), (688, 187, 1712, 122), (825, 186, 1965, 136),
    (976, 185, 2131, 150), (1180, 186, 2070, 175), (1377, 185, 1731, 202),
    (1412, 185, 1695, 202)]

/-- Whether it is cheaper to find two words at a time when `size` bytes are decoded to `n`. A
handicap, a fraction of the cost, speaks for one. -/
def isCheaperPaired (costs : Costs) (handicap n size : Nat) : Bool :=
  let (single, singleEach, paired, pairedEach) :=
    costs[if n ≤ size then 15 else size * 16 / n]?.getD (0, 0, 0, 0)
  let cost := paired + pairedEach * (n / 256)
  cost + cost / handicap < single + singleEach * (n / 256)

end HuffmanTable

end RiscvMachine.Compression.Zstd
