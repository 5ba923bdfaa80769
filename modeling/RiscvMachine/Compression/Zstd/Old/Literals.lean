import RiscvMachine.Compression.Zstd.Literals
import RiscvMachine.Compression.Zstd.Old.Frame

set_option autoImplicit false

/-! # Literals of the older formats

The older formats hold literals in the same ways as the present one, but write the sizes in front
of them differently. Codes may be longer, and their weights can be told to be equal. Streams are
never decoded side by side.
-/

namespace RiscvMachine.Compression.Zstd

namespace HuffmanTable

/-! ## Tables -/

/-- How many equal weights the greatest size bytes stand for. -/
def evenCounts : List Nat := [1, 2, 3, 4, 7, 8, 15, 16, 31, 32, 63, 64, 127, 128]

/-- The least size byte that stands for equal weights. -/
def leastEvenSize : Nat := 242

/-- Reads weights with two decoders in turn until the stream is used up and both decoders are in
their first state, last first. -/
def readWeightsToEnd (table : FseTable) :
    Nat → (state other : Nat) → BackwardBits → List Nat → Option (List Nat)
  | 0, _, _, _, _ => none
  | fuel + 1, state, other, bits, before =>
    if bits.isUsedUp && state = 0 then if other = 0 then some before else none
    else if bits.overrun || maxWeights ≤ before.length then none
    else
      let before := (table.cellAt state).symbol :: before
      let (state, bits) := table.next state bits
      readWeightsToEnd table fuel other state bits before

def oldCompressedWeights? (format : OldFormat) (input : ByteArray) : Option (List Nat) := do
  if input.size < 4 then none
  let (table, start) ← FseTable.read? input 0 256 12
  let bits ← BackwardBits.ofBytes? (input.extract start input.size)
  let (first, bits) := table.start bits
  let (second, bits) := table.start bits
  let read := match format with
    | .four => readWeightsToEnd
    | .five => readWeightsToEnd
    | _ => readWeights
  let weights ← read table (maxWeights + 1) first second bits []
  some weights.reverse

/-- Reads a table from the start of the input: the table and the byte behind it, where streams
must follow. -/
def readOld? (format : OldFormat) (longest : Nat) (input : ByteArray) :
    Option (HuffmanTable × Nat) := do
  let size := (Bytes.byteAt input 0).toNat
  let (weights, stop) ←
    if size < leastEvenSize then readWeightList? (oldCompressedWeights? format) input
    else some (List.replicate (evenCounts.getD (size - leastEvenSize) 0) 1, 1)
  if input.size ≤ stop then none
  some (← ofWeights? longest weights, stop)

def oldCosts : Costs :=
  #[(0, 0, 1, 1), (0, 0, 1, 1), (38, 130, 1313, 74), (448, 128, 1353, 74), (556, 128, 1353, 74),
    (714, 128, 1418, 74), (883, 128, 1437, 74), (897, 128, 1515, 75), (926, 128, 1613, 75),
    (947, 128, 1729, 77), (1107, 128, 2083, 81), (1177, 128, 2379, 87), (1242, 128, 2415, 93),
    (1349, 128, 2644, 106), (1455, 128, 2422, 124), (722, 128, 1891, 145)]

end HuffmanTable

namespace OldFormat

def handicap : OldFormat → Nat
  | .seven => 8
  | _ => 16

/-- The longest word of a code that is decoded one word at a time. -/
def longestWord : OldFormat → Nat
  | .seven => 13
  | _ => 12

end OldFormat

namespace Literals

/-! ## Decoding -/

/-- Decodes literals that are in one stream, with the table in front of it. In the second format
the stream must be shorter than they are. -/
def decodeOneOld? (format : OldFormat) (count : Nat) (input : ByteArray) :
    Option (ByteArray × HuffmanTable) := do
  let (table, start) ← HuffmanTable.readOld? format format.longestWord input
  if format = .five ∧ count ≤ input.size - start then none
  let bytes ← HuffmanStream.decodeExactly? table count input start (input.size - start)
  some (bytes, table)

/-- Decodes literals that are in four streams, with the table in front of them. Of streams that
hold more than is wanted the rest is dropped. -/
def decodeFourOld? (format : OldFormat) (count : Nat) (input : ByteArray) :
    Option (ByteArray × HuffmanTable) := do
  let paired := HuffmanTable.isCheaperPaired HuffmanTable.oldCosts format.handicap count input.size
  let longest := if paired then HuffmanTable.maxLog else format.longestWord
  let (⟨log, cells, width, _⟩, start) ← HuffmanTable.readOld? format longest input
  let table := ⟨log, cells, if paired then HuffmanTable.maxLog else width, paired⟩
  let body := input.extract start input.size
  let spans := HuffmanTable.spans count body
  if !HuffmanTable.areSpans body spans then none
  let bytes ← table.decodeInTurn? body spans
  some (bytes.extract 0 count, table)

/-- Whether literals of the format may take as many bytes as they are, and stand there as they
are. -/
def allowsPlainStreams : OldFormat → Bool
  | .four => true
  | .six => true
  | _ => false

/-- Decodes literals in four streams. A single byte is repeated, but not in the last format. -/
def decodeOldStreams? (format : OldFormat) (count : Nat) (input : ByteArray)
    (earlier : Option HuffmanTable) : Option (ByteArray × Option HuffmanTable) :=
  let size := input.size
  if count = 0 ∨ count < size then none
  else if size = count then if allowsPlainStreams format then some (input, earlier) else none
  else if size = 1 then
    if format = .seven then none
    else some ((List.replicate count (Bytes.byteAt input 0)).toByteArray, earlier)
  else (decodeFourOld? format count input).map fun (bytes, table) => (bytes, some table)

/-! ## Sections -/

/-- The header of a section of the first format, or nothing if there is no such form. -/
def narrowHeader? (input : ByteArray) : Option Header :=
  match bitsAt input 0 2 with
  | 0 => some ⟨.coded 4 (bitsAt input 21 19) true, bitsAt input 2 19, 5⟩
  | 1 => some ⟨.raw, bitsAt input 2 22, 3⟩
  | 2 => some ⟨.repeated, bitsAt input 2 22, 3⟩
  | _ => none

/-- The header of a section of the other formats. It is a number with the upper byte first, of
which the lowest bits hold one size or two. -/
def wideHeader (input : ByteArray) : Header :=
  let sizeFormat := (Bytes.byteAt input 0).toNat / 16 % 4
  let plain (form : Form) : Header :=
    let (width, length) := match sizeFormat with
      | 2 => (12, 2)
      | 3 => (20, 3)
      | _ => (5, 1)
    ⟨form, Bytes.bigEndianAt input 0 length % (1 <<< width), length⟩
  let coded (ownTable : Bool) : Header :=
    let (width, length) := match sizeFormat with
      | 2 => (14, 4)
      | 3 => (18, 5)
      | _ => (10, 3)
    let number := Bytes.bigEndianAt input 0 length
    let size := number % (1 <<< width)
    ⟨.coded (if sizeFormat = 1 then 1 else 4) size ownTable, (number >>> width) % (1 <<< width),
      length⟩
  match (Bytes.byteAt input 0).toNat / 64 with
  | 0 => coded true
  | 1 => coded false
  | 2 => plain .raw
  | _ => plain .repeated

def leastNarrowBlock : Nat := 11

def leastWideBlock : Nat := 3

def oldHeader? (format : OldFormat) (input : ByteArray) : Option Header :=
  if format = .four then
    if input.size < leastNarrowBlock then none else narrowHeader? input
  else if input.size < leastWideBlock then none
  else some (wideHeader input)

/-- Literals that stand in a block as they are. The first format takes those near the end of the
block from its start. -/
def oldRaw (format : OldFormat) (input : ByteArray) (start count : Nat) : ByteArray :=
  if format = .four ∧ input.size < leastNarrowBlock + count then input.extract 0 count
  else input.extract start (start + count)

/-- Decodes literals that are in a code. Only the last format uses a table of an earlier block,
which must be paired, and then there is one stream. -/
def decodeOldCoded? (format : OldFormat) (streams count : Nat) (ownTable : Bool)
    (input : ByteArray) (earlier : Option HuffmanTable) :
    Option (ByteArray × Option HuffmanTable) := do
  if ownTable then
    if streams = 1 then
      let (bytes, table) ← decodeOneOld? format count input
      some (bytes, some table)
    else decodeOldStreams? format count input earlier
  else
    let table ← earlier
    if format ≠ .seven ∨ streams ≠ 1 ∨ !table.paired then none
    some (← HuffmanStream.decodeExactly? table count input 0 input.size, earlier)

def readOld? (format : OldFormat) (input : ByteArray) (earlier : Option HuffmanTable) :
    Option Literals := do
  let ⟨form, count, length⟩ ← oldHeader? format input
  match form with
  | .raw =>
    let stop := length + count
    if input.size < stop then none
    some ⟨oldRaw format input length count, earlier, stop, false⟩
  | .repeated =>
    if input.size < length + 1 ∨ maxBlockSize < count then none
    let bytes := (List.replicate count (Bytes.byteAt input length)).toByteArray
    some ⟨bytes, earlier, length + 1, false⟩
  | .coded streams size ownTable =>
    let stop := length + size
    if input.size < 5 ∨ input.size < stop ∨ maxBlockSize < count then none
    let body := input.extract length stop
    let (bytes, table) ← decodeOldCoded? format streams count ownTable body earlier
    some ⟨bytes, table, stop, false⟩

end Literals

end RiscvMachine.Compression.Zstd
