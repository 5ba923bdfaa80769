import RiscvMachine.Compression.Zstd.HuffmanStream

set_option autoImplicit false

/-! # The literals of a block

A compressed block starts with the bytes that its sequences copy to the output: as they are, as
one byte repeated, or in the Huffman code of this block or of an earlier one.
-/

namespace RiscvMachine.Compression.Zstd

/-- The literals of a block, the code for later blocks, and the byte behind the section. -/
structure Literals where
  bytes : ByteArray
  table : Option HuffmanTable
  stop : Nat
  /-- Whether they are used where they stand in the block. -/
  inPlace : Bool

namespace Literals

inductive Form
  | raw
  | repeated
  /-- In a Huffman code, which stands in front or is that of an earlier block. -/
  | coded (streams size : Nat) (ownTable : Bool)

structure Header where
  form : Form
  /-- How many literals there are. -/
  count : Nat
  /-- How many bytes the header takes. -/
  length : Nat

/-- The least number of literals that are spread over four streams. -/
def leastForFourStreams : Nat := 6

def plainHeader (input : ByteArray) (form : Form) (sizeFormat : Nat) : Header :=
  match sizeFormat with
  | 1 => ⟨form, Bytes.littleEndianAt input 0 2 / 16, 2⟩
  | 3 => ⟨form, Bytes.littleEndianAt input 0 3 / 16, 3⟩
  | _ => ⟨form, Bytes.littleEndianAt input 0 1 / 8, 1⟩

/-- The header of literals in a code. Two sizes follow the format, of equally many bits. -/
def codedHeader (input : ByteArray) (ownTable : Bool) (sizeFormat : Nat) : Header :=
  let streams := if sizeFormat = 0 then 1 else 4
  let (width, length) :=
    match sizeFormat with
    | 2 => (14, 4)
    | 3 => (18, 5)
    | _ => (10, 3)
  ⟨.coded streams (bitsAt input (4 + width) width) ownTable, bitsAt input 4 width, length⟩

def header (input : ByteArray) : Header :=
  let sizeFormat := bitsAt input 2 2
  match bitsAt input 0 2 with
  | 0 => plainHeader input .raw sizeFormat
  | 1 => plainHeader input .repeated sizeFormat
  | 2 => codedHeader input true sizeFormat
  | _ => codedHeader input false sizeFormat

def decodeCoded? (table : HuffmanTable) (streams count : Nat) (input : ByteArray) :
    Option ByteArray :=
  if streams = 1 then HuffmanStream.decodeExactly? table count input 0 input.size
  else if count < leastForFourStreams then none
  else table.decodeFour? count input

/-- How many bytes literals that are used in place need behind them. -/
def overlength : Nat := 32

/-- Reads the section at the start of the input. `earlier` is the code of the blocks before,
and `limit` the most literals that there may be. Literals that bring along a code for four
streams choose whether its table is paired. -/
def read? (input : ByteArray) (earlier : Option HuffmanTable) (limit : Nat) :
    Option Literals := do
  let ⟨form, count, length⟩ := header input
  if limit < count then none
  match form with
  | .raw =>
    if input.size < length + count then none
    let stop := length + count
    some ⟨input.extract length stop, earlier, stop, stop + overlength ≤ input.size⟩
  | .repeated =>
    if input.size < length + 1 then none
    let byte := Bytes.byteAt input length
    some ⟨(List.replicate count byte).toByteArray, earlier, length + 1, false⟩
  | .coded streams size ownTable =>
    let stop := length + size
    if input.size < 5 ∨ input.size < stop then none
    let body := input.extract length stop
    let (table, start) ←
      if ownTable then
        let (table, start) ← HuffmanTable.read? body
        let paired := HuffmanTable.isCheaperPaired HuffmanTable.costs 32 count size
        pure ({ table with paired := streams ≠ 1 && paired }, start)
      else earlier.map (·, 0)
    let bytes ← decodeCoded? table streams count (body.extract start body.size)
    some ⟨bytes, some table, stop, false⟩

end Literals

end RiscvMachine.Compression.Zstd
