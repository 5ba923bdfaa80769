import RiscvMachine.Compression.Zstd.Fse

set_option autoImplicit false

/-! # Huffman tables

The code for the literals of zstd blocks. It is given by a weight for each byte; a byte of
weight `w` has a word of `log + 1 - w` bits, and one of weight zero has none. The weight of the
last byte is not written, because the words have to use up the code.
-/

namespace RiscvMachine.Compression.Zstd

/-- A code: for each sequence of `log` bits, the byte whose word starts it and the length of
that word. -/
structure HuffmanTable where
  log : Nat
  cells : Array (UInt8 × Nat)
  /-- How many bits one look takes in. -/
  lookWidth : Nat
  /-- Whether one look finds two words if both fit in. -/
  paired : Bool

namespace HuffmanTable

def maxLog : Nat := 12

/-- The least number of bits that one look takes in. -/
def minLookWidth : Nat := 11

def maxWeights : Nat := 255

/-- The bytes of the given weight with the length of their words, each as often as its word
starts a sequence of `log` bits. -/
def cellsOfWeight (log : Nat) (weights : List Nat) (weight : Nat) : List (UInt8 × Nat) :=
  (weights.zipIdx.filter fun entry => entry.1 == weight).flatMap fun (_, byte) =>
    List.replicate (1 <<< (weight - 1)) (UInt8.ofNat byte, log + 1 - weight)

/-- The share of the code that a word of the given weight takes. -/
def share (weight : Nat) : Nat := (1 <<< weight) / 2

/-- The code with the given weights, to which that of the last byte is added. Its words have
at most `longest` bits. -/
def ofWeights? (longest : Nat) (weights : List Nat) : Option HuffmanTable := do
  let total := weights.foldl (fun total weight => total + share weight) 0
  if total = 0 ∨ weights.any (longest < ·) then none
  let log := total.log2 + 1
  let rest := (1 <<< log) - total
  if longest < log ∨ rest ≠ 1 <<< rest.log2 then none
  let weights := weights ++ [rest.log2 + 1]
  let lightest := weights.count 1
  if lightest < 2 ∨ lightest % 2 = 1 then none
  let cells := ((List.range' 1 log).flatMap (cellsOfWeight log weights)).toArray
  some ⟨log, cells, max log minLookWidth, false⟩

/-! ## Reading a table -/

/-- Reads weights with two decoders in turn until the stream has been overrun, last first. The
stream ends with the symbol of the decoder whose turn would come next. -/
def readWeights (table : FseTable) :
    Nat → (state other : Nat) → BackwardBits → List Nat → Option (List Nat)
  | 0, _, _, _, _ => none
  | fuel + 1, state, other, bits, before =>
    if maxWeights < before.length + 2 then none
    else
      let before := (table.cellAt state).symbol :: before
      let (state, bits) := table.next state bits
      if bits.overrun then some ((table.cellAt other).symbol :: before)
      else readWeights table fuel other state bits before

/-- The weights that the bytes spell as a table and a stream. -/
def compressedWeights? (input : ByteArray) : Option (List Nat) := do
  let (table, start) ← FseTable.read? input 0 256 6
  let bits ← BackwardBits.ofBytes? (input.extract start input.size)
  let (first, bits) := table.start bits
  let (second, bits) := table.start bits
  let weights ← readWeights table (maxWeights + 1) first second bits []
  some weights.reverse

/-- The first `n` weights of four bits each, the upper half of a byte first. -/
def plainWeights (input : ByteArray) (start n : Nat) : List Nat :=
  (List.range n).map fun k =>
    let byte := (Bytes.byteAt input (start + k / 2)).toNat
    if k % 2 = 0 then byte / 16 else byte % 16

/-- Reads weights from the start of the input: the weights and the byte behind them. Those that
do not stand there plainly are left to `compressed?`. -/
def readWeightList? (compressed? : ByteArray → Option (List Nat)) (input : ByteArray) :
    Option (List Nat × Nat) :=
  let size := (Bytes.byteAt input 0).toNat
  if input.isEmpty then none
  else if size < 128 then
    if input.size < 1 + size then none
    else (compressed? (input.extract 1 (1 + size))).map (·, 1 + size)
  else
    let count := size - 127
    let stop := 1 + (count + 1) / 2
    if input.size < stop then none else some (plainWeights input 1 count, stop)

def read? (input : ByteArray) : Option (HuffmanTable × Nat) := do
  let (weights, stop) ← readWeightList? compressedWeights? input
  some (← ofWeights? maxLog weights, stop)

end HuffmanTable

end RiscvMachine.Compression.Zstd
