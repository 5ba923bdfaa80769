import RiscvMachine.Compression.Bits

set_option autoImplicit false

/-! # Prefix codes

The codes of the deflate format. A code is given by the lengths of its words; words of one
length are consecutive numbers in the order of their symbols, and shorter words come first.
-/

namespace RiscvMachine.Compression.Deflate

def maxLength : Nat := 15

/-- A code: how many words there are of each length from one up to the longest, and the symbols
in the order of their words. -/
structure Code where
  counts : List Nat
  symbols : Array Nat

namespace Code

/-- The symbols whose words have the given length, in order. -/
def symbolsOfLength (lengths : List Nat) (length : Nat) : List Nat :=
  (lengths.zipIdx.filter fun entry => entry.1 == length).map Prod.snd

/-- The code with the given word length for each symbol; zero marks a symbol without a word.
A code without words counts as one of words of one bit. -/
def ofLengths (lengths : List Nat) : Code where
  counts := (List.range' 1 (lengths.foldl max 1)).map fun length => lengths.count length
  symbols := ((List.range' 1 maxLength).flatMap (symbolsOfLength lengths)).toArray

/-- How many words of the greatest length the words of the code stand for. -/
def coverage (counts : List Nat) : Nat :=
  counts.foldl (fun total count => 2 * total + count) 0

/-- Whether every sequence of bits starts with exactly one word. -/
def isComplete (code : Code) : Bool :=
  coverage code.counts == 1 <<< code.counts.length

/-- Whether the code can be used for symbols: it is complete, or has no word but one of one bit
at most. -/
def isUsable (code : Code) : Bool :=
  code.isComplete || code.counts == [code.symbols.size]

/-- Reads the rest of a word. So far `word` has been read, the words of the present length
start at `first`, and their symbols at `index`. -/
def walk (symbols : Array Nat) : List Nat → (word first index : Nat) → BitReader Nat
  | [], _, _, _ => BitReader.corrupt
  | count :: rest, word, first, index => do
    let word := 2 * word + (← BitReader.take 1)
    let first := 2 * first
    if word < first + count then
      match symbols[index + (word - first)]? with
      | some symbol => return symbol
      | none => BitReader.corrupt
    else walk symbols rest word (first + count) (index + count)

def decode (code : Code) : BitReader Nat :=
  walk code.symbols code.counts 0 0 0

end Code

end RiscvMachine.Compression.Deflate
