import RiscvMachine.Compression.Zstd.BackwardBits

set_option autoImplicit false

/-! # Finite state entropy tables

A table has a power of two of cells. The state of a decoder is the number of a cell; the cell
tells the symbol and how many bits lead to the next state. A symbol has as many cells as its
share of the table says, or one cell at the end of the table if its share is less than one.
-/

namespace RiscvMachine.Compression.Zstd

/-- One cell: its symbol, and the next state as a base and a number of bits to add. -/
structure FseCell where
  symbol : Nat
  base : Nat
  bits : Nat
  deriving Inhabited

structure FseTable where
  log : Nat
  cells : Array FseCell

inductive Share
  /-- Less than one cell, which is rounded up to one at the end of the table. -/
  | rare
  | cells (count : Nat)
  deriving DecidableEq, Repr

namespace Share

/-- How many cells a symbol of this share has. -/
def size : Share → Nat
  | rare => 1
  | cells count => count

end Share

namespace FseTable

/-! ## Building a table -/

/-- The cells that are not at the end of the table, in the order in which they are filled. -/
def fillOrder (log common : Nat) : List Nat :=
  let size := 1 <<< log
  let step := size / 2 + size / 8 + 3
  ((List.range size).map fun k => k * step % size).filter (· < common)

/-- The symbols of the common cells in the order in which they are filled. -/
def commonSymbols (shares : List Share) : List Nat :=
  shares.zipIdx.flatMap fun (share, symbol) =>
    match share with
    | .rare => []
    | .cells count => List.replicate count symbol

def rareSymbols (shares : List Share) : List Nat :=
  (shares.zipIdx.filter fun entry => entry.1 == .rare).map Prod.snd

/-- The symbol of each cell. Rare symbols stand at the end, the first of them last. -/
def layout (log : Nat) (shares : List Share) : Array Nat :=
  let rare := rareSymbols shares
  let common := (1 <<< log) - rare.length
  let empty := (List.replicate common 0 ++ rare.reverse).toArray
  ((fillOrder log common).zip (commonSymbols shares)).foldl
    (fun cells (place, symbol) => cells.setIfInBounds place symbol) empty

/-- The cell that is number `rank` among those of its symbol, counted from the share on. -/
def cell (log symbol rank : Nat) : FseCell :=
  let bits := log - rank.log2
  ⟨symbol, (rank <<< bits) - (1 <<< log), bits⟩

/-- Numbers the cells of each symbol from its share on; `ranks` holds the next number of each
symbol. -/
def number (log : Nat) : List Nat → (ranks : Array Nat) → List FseCell
  | [], _ => []
  | symbol :: rest, ranks =>
    let rank := ranks[symbol]?.getD 1
    cell log symbol rank :: number log rest (ranks.setIfInBounds symbol (rank + 1))

def ofShares (log : Nat) (shares : List Share) : FseTable :=
  ⟨log, (number log (layout log shares).toList (shares.map Share.size).toArray).toArray⟩

/-- The table whose one cell stands for the given symbol and takes no bits. -/
def single (symbol : Nat) : FseTable := ⟨0, #[⟨symbol, 0, 0⟩]⟩

/-- The table that spells each symbol in the given number of bits. -/
def plain (bits : Nat) : FseTable :=
  ⟨bits, (Array.range (1 <<< bits)).map fun symbol => ⟨symbol, 0, bits⟩⟩

/-! ## Reading a table -/

/-- Reads a share when `remaining - 1` cells have no symbol yet: the share and the next
position. Small numbers take one bit less than the others. -/
def readShare (input : ByteArray) (position remaining : Nat) : Share × Nat × Nat :=
  let width := remaining.log2
  let half := 1 <<< width
  let short := 2 * half - 1 - remaining
  let value := bitsAt input position (width + 1)
  let (value, used) :=
    if value % half < short then (value % half, width)
    else (if value < half then value else value - short, width + 1)
  match value with
  | 0 => (.rare, remaining - 1, position + used)
  | count + 1 => (.cells count, remaining - count, position + used)

/-- Reads how many more symbols have no cell, in groups of up to three. -/
def readGap (input : ByteArray) : Nat → (position : Nat) → Nat × Nat
  | 0, position => (0, position)
  | fuel + 1, position =>
    match bitsAt input position 2 with
    | 3 =>
      let (gap, position) := readGap input fuel (position + 2)
      (3 + gap, position)
    | gap => (gap, position + 2)

/-- Reads shares until all cells have symbols or there are `symbols` shares, last first; the
fuel bounds the shares. -/
def readShares (input : ByteArray) (symbols : Nat) :
    Nat → (position remaining : Nat) → List Share → Option (List Share × Nat)
  | 0, _, _, _ => none
  | fuel + 1, position, remaining, before =>
    let (share, remaining, position) := readShare input position remaining
    let before := share :: before
    if remaining ≤ 1 then some (before.reverse, position)
    else
      let (gap, position) :=
        if share = .cells 0 then readGap input (4 * input.size + 1) position else (0, position)
      let before := List.replicate gap (.cells 0) ++ before
      if symbols ≤ before.length then none
      else readShares input symbols fuel position remaining before

/-- Reads a table of at most `symbols` symbols and `2 ^ maxLog` cells from the given byte on:
the table and the byte behind it. -/
def read? (input : ByteArray) (start symbols maxLog : Nat) : Option (FseTable × Nat) := do
  let log := 5 + bitsAt input (8 * start) 4
  if maxLog < log then none
  let (shares, position) ← readShares input symbols symbols (8 * start + 4) ((1 <<< log) + 1) []
  let stop := (position + 7) / 8
  if input.size < stop then none
  some (ofShares log shares, stop)

/-! ## Decoding -/

def cellAt (table : FseTable) (state : Nat) : FseCell := table.cells[state]?.getD default

def start {σ : Type} [BitSource σ] (table : FseTable) : StateM σ Nat := BitSource.take table.log

def next {σ : Type} [BitSource σ] (table : FseTable) (state : Nat) : StateM σ Nat := do
  let cell := table.cellAt state
  return cell.base + (← BitSource.take cell.bits)

end FseTable

end RiscvMachine.Compression.Zstd
