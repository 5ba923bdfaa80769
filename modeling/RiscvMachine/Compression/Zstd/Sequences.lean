import RiscvMachine.Compression.Zstd.Fse

set_option autoImplicit false

/-! # The sequences of a block

A sequence copies some literals to the output and then repeats a stretch of the output. Its
three numbers are coded with three tables, which a block brings along, takes from the standard,
or takes over from the block before.
-/

namespace RiscvMachine.Compression.Zstd

/-- A sequence: how many literals, and how much to repeat from where. Of the offset, 1 to 3 name
earlier ones, and greater values are the distance plus three. -/
structure Sequence where
  literals : Nat
  copied : Nat
  offset : Nat

inductive TableMode
  | standard
  /-- Only one code is used. -/
  | single
  /-- The block brings its own table. -/
  | own
  | earlier
  deriving DecidableEq, Repr

def TableMode.ofBits (bits : Nat) : TableMode :=
  match bits % 4 with
  | 0 => .standard
  | 1 => .single
  | 2 => .own
  | _ => .earlier

/-- What a kind of code in a sequence is made of. -/
structure CodeKind where
  /-- How many symbols there are. -/
  symbols : Nat
  /-- The largest table that a block may bring along has `2 ^ maxLog` cells. -/
  maxLog : Nat
  /-- The table that is used if a block asks for the standard one. -/
  standard : FseTable

namespace CodeKind

/-- Shares written as numbers, with zero for a rare symbol and one more than the cells for the
others. -/
def sharesOf (numbers : List Nat) : List Share :=
  numbers.map fun number => if number = 0 then .rare else .cells (number - 1)

def literals : CodeKind where
  symbols := 36
  maxLog := 9
  standard := .ofShares 6 (sharesOf
    [5, 4, 3, 3, 3, 3, 3, 3, 3, 3, 3, 3, 3, 2, 2, 2, 3, 3, 3, 3, 3, 3, 3, 3, 3, 4, 3, 2, 2, 2,
      2, 2, 0, 0, 0, 0])

def offset : CodeKind where
  symbols := 32
  maxLog := 8
  standard := .ofShares 5 (sharesOf
    [2, 2, 2, 2, 2, 2, 3, 3, 3, 2, 2, 2, 2, 2, 2, 2, 2, 2, 2, 2, 2, 2, 2, 2, 0, 0, 0, 0, 0])

/-- The codes for the length of what is repeated. -/
def copied : CodeKind where
  symbols := 53
  maxLog := 9
  standard := .ofShares 6 (sharesOf
    ([2, 5, 4, 3, 3, 3, 3, 3, 3] ++ List.replicate 37 2 ++ List.replicate 7 0))

/-- Reads a table of the given mode from byte `start` on: the table and the byte behind it. -/
def readTable? (kind : CodeKind) (input : ByteArray) (start : Nat) (mode : TableMode)
    (earlier : Option FseTable) : Option (FseTable × Nat) :=
  match mode with
  | .standard => some (kind.standard, start)
  | .single =>
    let symbol := (Bytes.byteAt input start).toNat
    if input.size ≤ start ∨ kind.symbols ≤ symbol then none
    else some (.single symbol, start + 1)
  | .own => FseTable.read? input start kind.symbols kind.maxLog
  | .earlier => earlier.map (·, start)

end CodeKind

structure SequenceTables where
  literals : FseTable
  offset : FseTable
  copied : FseTable

namespace SequenceTables

/-- Reads the modes and the tables from byte `start` on: the tables and the byte behind them. -/
def read? (input : ByteArray) (start : Nat) (earlier : Option SequenceTables) :
    Option (SequenceTables × Nat) := do
  let modes := (Bytes.byteAt input start).toNat
  if input.size ≤ start ∨ modes % 4 ≠ 0 then none
  let (literals, start) ← CodeKind.literals.readTable? input (start + 1) (.ofBits (modes / 64))
    (earlier.map SequenceTables.literals)
  let (offset, start) ← CodeKind.offset.readTable? input start (.ofBits (modes / 16))
    (earlier.map SequenceTables.offset)
  let (copied, start) ← CodeKind.copied.readTable? input start (.ofBits (modes / 4))
    (earlier.map SequenceTables.copied)
  some (⟨literals, offset, copied⟩, start)

end SequenceTables

namespace Sequence

variable {σ : Type} [BitSource σ]

/-- The smallest number and the extra bits of each code for the number of literals. -/
def literalsTable : Array (Nat × Nat) :=
  (Array.range 16).map (·, 0) ++
    #[(16, 1), (18, 1), (20, 1), (22, 1), (24, 2), (28, 2), (32, 3), (40, 3), (48, 4), (64, 6),
      (128, 7), (256, 8), (512, 9), (1024, 10), (2048, 11), (4096, 12), (8192, 13), (16384, 14),
      (32768, 15), (65536, 16)]

/-- The smallest number and the extra bits of each code for the length of what is repeated. -/
def copiedTable : Array (Nat × Nat) :=
  (Array.range 32).map (· + 3, 0) ++
    #[(35, 1), (37, 1), (39, 1), (41, 1), (43, 2), (47, 2), (51, 3), (59, 3), (67, 4), (83, 4),
      (99, 5), (131, 7), (259, 8), (515, 9), (1027, 10), (2051, 11), (4099, 12), (8195, 13),
      (16387, 14), (32771, 15), (65539, 16)]

def readExtra (table : Array (Nat × Nat)) (code : Nat) : StateM σ Nat := do
  let (base, extra) := table[code]?.getD (0, 0)
  return base + (← BitSource.take extra)

/-- The states of the three decoders. -/
structure States where
  literals : Nat
  offset : Nat
  copied : Nat

def readNumbers (tables : SequenceTables) (s : States) : StateM σ Sequence := do
  let code := (tables.offset.cellAt s.offset).symbol
  let offset := (1 <<< code) + (← BitSource.take code)
  let copied ← readExtra copiedTable (tables.copied.cellAt s.copied).symbol
  let literals ← readExtra literalsTable (tables.literals.cellAt s.literals).symbol
  return ⟨literals, copied, offset⟩

def firstStates (tables : SequenceTables) : StateM σ States := do
  let literals ← tables.literals.start
  let offset ← tables.offset.start
  let copied ← tables.copied.start
  return ⟨literals, offset, copied⟩

def nextStates (tables : SequenceTables) (s : States) : StateM σ States := do
  let literals ← tables.literals.next s.literals
  let copied ← tables.copied.next s.copied
  let offset ← tables.offset.next s.offset
  return ⟨literals, offset, copied⟩

/-- Reads `n + 1` sequences in front of which there are those of `before`, last first. -/
def readMany (tables : SequenceTables) :
    Nat → States → List Sequence → StateM σ (List Sequence)
  | n, states, before => do
    let sequence ← readNumbers tables states
    match n with
    | 0 => return (sequence :: before).reverse
    | n + 1 => readMany tables n (← nextStates tables states) (sequence :: before)

/-- The sequences of a stream that holds exactly `n + 1` of them. -/
def readStream? (tables : SequenceTables) (n : Nat) (stream : ByteArray) :
    Option (List Sequence) := do
  let bits ← BackwardBits.ofBytes? stream
  let (states, bits) := firstStates tables bits
  let (sequences, bits) := readMany tables n states [] bits
  if bits.isUsedUp then some sequences else none

def readCount? (input : ByteArray) (start : Nat) : Option (Nat × Nat) :=
  let first := (Bytes.byteAt input start).toNat
  let (count, stop) :=
    if first < 128 then (first, start + 1)
    else if first < 255 then
      ((first - 128) * 256 + (Bytes.byteAt input (start + 1)).toNat, start + 2)
    else (0x7F00 + Bytes.littleEndianAt input (start + 1) 2, start + 3)
  if input.size < stop then none else some (count, stop)

/-- Reads the section from byte `start` to the end of the input: the sequences and the tables
for later blocks. -/
def readSection? (input : ByteArray) (start : Nat) (earlier : Option SequenceTables) :
    Option (List Sequence × Option SequenceTables) := do
  let (count, start) ← readCount? input start
  match count with
  | 0 => if start = input.size then some ([], earlier) else none
  | n + 1 =>
    let (tables, start) ← SequenceTables.read? input start earlier
    let sequences ← readStream? tables n (input.extract start input.size)
    some (sequences, some tables)

end Sequence

end RiscvMachine.Compression.Zstd
