import RiscvMachine.Compression.Zstd.Block
import RiscvMachine.Compression.Zstd.Old.Literals
import RiscvMachine.Compression.Zstd.Old.Sequences

set_option autoImplicit false

/-! # Compressed blocks of the older formats

A block of an older format is put together like one of the present format. Only the last of the
older formats carries tables and distances from block to block.
-/

namespace RiscvMachine.Compression.Zstd

namespace Distances

/-- The distances after one of the given offset value. Without literals in between, the values 1
and 2 change places. Zero names the latest distance, which then is the second as well. -/
def useOld (d : Distances) (offset : Nat) (anyLiterals : Bool) : Distances :=
  if 3 < offset then ⟨offset - 3, d.first, d.second⟩
  else
    match offset, anyLiterals with
    | 0, _ => ⟨d.first, d.first, d.third⟩
    | 1, true => d
    | 2, false => d
    | 3, _ => ⟨d.third, d.first, d.second⟩
    | _, _ => ⟨d.second, d.first, d.third⟩

end Distances

/-- What a block of an older format knows of the blocks before. -/
def OldFormat.known (format : OldFormat) (carried : Carried) : Carried :=
  match format with
  | .four => ⟨none, none, ⟨4, 4, 4⟩⟩
  | .seven => carried
  | _ => ⟨none, none, ⟨1, 1, 1⟩⟩

def OldFormat.admits (format : OldFormat) (size : Nat) : Bool :=
  size < maxBlockSize || format == .four && size == maxBlockSize

/-- How much room there must be behind the literals of a sequence. -/
def oldMargin : Nat := 8

def Sequence.readOldSection? (format : OldFormat) (input : ByteArray) (start : Nat)
    (earlier : Option SequenceTables) : Option (List Sequence × Option SequenceTables) :=
  let narrow := (readNarrowSection? format input start).map (·, none)
  match format with
  | .four => narrow
  | .five => narrow
  | _ => readWideSection? format input start earlier

/-- The contents of a compressed block of an older format, for which there is `room`, and what it
leaves to later blocks. -/
def oldBlockContents? (format : OldFormat) (history : History) (carried : Carried) (room : Nat)
    (input : ByteArray) : Option (ByteArray × Carried) := do
  if !format.admits input.size then none
  let ⟨huffman, tables, distances⟩ := format.known carried
  let literals ← Literals.readOld? format input huffman
  let (sequences, tables) ← Sequence.readOldSection? format input literals.stop tables
  let rules := ⟨room, oldMargin, .useOld⟩
  let (block, distances) ← assemble? history rules literals.bytes sequences distances
  some (block, ⟨literals.table, tables, distances⟩)

end RiscvMachine.Compression.Zstd
