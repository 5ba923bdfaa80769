import RiscvMachine.Compression.Zstd.BitWindow
import RiscvMachine.Compression.Zstd.Old.Frame
import RiscvMachine.Compression.Zstd.Sequences

set_option autoImplicit false

/-! # Sequences of the older formats

The last two of the older formats have the codes of the present one. The first two have codes
that stand for the numbers themselves; what is added to the greatest number stands in front of the
stream. Only the first format checks that a stream holds nothing but its sequences.
-/

namespace RiscvMachine.Compression.Zstd

def OldFormat.tableMode (format : OldFormat) (bits : Nat) : TableMode :=
  match format, bits % 4 with
  | .four, 1 => .standard
  | .four, 2 => .single
  | .four, _ => .own
  | _, 0 => .standard
  | _, 1 => .single
  | _, 2 => .earlier
  | _, _ => .own

namespace CodeKind

/-- The codes for offsets in the last two of the older formats. -/
def oldOffset : CodeKind := ⟨29, 8, offset.standard⟩

/-- Reads a table of the given mode from byte `start` on, as `readTable?` does. -/
def readOldTable? (kind : CodeKind) (input : ByteArray) (start : Nat) (mode : TableMode)
    (earlier : Option FseTable) : Option (FseTable × Nat) :=
  if mode = .own ∧ input.size < start + 4 then none else kind.readTable? input start mode earlier

/-! ## Narrow codes -/

/-- The codes for the number of literals in the first two formats. -/
def narrowLiterals : CodeKind := ⟨64, 10, .plain 6⟩

def narrowOffset : CodeKind := ⟨32, 9, .plain 5⟩

def narrowCopied : CodeKind := ⟨128, 10, .plain 7⟩

/-- Reads a table of the first two formats. A single code may be any of `singles`; of a greater
one the upper bits are dropped. -/
def readNarrowTable? (kind : CodeKind) (singles : Nat) (input : ByteArray) (start : Nat)
    (mode : TableMode) : Option (FseTable × Nat) :=
  match mode with
  | .single =>
    if input.size < start + 2 then none
    else some (.single ((Bytes.byteAt input start).toNat % singles), start + 1)
  | mode => kind.readOldTable? input start mode none

end CodeKind

namespace SequenceTables

def readOld? (format : OldFormat) (input : ByteArray) (start : Nat)
    (earlier : Option SequenceTables) : Option (SequenceTables × Nat) := do
  let modes := (Bytes.byteAt input start).toNat
  if input.size < start + 4 then none
  let (literals, start) ← CodeKind.literals.readOldTable? input (start + 1)
    (format.tableMode (modes / 64)) (earlier.map SequenceTables.literals)
  let (offset, start) ← CodeKind.oldOffset.readOldTable? input start
    (format.tableMode (modes / 16)) (earlier.map SequenceTables.offset)
  let (copied, start) ← CodeKind.copied.readOldTable? input start
    (format.tableMode (modes / 4)) (earlier.map SequenceTables.copied)
  some (⟨literals, offset, copied⟩, start)

def readNarrow? (format : OldFormat) (modes : Nat) (input : ByteArray) (start : Nat) :
    Option (SequenceTables × Nat) := do
  if input.size < start + 3 then none
  let (literals, start) ← CodeKind.narrowLiterals.readNarrowTable? 256 input start
    (format.tableMode (modes / 64))
  let (offset, start) ← CodeKind.narrowOffset.readNarrowTable? 32 input start
    (format.tableMode (modes / 16))
  let (copied, start) ← CodeKind.narrowCopied.readNarrowTable? 256 input start
    (format.tableMode (modes / 4))
  some (⟨literals, offset, copied⟩, start)

end SequenceTables

/-! ## Long numbers -/

/-- The bytes that hold what is added to the greatest numbers. -/
structure LongNumbers where
  bytes : ByteArray
  /-- The next byte. -/
  position : Nat
  /-- The byte behind the last. -/
  stop : Nat

namespace LongNumbers

/-- The number that takes the place of `greatest` where the next byte is 255, and how many bytes it
takes. If there are not enough of them, it stays. -/
def replacement (format : OldFormat) (greatest : Nat) (n : LongNumbers) : Nat × Nat :=
  let ⟨bytes, position, stop⟩ := n
  if format = .four then
    if position + 3 ≤ stop then (Bytes.littleEndianAt bytes position 3, 3) else (greatest, 0)
  else if position + 2 ≤ stop then
    let number := Bytes.littleEndianAt bytes position 2
    if number % 2 = 1 ∧ position + 2 < stop then
      (Bytes.littleEndianAt bytes position 3 / 2, 3)
    else (number / 2, 2)
  else (greatest, 0)

/-- Reads a number that is `greatest` or more. The last byte is never passed; where there is none,
an `eager` reader takes the byte behind. -/
def read (format : OldFormat) (greatest : Nat) (eager : Bool) (n : LongNumbers) :
    Nat × LongNumbers :=
  let ⟨bytes, position, stop⟩ := n
  let any := eager || position < stop
  let added := if any then (Bytes.byteAt bytes position).toNat else 0
  let position := if any then position + 1 else position
  let (number, length) :=
    if added < 255 then (greatest + added, 0)
    else replacement format greatest ⟨bytes, position, stop⟩
  (number, ⟨bytes, min (position + length) (stop - 1), stop⟩)

/-- The number of literals that a code stands for: the code itself, unless it is the greatest. -/
def literals (format : OldFormat) (code : Nat) (n : LongNumbers) : Nat × LongNumbers :=
  if code = 63 then n.read format 63 (format = .five) else (code, n)

/-- The length of what is repeated that a code stands for, less the least. -/
def copied (format : OldFormat) (code : Nat) (n : LongNumbers) : Nat × LongNumbers :=
  if code = 127 then n.read format 127 false else (code, n)

end LongNumbers

namespace Sequence

/-! ## Streams -/

/-- The greatest code for offsets that stands for a power of two; the bits of greater ones count
from one on. This does not hold of the last format. -/
def greatestPower : Nat := 26

/-- Reads the offset of a narrow code: zero names the latest one, and the others are powers of
two with bits to add. -/
def readNarrowOffset (code : Nat) : StateM BitWindow Nat := do
  match code with
  | 0 => return 1
  | bits + 1 =>
    let base := if code ≤ greatestPower then 1 <<< bits else 1
    return base + (← BitSource.take bits) + 3

/-- Reads the offset that the states stand for and the states that follow. The first format reads
the bits of the offset behind two of the states, the second one in front of them. -/
def readNarrowStates (format : OldFormat) (tables : SequenceTables) (s : States) :
    StateM BitWindow (Nat × States) := do
  let code := (tables.offset.cellAt s.offset).symbol
  if format = .four then
    let literals ← tables.literals.next s.literals
    let next ← tables.offset.next s.offset
    let offset ← readNarrowOffset code
    let copied ← tables.copied.next s.copied
    return (offset, ⟨literals, next, copied⟩)
  else
    let offset ← readNarrowOffset code
    let next ← tables.offset.next s.offset
    let literals ← tables.literals.next s.literals
    let copied ← tables.copied.next s.copied
    return (offset, ⟨literals, next, copied⟩)

/-- The least length of what is repeated in the first two formats. -/
def leastNarrowCopy : Nat := 4

/-- Reads a sequence of the first two formats. An offset of zero names the latest one where a long
number says that there are no literals. -/
def readNarrow (format : OldFormat) (tables : SequenceTables) (s : States × LongNumbers) :
    StateM BitWindow (Sequence × States × LongNumbers) := do
  let (states, long) := s
  let code := (tables.literals.cellAt states.literals).symbol
  let (literals, long) := long.literals format code
  let (copied, long) := long.copied format (tables.copied.cellAt states.copied).symbol
  let (offset, states) ← readNarrowStates format tables states
  let offset := if offset = 1 ∧ literals = 0 ∧ code ≠ 0 then 0 else offset
  return (⟨literals, copied + leastNarrowCopy, offset⟩, states, long)

def readWide (format : OldFormat) (tables : SequenceTables) (s : States) :
    StateM BitWindow (Sequence × States) := do
  let ⟨literals, copied, offset⟩ ← readNumbers tables s
  modify fun window => window.refill.1
  let states ← nextStates tables s
  let code := (tables.offset.cellAt s.offset).symbol
  let isPower := format = .seven ∨ code ≤ greatestPower
  let offset := if isPower then offset else offset - (1 <<< code) + 2
  return (⟨literals, copied, offset⟩, states)

/-- Reads `n` sequences in front of which there are those of `before`, last first. Each must start
within the stream. -/
def readEach? {ς : Type} (read : ς → StateM BitWindow (Sequence × ς)) :
    Nat → ς → BitWindow → List Sequence → Option (List Sequence × BitWindow)
  | 0, _, window, before => some (before.reverse, window.refill.1)
  | n + 1, s, window, before =>
    let window := window.refill.1
    if window.overrun then none
    else
      let ((sequence, s), window) := read s window
      readEach? read n s window (sequence :: before)

/-- The window on the stream from byte `start` to the end of the input, and the first states. -/
def openStream? (tables : SequenceTables) (input : ByteArray) (start : Nat) :
    Option (States × BitWindow) := do
  let window ← BitWindow.ofStream? input start (input.size - start)
  let next : StateM BitWindow States := firstStates tables
  some (next window)

/-! ## Sections -/

/-- Reads the section of the last two formats from byte `start` on. -/
def readWideSection? (format : OldFormat) (input : ByteArray) (start : Nat)
    (earlier : Option SequenceTables) : Option (List Sequence × Option SequenceTables) := do
  let (count, start) ← readCount? input start
  if count = 0 then return ([], earlier)
  let (tables, start) ← SequenceTables.readOld? format input start earlier
  let (states, window) ← openStream? tables input start
  let (sequences, _) ← readEach? (readWide format tables) count states window []
  some (sequences, some tables)

/-- Reads how many sequences there are in the first two formats. -/
def readNarrowCount? (format : OldFormat) (input : ByteArray) (start : Nat) : Option (Nat × Nat) :=
  let first := (Bytes.byteAt input start).toNat
  let (count, stop) :=
    if format = .four then (Bytes.littleEndianAt input start 2, start + 2)
    else if first < 128 then (first, start + 1)
    else ((first - 128) * 256 + (Bytes.byteAt input (start + 1)).toNat, start + 2)
  if input.size < stop then none else some (count, stop)

/-- Reads the section of the first two formats from byte `start` on. The modes of the tables share
a byte with the length of the long numbers. -/
def readNarrowSection? (format : OldFormat) (input : ByteArray) (start : Nat) :
    Option (List Sequence) := do
  if format = .four ∧ input.size < start + 5 then none
  let (count, start) ← readNarrowCount? format input start
  if format ≠ .four ∧ count = 0 then return []
  let modes := (Bytes.byteAt input start).toNat
  let (length, longStart) :=
    if modes / 2 % 2 = 1 then (Bytes.bigEndianAt input (start + 1) 2, start + 3)
    else (modes % 2 * 256 + (Bytes.byteAt input (start + 1)).toNat, start + 2)
  let longStop := longStart + length
  let (tables, start) ← SequenceTables.readNarrow? format modes input longStop
  let (states, window) ← openStream? tables input start
  let long := ⟨input, longStart, longStop⟩
  let (sequences, window) ← readEach? (readNarrow format tables) count (states, long) window []
  if format = .four ∧ !window.isUsedUp then none else some sequences

end Sequence

end RiscvMachine.Compression.Zstd
