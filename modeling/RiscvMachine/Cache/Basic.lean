import RiscvMachine.Bytes.Endian
import RiscvMachine.Bytes.Width
import RiscvMachine.Storage.Store

set_option autoImplicit false

/-! # The cache

A direct-mapped cache over the backing store. The block of an address is its upper bits, and
the lower bits of the block's number choose the only line that can hold it. A written line is
dirty; it is written back when another block takes its place or when the cache is flushed.

The last block may reach past the end of the store. Of such a block only the part that exists
is transferred, and the rest of the line keeps what it held before.
-/

namespace RiscvMachine

/-- Which block a line holds, if any, and whether it has been written since it was filled or
flushed. -/
inductive Residency
  | vacant
  | clean (block : UInt32)
  | dirty (block : UInt32)
  deriving DecidableEq, Repr, Inhabited

/-- A line: what it holds and the bytes in it, with zeros behind them up to the size of a block. A
vacant line keeps its bytes. -/
structure Line where
  residency : Residency
  bytes : ByteArray
  deriving Inhabited

structure CacheGeometry where
  lineSize : UInt64 := 64
  lineCount : UInt64 := 1024
  deriving DecidableEq, Repr

/-- Whether exactly one bit of the number is set. -/
def isPowerOfTwo (n : UInt64) : Bool :=
  n != 0 && n &&& (n - 1) == 0

namespace CacheGeometry

/-- The number of address bits within a line. -/
def lineShift (g : CacheGeometry) : UInt32 :=
  UInt32.ofNat g.lineSize.toNat.log2

/-- The mask that keeps the bits of a block number that choose the line. -/
def indexMask (g : CacheGeometry) : UInt32 :=
  (g.lineCount - 1).toUInt32

def blockOf (g : CacheGeometry) (addr : UInt32) : Except Panic UInt32 :=
  Checked.shiftRight addr g.lineShift

def baseOf (g : CacheGeometry) (block : UInt32) : Except Panic UInt32 :=
  Checked.shiftLeft block g.lineShift

def index (g : CacheGeometry) (block : UInt32) : Nat :=
  (block &&& g.indexMask).toNat

def within (g : CacheGeometry) (addr : UInt32) : Nat :=
  (addr.toUInt64 &&& (g.lineSize - 1)).toNat

/-- The place of a position in a line among the bytes of all lines. -/
def offsetOf (g : CacheGeometry) (index within : Nat) : Except Panic UInt64 := do
  let start ← Checked.multiply index g.lineSize.toNat
  Checked.add start.toNat within

end CacheGeometry

/-- The cache, the counts of its accesses, and the store below. -/
structure Cache (υ : Type) where
  geometry : CacheGeometry
  lines : Array Line
  hits : UInt64
  accesses : UInt64
  store : Store υ

namespace Cache

variable {υ : Type} [StorageUnit υ]

/-- A cache with vacant lines of zeros. -/
def empty (geometry : CacheGeometry) (store : Store υ) : Cache υ where
  geometry := geometry
  lines := Array.replicate geometry.lineCount.toNat ⟨.vacant, ByteArray.empty⟩
  hits := 0
  accesses := 0
  store := store

/-- The bytes that the host takes for the state of a line. -/
def lineStateSize : Nat := 8

/-- Makes an empty cache. The bytes of all lines are asked for at once. -/
def new (geometry : CacheGeometry) (store : Store υ) : Except Panic (Cache υ) := do
  if geometry.lineSize < 4 ∨ !isPowerOfTwo geometry.lineSize then
    throw (.assertion
      "assertion failed: config.line_size.is_power_of_two() && config.line_size >= 4")
  if !isPowerOfTwo geometry.lineCount then
    throw (.assertion "assertion failed: config.line_count.is_power_of_two()")
  Checked.allocate geometry.lineCount.toNat lineStateSize
  let size ← Checked.multiply geometry.lineCount.toNat geometry.lineSize.toNat
  Checked.allocate size.toNat 1
  return empty geometry store

/-- Gives up if there is no value. -/
def orPanic {σ α : Type} : Except Panic α → EStateM StorageError σ α
  | .ok value => pure value
  | .error why => throw (.panic why)

/-- The first address of a block, and how many of its bytes exist in the store. -/
def rangeOf (c : Cache υ) (block : UInt32) : Except Panic (UInt32 × Nat) := do
  let base ← c.geometry.baseOf block
  let capacity ← c.store.capacity
  return (base, min c.geometry.lineSize.toNat (capacity.toNat - base.toNat))

def lineBytes (c : Cache υ) (index : Nat) : ByteArray :=
  (c.lines[index]?.map Line.bytes).getD ByteArray.empty

def onLine (c : Cache υ) (index : Nat) (change : Line → Line) : Cache υ :=
  let ⟨geometry, lines, hits, accesses, store⟩ := c
  ⟨geometry, lines.modify index change, hits, accesses, store⟩

/-- Writes the bytes of a line to the store as the given block. -/
def writeBack (index : Nat) (block : UInt32) : EStateM StorageError (Cache υ) Unit := fun c =>
  match c.rangeOf block with
  | .error why => .error (.panic why) c
  | .ok (base, length) =>
    let data := Bytes.slice (c.lineBytes index) 0 length
    let ⟨geometry, lines, hits, accesses, store⟩ := c
    match Store.write base data store with
    | .ok () store => .ok () ⟨geometry, lines, hits, accesses, store⟩
    | .error error store => .error error ⟨geometry, lines, hits, accesses, store⟩

/-- Reads a block into a line. If the store fails, the bytes that arrived are in the line, and
the line still counts as holding what it held. -/
def fill (index : Nat) (block : UInt32) : EStateM StorageError (Cache υ) Unit := fun c =>
  match c.rangeOf block with
  | .error why => .error (.panic why) c
  | .ok (base, length) =>
    let ⟨geometry, lines, hits, accesses, store⟩ := c
    match Store.read base length store with
    | .ok bytes store =>
      let place (line : Line) : Line := ⟨.clean block, Bytes.overlay line.bytes 0 bytes⟩
      .ok () ⟨geometry, lines.modify index place, hits, accesses, store⟩
    | .error failure store =>
      let place (line : Line) : Line :=
        { line with bytes := Bytes.overlay line.bytes 0 failure.arrived }
      .error failure.error ⟨geometry, lines.modify index place, hits, accesses, store⟩

/-- Makes the block of an access resident and tells where among the bytes of all lines the access
starts. An access must lie in one block. -/
def lookup (addr : UInt32) (length : Nat) : EStateM StorageError (Cache υ) UInt64 := do
  let geometry := (← get).geometry
  let block ← orPanic (geometry.blockOf addr)
  let index := geometry.index block
  let within := geometry.within addr
  if geometry.lineSize.toNat < within + length then
    throw (.panic (.assertion "access crosses a cache line"))
  modify fun c => { c with accesses := c.accesses + 1 }
  let residency := ((← get).lines[index]?.map Line.residency).getD .vacant
  if residency = .clean block ∨ residency = .dirty block then
    modify fun c => { c with hits := c.hits + 1 }
  else
    -- if this fails, the line keeps the block and stays dirty
    if let .dirty old := residency then writeBack index old
    fill index block
  orPanic (geometry.offsetOf index within)

def read (addr : UInt32) (length : Nat) : EStateM StorageError (Cache υ) ByteArray := do
  let start ← lookup addr length
  let c ← get
  let size := c.geometry.lineSize
  return Bytes.slice (c.lineBytes (start / size).toNat) (start % size).toNat length

/-- Puts `data` in place from `addr` on and marks the line dirty. -/
def write (addr : UInt32) (data : ByteArray) : EStateM StorageError (Cache υ) Unit := do
  let start ← lookup addr data.size
  let geometry := (← get).geometry
  let size := geometry.lineSize
  let block ← orPanic (geometry.blockOf addr)
  modify fun c => c.onLine (start / size).toNat fun line =>
    ⟨.dirty block, Bytes.overlay line.bytes (start % size).toNat data⟩

/-- The number of the given width at `addr`, least significant byte first. -/
def readNumber (width : Width) (addr : UInt32) : EStateM StorageError (Cache υ) UInt32 := do
  let bytes ← read addr width.bytes
  return UInt32.ofNat (Bytes.littleEndianAt bytes 0 width.bytes)

/-- Puts the lowest bytes of a number in place, least significant first. -/
def writeNumber (width : Width) (addr value : UInt32) : EStateM StorageError (Cache υ) Unit :=
  write addr (Bytes.littleEndian width.bytes value.toNat)

/-- Writes one line back if it is dirty, and leaves it clean. -/
def flushLine (index : Nat) : EStateM StorageError (Cache υ) Unit := do
  if let some ⟨.dirty block, _⟩ := (← get).lines[index]? then
    writeBack index block
    modify fun c => c.onLine index fun line => { line with residency := .clean block }

/-- Writes back the dirty lines in order, up to the first that fails. All stay resident. -/
def flush : EStateM StorageError (Cache υ) Unit := do
  let count := (← get).lines.size
  (List.range count).forM flushLine

/-- Empties every line without writing anything back. -/
def invalidate (c : Cache υ) : Cache υ :=
  let ⟨geometry, lines, hits, accesses, store⟩ := c
  ⟨geometry, lines.map fun line => { line with residency := .vacant }, hits, accesses, store⟩

def resetCounters (c : Cache υ) : Cache υ :=
  { c with hits := 0, accesses := 0 }

/-- Runs a request on the store below, past the cache. -/
def onStore {ε α : Type} (request : EStateM ε (Store υ) α) : EStateM ε (Cache υ) α :=
  fun ⟨geometry, lines, hits, accesses, store⟩ =>
    match request store with
    | .ok answer store => .ok answer ⟨geometry, lines, hits, accesses, store⟩
    | .error error store => .error error ⟨geometry, lines, hits, accesses, store⟩

end Cache

end RiscvMachine
