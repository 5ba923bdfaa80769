import RiscvMachine.Bytes.Endian

set_option autoImplicit false

/-! # Device trees as tokens

A device tree is a sequence of tokens: nodes are opened and closed, and properties stand in
between. `Writer` turns tokens into a flattened tree: a header, an empty reserve map, the
structure block with the tokens in order, and the strings block with every property name once.
-/

namespace RiscvMachine.DeviceTree

/-- One step of a tree written out in order. -/
inductive Token
  | beginNode (name : String)
  | endNode
  | property (name : String) (value : ByteArray)
  deriving Inhabited

namespace Token

def cell (name : String) (value : UInt32) : Token :=
  .property name (Bytes.bigEndian 4 value.toNat)

def cells (name : String) (values : List UInt32) : Token :=
  .property name (values.foldl (fun data v => data ++ Bytes.bigEndian 4 v.toNat) ByteArray.empty)

/-- A property without a value. -/
def marker (name : String) : Token :=
  .property name ByteArray.empty

/-- A property that holds texts, each with a zero byte behind it. -/
def texts (name : String) (values : List String) : Token :=
  .property name (values.foldl (fun data v => (data ++ v.toUTF8).push 0) ByteArray.empty)

def text (name value : String) : Token :=
  texts name [value]

end Token

/-- The first word of every flattened tree. -/
def magic : UInt32 := 0xD00DFEED

def headerSize : Nat := 40

/-- The bytes of the reserve map, which holds its end mark only. -/
def reserveMapSize : Nat := 16

def structureOffset : Nat := headerSize + reserveMapSize

/-- The smallest multiple of four that is not below `n`. -/
def roundUp4 (n : Nat) : Nat := (n + 3) / 4 * 4

/-- The blocks of a tree under construction, and where each property name stands. -/
structure Writer where
  structureBlock : ByteArray := ByteArray.empty
  strings : ByteArray := ByteArray.empty
  nameOffsets : List (String × Nat) := []
  deriving Inhabited

namespace Writer

def word (w : Writer) (v : Nat) : Writer :=
  { w with structureBlock := w.structureBlock ++ Bytes.bigEndian 4 v }

/-- Appends bytes to the structure block, filled up with zeros to a multiple of four. -/
def aligned (w : Writer) (bytes : ByteArray) : Writer :=
  let block := w.structureBlock ++ bytes
  { w with structureBlock := Bytes.padTo block (roundUp4 block.size) }

/-- Enters a property name into the strings block, unless it stands there already. -/
def intern (w : Writer) (name : String) : Nat × Writer :=
  match w.nameOffsets.lookup name with
  | some offset => (offset, w)
  | none =>
    let offset := w.strings.size
    (offset, { w with
      strings := (w.strings ++ name.toUTF8).push 0
      nameOffsets := (name, offset) :: w.nameOffsets })

/-- Where the value of a property would stand in the finished tree if it came next. -/
def nextValueOffset (w : Writer) : Nat :=
  structureOffset + w.structureBlock.size + 12

def push (w : Writer) : Token → Writer
  | .beginNode name => (w.word 1).aligned (name.toUTF8.push 0)
  | .endNode => w.word 2
  | .property name value =>
    let (offset, w) := w.intern name
    (((w.word 3).word value.size).word offset).aligned value

/-- The flattened tree, filled up with zeros to a multiple of four. -/
def finish (w : Writer) : ByteArray :=
  let block := (w.word 9).structureBlock
  let stringsOffset := structureOffset + block.size
  let total := roundUp4 (stringsOffset + w.strings.size)
  let header := [magic.toNat, total, structureOffset, stringsOffset, headerSize, 17, 16, 0,
    w.strings.size, block.size]
  let lead := header.foldl (fun data v => data ++ Bytes.bigEndian 4 v) ByteArray.empty
  Bytes.padTo (lead ++ Bytes.zeros reserveMapSize ++ block ++ w.strings) total

end Writer

def flatten (tokens : List Token) : ByteArray :=
  (tokens.foldl Writer.push {}).finish

end RiscvMachine.DeviceTree
