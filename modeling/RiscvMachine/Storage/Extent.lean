import RiscvMachine.Bytes.Basic

set_option autoImplicit false

/-! # Extents

The contents of a file or a memory chip: a known number of bytes, of which only those up to the
last one written are kept. All later bytes are zero.
-/

namespace RiscvMachine

/-- `length` bytes: the stored ones and, after them, zeros. -/
structure Extent where
  length : Nat
  stored : ByteArray
  deriving Inhabited

namespace Extent

def zeros (length : Nat) : Extent := ⟨length, ByteArray.empty⟩

def ofBytes (bytes : ByteArray) : Extent := ⟨bytes.size, bytes⟩

def byteAt (e : Extent) (i : Nat) : UInt8 := Bytes.byteAt e.stored i

/-- The bytes from index `i` on, at most `n` and none past the end. -/
def read (e : Extent) (i n : Nat) : ByteArray :=
  Bytes.slice e.stored i (min n (e.length - i))

def toBytes (e : Extent) : ByteArray := e.read 0 e.length

/-- The bytes with `data` in place from index `i` on, longer if `data` ends past the end. -/
def write (e : Extent) (i : Nat) (data : ByteArray) : Extent :=
  ⟨max e.length (i + data.size), Bytes.overlay e.stored i data⟩

/-- The bytes cut or lengthened with zeros to `n`. -/
def resize (e : Extent) (n : Nat) : Extent :=
  ⟨n, if n < e.stored.size then e.stored.extract 0 n else e.stored⟩

end Extent

end RiscvMachine
