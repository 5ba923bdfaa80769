set_option autoImplicit false

/-! # Byte sequences

Reading and replacing stretches of a `ByteArray`. A byte array stands for an unbounded run of
bytes: its own bytes first, zeros after them. `byteAt` is that view, and the other operations
are described through it.
-/

namespace RiscvMachine.Bytes

/-- The byte at index `i`; past the end every byte is zero. -/
def byteAt (bytes : ByteArray) (i : Nat) : UInt8 :=
  if h : i < bytes.size then bytes[i] else 0

/-- `bytes` with `n` copies of `block` behind them. -/
def appendCopies (block : ByteArray) : Nat → ByteArray → ByteArray
  | 0, bytes => bytes
  | n + 1, bytes => appendCopies block n (bytes ++ block)

def zeroBlockSize : Nat := 4096

def zeroBlock : ByteArray := appendCopies ⟨#[0]⟩ zeroBlockSize ByteArray.empty

/-- `n` zero bytes. The blocks go into place one after the other, which moves no byte twice. -/
def zeros (n : Nat) : ByteArray :=
  let blocks := appendCopies zeroBlock (n / zeroBlockSize) (ByteArray.emptyWithCapacity n)
  appendCopies ⟨#[0]⟩ (n % zeroBlockSize) blocks

/-- `bytes`, lengthened with zeros to `n` bytes if it is shorter. -/
def padTo (bytes : ByteArray) (n : Nat) : ByteArray :=
  if bytes.size < n then bytes ++ zeros (n - bytes.size) else bytes

/-- The `n` bytes from index `i` on, with zeros for those past the end. -/
def slice (bytes : ByteArray) (i n : Nat) : ByteArray :=
  padTo (bytes.extract i (i + n)) n

/-- `bytes` with `data` in place of what stood from index `i` on, lengthened where needed. -/
def overlay (bytes : ByteArray) (i : Nat) (data : ByteArray) : ByteArray :=
  data.copySlice 0 (padTo bytes i) i data.size false

/-- `bytes` cut or lengthened with zeros to exactly `n` bytes. -/
def resize (bytes : ByteArray) (n : Nat) : ByteArray :=
  slice bytes 0 n

def startsWith (bytes : ByteArray) (lead : List UInt8) : Bool :=
  (bytes.extract 0 lead.length).data.toList == lead

end RiscvMachine.Bytes
