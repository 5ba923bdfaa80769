import RiscvMachine.Isa.Decode

set_option autoImplicit false

/-! # Integer arithmetic

The meaning of the register operations on 32-bit words. Addition, subtraction and
multiplication wrap; shifts use the lower five bits of their amount; division by zero and the
one overflowing division have the results that the architecture fixes.
-/

namespace RiscvMachine.Isa

def flag (b : Bool) : UInt32 := if b then 1 else 0

/-- Whether a word is below another, both read as signed. -/
def signedLess (a b : UInt32) : Bool := a.toInt32 < b.toInt32

def AluOp.apply (op : AluOp) (a b : UInt32) : UInt32 :=
  match op with
  | .add => a + b
  | .sub => a - b
  | .sll => a <<< (b &&& 0x1F)
  | .slt => flag (signedLess a b)
  | .sltu => flag (a < b)
  | .xor => a ^^^ b
  | .srl => a >>> (b &&& 0x1F)
  | .sra => shiftRightSigned a (b &&& 0x1F)
  | .or => a ||| b
  | .and => a &&& b

def BranchTest.holds (test : BranchTest) (a b : UInt32) : Bool :=
  match test with
  | .eq => a == b
  | .ne => a != b
  | .lt => signedLess a b
  | .ge => !signedLess a b
  | .ltu => a < b
  | .geu => !(a < b)

/-- The word read as signed and widened to 64 bits. -/
def signedWide (w : UInt32) : Int64 := w.toInt32.toInt64

def upperHalf (product : Int64) : UInt32 := (product.toUInt64 >>> 32).toUInt32

def MulDivOp.apply (op : MulDivOp) (a b : UInt32) : UInt32 :=
  match op with
  | .mul => a * b
  | .mulh => upperHalf (signedWide a * signedWide b)
  | .mulhsu => upperHalf (signedWide a * b.toUInt64.toInt64)
  | .mulhu => ((a.toUInt64 * b.toUInt64) >>> 32).toUInt32
  | .div => if b = 0 then 0xFFFFFFFF else (a.toInt32 / b.toInt32).toUInt32
  | .divu => if b = 0 then 0xFFFFFFFF else a / b
  | .rem => if b = 0 then a else (a.toInt32 % b.toInt32).toUInt32
  | .remu => if b = 0 then a else a % b

/-- The word that an atomic update leaves in memory, from the old word and the operand. -/
def AmoOp.apply (op : AmoOp) (old operand : UInt32) : UInt32 :=
  match op with
  | .swap => operand
  | .add => old + operand
  | .xor => old ^^^ operand
  | .and => old &&& operand
  | .or => old ||| operand
  | .min => if signedLess operand old then operand else old
  | .max => if signedLess old operand then operand else old
  | .minu => if operand < old then operand else old
  | .maxu => if old < operand then operand else old

/-- The register value that a load makes of the number that memory answered. -/
def LoadKind.extend (kind : LoadKind) (value : UInt32) : UInt32 :=
  match kind with
  | .byte => value.toUInt8.toInt8.toInt32.toUInt32
  | .byteUnsigned => value.toUInt8.toUInt32
  | .half => value.toUInt16.toInt16.toInt32.toUInt32
  | .halfUnsigned => value.toUInt16.toUInt32
  | .word => value

def CsrOp.apply (op : CsrOp) (old operand : UInt32) : UInt32 :=
  match op with
  | .write => operand
  | .set => old ||| operand
  | .clear => old &&& ~~~operand

end RiscvMachine.Isa
