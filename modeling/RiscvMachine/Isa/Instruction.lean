import RiscvMachine.Bytes.Width

set_option autoImplicit false

/-! # Instructions

The instructions of RV32IMA with the machine-mode subset of the privileged architecture.
Immediate operands are stored as the 32-bit word that enters the arithmetic, that is, already
sign-extended or shifted into place.

Some instruction classes are recognised before every field has been checked. In them an
undefined selector is kept as `none`: what such a word does is decided where it executes.
-/

namespace RiscvMachine

/-- The number of one of the 32 general registers. -/
abbrev RegIndex := Fin 32

namespace Isa

inductive LoadKind
  | byte
  | half
  | word
  | byteUnsigned
  | halfUnsigned
  deriving DecidableEq, Repr

def LoadKind.width : LoadKind → Width
  | .byte | .byteUnsigned => .byte
  | .half | .halfUnsigned => .half
  | .word => .word

inductive BranchTest
  | eq
  | ne
  | lt
  | ge
  | ltu
  | geu
  deriving DecidableEq, Repr

/-- The integer operations between two registers or a register and an immediate. -/
inductive AluOp
  | add
  | sub
  | sll
  | slt
  | sltu
  | xor
  | srl
  | sra
  | or
  | and
  deriving DecidableEq, Repr

inductive MulDivOp
  | mul
  | mulh
  | mulhsu
  | mulhu
  | div
  | divu
  | rem
  | remu
  deriving DecidableEq, Repr

inductive AmoOp
  | swap
  | add
  | xor
  | and
  | or
  | min
  | max
  | minu
  | maxu
  deriving DecidableEq, Repr

inductive CsrOp
  | write
  | set
  | clear
  deriving DecidableEq, Repr

/-- Where a CSR instruction takes its operand from. -/
inductive CsrSource
  | register (rs1 : RegIndex)
  | immediate (value : Fin 32)
  deriving DecidableEq, Repr

/-- The five-bit field that holds the operand: a register number or the operand itself. -/
def CsrSource.field : CsrSource → Fin 32
  | .register rs1 => rs1
  | .immediate value => value

inductive Instruction
  | lui (rd : RegIndex) (imm : UInt32)
  | auipc (rd : RegIndex) (imm : UInt32)
  | jal (rd : RegIndex) (offset : UInt32)
  | jalr (rd rs1 : RegIndex) (offset : UInt32)
  | branch (test : BranchTest) (rs1 rs2 : RegIndex) (offset : UInt32)
  /-- A load; `kind` is `none` if the width field is undefined. -/
  | load (kind : Option LoadKind) (rd rs1 : RegIndex) (offset : UInt32)
  /-- A store; `width` is `none` if the width field is undefined. -/
  | store (width : Option Width) (rs1 rs2 : RegIndex) (offset : UInt32)
  | aluImm (op : AluOp) (rd rs1 : RegIndex) (imm : UInt32)
  | alu (op : AluOp) (rd rs1 rs2 : RegIndex)
  | mulDiv (op : MulDivOp) (rd rs1 rs2 : RegIndex)
  | fence
  | ecall
  | ebreak
  | mret
  | wfi
  /-- A CSR access; `op` is `none` for the undefined form with an immediate operand. -/
  | csr (op : Option CsrOp) (rd : RegIndex) (source : CsrSource) (number : UInt32)
  | loadReserved (rd rs1 : RegIndex)
  | storeConditional (rd rs1 rs2 : RegIndex)
  /-- An atomic update; `op` is `none` if the operation field is undefined. -/
  | amo (op : Option AmoOp) (rd rs1 rs2 : RegIndex)
  deriving DecidableEq, Repr

end Isa

end RiscvMachine
