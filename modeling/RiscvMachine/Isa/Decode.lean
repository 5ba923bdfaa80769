import RiscvMachine.Isa.Instruction

set_option autoImplicit false

/-! # Decoding

Field extraction and the map from instruction words to instructions. `decode` answers `none`
for a word that is illegal whatever the machine state is.
-/

namespace RiscvMachine.Isa

/-- The word moved right by `n` places, with copies of its sign bit moved in. -/
def shiftRightSigned (w n : UInt32) : UInt32 :=
  (w.toInt32 >>> n.toInt32).toUInt32

/-! ## Fields -/

/-- The `width` bits of the word from bit `low` on. -/
def bits (w low width : UInt32) : UInt32 :=
  (w >>> low) &&& (((1 : UInt32) <<< width) - 1)

def registerField (w low : UInt32) : RegIndex :=
  ⟨(w >>> low).toNat % 32, Nat.mod_lt _ (by decide)⟩

def rd (w : UInt32) : RegIndex := registerField w 7

def rs1 (w : UInt32) : RegIndex := registerField w 15

def rs2 (w : UInt32) : RegIndex := registerField w 20

/-- The selector between operations of one opcode. -/
def funct3 (w : UInt32) : UInt32 := bits w 12 3

def funct7 (w : UInt32) : UInt32 := w >>> 25

/-- The operation of an atomic update: the highest five bits. -/
def funct5 (w : UInt32) : UInt32 := w >>> 27

def csrNumber (w : UInt32) : UInt32 := w >>> 20

/-! ## Immediates -/

/-- The twelve-bit immediate of loads, register-immediate operations and `jalr`. -/
def immI (w : UInt32) : UInt32 :=
  shiftRightSigned w 20

/-- The twelve-bit immediate of stores. -/
def immS (w : UInt32) : UInt32 :=
  shiftRightSigned (w &&& 0xFE000000) 20 ||| bits w 7 5

/-- The thirteen-bit even offset of branches. -/
def immB (w : UInt32) : UInt32 :=
  shiftRightSigned (w &&& 0x80000000) 19 ||| (bits w 7 1 <<< 11) ||| (bits w 25 6 <<< 5) |||
    (bits w 8 4 <<< 1)

/-- The upper twenty bits, in place. -/
def immU (w : UInt32) : UInt32 :=
  w &&& 0xFFFFF000

/-- The 21-bit even offset of `jal`. -/
def immJ (w : UInt32) : UInt32 :=
  shiftRightSigned (w &&& 0x80000000) 11 ||| (w &&& (0xFF000 : UInt32)) ||| (bits w 20 1 <<< 11) |||
    (bits w 21 10 <<< 1)

/-! ## Selectors -/

def BranchTest.ofFunct3? : UInt32 → Option BranchTest
  | 0 => some .eq
  | 1 => some .ne
  | 4 => some .lt
  | 5 => some .ge
  | 6 => some .ltu
  | 7 => some .geu
  | _ => none

def LoadKind.ofFunct3? : UInt32 → Option LoadKind
  | 0 => some .byte
  | 1 => some .half
  | 2 => some .word
  | 4 => some .byteUnsigned
  | 5 => some .halfUnsigned
  | _ => none

def storeWidth? : UInt32 → Option Width
  | 0 => some .byte
  | 1 => some .half
  | 2 => some .word
  | _ => none

/-- The operation between a register and an immediate; shifts also fix the upper seven bits. -/
def AluOp.ofImmediateForm? (funct3 funct7 : UInt32) : Option AluOp :=
  match funct3 with
  | 0 => some .add
  | 2 => some .slt
  | 3 => some .sltu
  | 4 => some .xor
  | 6 => some .or
  | 7 => some .and
  | 1 => if funct7 = 0 then some .sll else none
  | 5 => if funct7 = 0 then some .srl else if funct7 = 0x20 then some .sra else none
  | _ => none

def AluOp.ofRegisterForm? (funct3 funct7 : UInt32) : Option AluOp :=
  if funct7 = 0 then
    match funct3 with
    | 0 => some .add
    | 1 => some .sll
    | 2 => some .slt
    | 3 => some .sltu
    | 4 => some .xor
    | 5 => some .srl
    | 6 => some .or
    | _ => some .and
  else if funct7 = 0x20 then
    match funct3 with
    | 0 => some .sub
    | 5 => some .sra
    | _ => none
  else none

def MulDivOp.ofFunct3 : UInt32 → MulDivOp
  | 0 => .mul
  | 1 => .mulh
  | 2 => .mulhsu
  | 3 => .mulhu
  | 4 => .div
  | 5 => .divu
  | 6 => .rem
  | _ => .remu

def AmoOp.ofFunct5? : UInt32 → Option AmoOp
  | 0b00001 => some .swap
  | 0b00000 => some .add
  | 0b00100 => some .xor
  | 0b01100 => some .and
  | 0b01000 => some .or
  | 0b10000 => some .min
  | 0b10100 => some .max
  | 0b11000 => some .minu
  | 0b11100 => some .maxu
  | _ => none

/-- The change that the lower two selector bits of a CSR word name. -/
def CsrOp.ofFunct3? (funct3 : UInt32) : Option CsrOp :=
  match funct3 &&& 3 with
  | 1 => some .write
  | 2 => some .set
  | 3 => some .clear
  | _ => none

/-! ## Words -/

/-- A SYSTEM word whose selector is zero is told by its CSR field alone. -/
def decodePrivileged (w : UInt32) : Option Instruction :=
  match csrNumber w with
  | 0x000 => some .ecall
  | 0x001 => some .ebreak
  | 0x302 => some .mret
  | 0x105 => some .wfi
  | _ => none

/-- A CSR access; the selector's upper bit makes the first source field an immediate. -/
def decodeCsr (w : UInt32) : Instruction :=
  let source : CsrSource :=
    if funct3 w &&& 4 = 0 then .register (rs1 w) else .immediate (rs1 w)
  .csr (CsrOp.ofFunct3? (funct3 w)) (rd w) source (csrNumber w)

/-- A word of the atomic extension, all of whose operations act on words. -/
def decodeAtomic (w : UInt32) : Option Instruction :=
  if funct3 w = 2 then
    match funct5 w with
    | 0b00010 => some (.loadReserved (rd w) (rs1 w))
    | 0b00011 => some (.storeConditional (rd w) (rs1 w) (rs2 w))
    | operation => some (.amo (AmoOp.ofFunct5? operation) (rd w) (rs1 w) (rs2 w))
  else none

/-- The instruction that a word encodes; `none` if the word is illegal in every state. -/
def decode (w : UInt32) : Option Instruction :=
  match w &&& 0x7F with
  | 0b0110111 => some (.lui (rd w) (immU w))
  | 0b0010111 => some (.auipc (rd w) (immU w))
  | 0b1101111 => some (.jal (rd w) (immJ w))
  | 0b1100111 => some (.jalr (rd w) (rs1 w) (immI w))
  | 0b1100011 =>
    (BranchTest.ofFunct3? (funct3 w)).map fun test => .branch test (rs1 w) (rs2 w) (immB w)
  | 0b0000011 => some (.load (LoadKind.ofFunct3? (funct3 w)) (rd w) (rs1 w) (immI w))
  | 0b0100011 => some (.store (storeWidth? (funct3 w)) (rs1 w) (rs2 w) (immS w))
  | 0b0010011 =>
    (AluOp.ofImmediateForm? (funct3 w) (funct7 w)).map fun op =>
      .aluImm op (rd w) (rs1 w) (immI w)
  | 0b0110011 =>
    if funct7 w = 1 then some (.mulDiv (MulDivOp.ofFunct3 (funct3 w)) (rd w) (rs1 w) (rs2 w))
    else
      (AluOp.ofRegisterForm? (funct3 w) (funct7 w)).map fun op =>
        .alu op (rd w) (rs1 w) (rs2 w)
  | 0b0001111 => some .fence
  | 0b1110011 => if funct3 w = 0 then decodePrivileged w else some (decodeCsr w)
  | 0b0101111 => decodeAtomic w
  | _ => none

end RiscvMachine.Isa
