import RiscvMachine.Hart.Basic
import RiscvMachine.Hart.Bus
import RiscvMachine.Isa.Arithmetic

set_option autoImplicit false

/-! # Execution of one instruction

`executeOne` fetches, decodes and executes one instruction on a hart and its bus. An
instruction that does not retire leaves the program counter on itself. Misaligned accesses
trap, so every bus call is naturally aligned.

The timer, its match register and the power register belong to the hart: they are recognised
by address before the width and the alignment of an access are looked at.
-/

namespace RiscvMachine

def timerMatchLowAddr : UInt32 := 0x11004000

def timerMatchHighAddr : UInt32 := 0x11004004

def timerLowAddr : UInt32 := 0x1100BFF8

def timerHighAddr : UInt32 := 0x1100BFFC

/-- Address of the power register: a store to it ends the batch. -/
def powerAddr : UInt32 := 0x11100000

/-- A hart and the bus it drives. -/
structure Core (σ : Type) where
  hart : Hart
  bus : σ

/-- Why an instruction did not retire. -/
inductive Interruption
  | trap (cause : Trap)
  | storage (error : StorageError)
  deriving DecidableEq, Repr

/-- What follows an instruction that retired. -/
inductive Flow
  | next
  | wait
  /-- The power register was written. -/
  | power (value : UInt32)
  deriving DecidableEq, Repr

/-- A computation on a hart and its bus that an interruption can cut short. -/
abbrev Exec (σ : Type) := EStateM Interruption (Core σ)

namespace Exec

variable {σ : Type}

@[inline] def getHart : Exec σ Hart :=
  return (← get).hart

@[inline] def onHart (change : Hart → Hart) : Exec σ Unit :=
  fun ⟨hart, bus⟩ => .ok () ⟨change hart, bus⟩

/-- Cuts the instruction short with a trap. -/
@[inline] def raise {α : Type} (cause : Trap) : Exec σ α :=
  throw (.trap cause)

/-- Makes a bus call; where nothing answers, the instruction traps with `cause`. -/
@[inline] def callBus {α : Type} (call : EStateM BusFault σ α) (cause : Trap) : Exec σ α :=
  fun ⟨hart, bus⟩ =>
    match call bus with
    | .ok value bus => .ok value ⟨hart, bus⟩
    | .error .unmapped bus => .error (.trap cause) ⟨hart, bus⟩
    | .error (.storage error) bus => .error (.storage error) ⟨hart, bus⟩

def advance (flow : Flow) : Exec σ Flow := do
  onHart fun h => { h with pc := h.pc + 4 }
  return flow

/-- Writes the result register and goes on to the next instruction. -/
def finish (rd : RegIndex) (value : UInt32) : Exec σ Flow := do
  onHart fun h => { h.setRegister rd value with pc := h.pc + 4 }
  return .next

/-- Goes to `target`, which must be a multiple of four. -/
def jump (target : UInt32) : Exec σ Flow := do
  if target &&& 3 != 0 then raise (.instructionAddressMisaligned target)
  onHart fun h => { h with pc := target }
  return .next

/-- Goes to `target` and leaves the address of the next instruction in `rd`. -/
def jumpAndLink (rd : RegIndex) (target : UInt32) : Exec σ Flow := do
  if target &&& 3 != 0 then raise (.instructionAddressMisaligned target)
  onHart fun h => { h.setRegister rd (h.pc + 4) with pc := target }
  return .next

/-! ## Memory -/

/-- The value that a load puts into its register. -/
def load [Bus σ] (word : UInt32) (kind : Option Isa.LoadKind) (addr : UInt32) :
    Exec σ UInt32 := do
  -- the hart answers for its timer itself, before the width is looked at
  if addr = timerLowAddr then
    return ControlRegisters.lowWord (← getHart).csr.timer
  if addr = timerHighAddr then
    return ControlRegisters.highWord (← getHart).csr.timer
  match kind with
  | none => raise (.illegalInstruction word)
  | some kind =>
    if !kind.width.aligned addr then raise (.loadAddressMisaligned addr)
    let value ← callBus (Bus.read kind.width addr) (.loadAccessFault addr)
    return kind.extend value

/-- Drops the reservation if it is on the word at `addr`. -/
def dropReservation (addr : UInt32) : Exec σ Unit :=
  onHart fun h =>
    if h.reservation = some addr then { h with reservation := none } else h

/-- Stores a value. A store to the reserved word drops the reservation, also if the bus then
refuses it. -/
def store [Bus σ] (word : UInt32) (width : Option Width) (addr value : UInt32) :
    Exec σ Flow := do
  -- these stores do not reach the bus, and their width is not looked at
  if addr = powerAddr then
    return ← advance (.power value)
  if addr = timerMatchLowAddr then
    onHart fun h => { h with csr := h.csr.withTimerMatchLow value }
    return ← advance .next
  if addr = timerMatchHighAddr then
    onHart fun h => { h with csr := h.csr.withTimerMatchHigh value }
    return ← advance .next
  match width with
  | none => raise (.illegalInstruction word)
  | some width =>
    if !width.aligned addr then raise (.storeAddressMisaligned addr)
    dropReservation (addr &&& 0xFFFFFFFC)
    callBus (Bus.write width addr (width.truncate value)) (.storeAccessFault addr)
    advance .next

/-! ## Control registers -/

def readCsr [Bus σ] (word number : UInt32) : Exec σ UInt32 := do
  match CoreCsr.ofNumber? number with
  | some csr => return (← getHart).csr.read csr
  | none => callBus (Bus.readCsr number) (.illegalInstruction word)

def writeCsr [Bus σ] (word number value : UInt32) : Exec σ Unit := do
  match CoreCsr.ofWrittenNumber? number with
  | some csr => onHart fun h => { h with csr := h.csr.write csr value }
  | none => callBus (Bus.writeCsr number value) (.illegalInstruction word)

def isMachineCsr (number : UInt32) : Bool :=
  (number >>> 8) &&& 3 == 3

/-- A CSR instruction. A plain write skips the read if nothing receives the old value; the
other forms skip the write if their operand field is zero. -/
def accessCsr [Bus σ] (word : UInt32) (op : Option Isa.CsrOp) (rd : RegIndex)
    (source : Isa.CsrSource) (number : UInt32) : Exec σ Flow := do
  let h ← getHart
  if h.privilege = .user && isMachineCsr number then raise (.illegalInstruction word)
  let operand :=
    match source with
    | .register rs1 => h.register rs1
    | .immediate value => UInt32.ofNat value.val
  let old ← if op ≠ some .write || rd.val ≠ 0 then readCsr word number else pure 0
  if op = some .write || source.field.val ≠ 0 then
    match op with
    | some op => writeCsr word number (op.apply old operand)
    | none => raise (.illegalInstruction word)
  finish rd old

/-! ## Atomic updates -/

/-- Loads a word and reserves its address. -/
def loadReserved [Bus σ] (rd : RegIndex) (addr : UInt32) : Exec σ Flow := do
  if !Width.word.aligned addr then raise (.loadAddressMisaligned addr)
  let value ← callBus (Bus.read .word addr) (.loadAccessFault addr)
  onHart fun h => { h with reservation := some addr }
  finish rd value

/-- Stores a word if its address is reserved, and answers zero if it did. The reservation is
gone afterwards in any case. -/
def storeConditional [Bus σ] (rd : RegIndex) (addr value : UInt32) : Exec σ Flow := do
  if !Width.word.aligned addr then raise (.storeAddressMisaligned addr)
  let reserved := (← getHart).reservation = some addr
  -- dropped before the store, which the bus may refuse
  onHart fun h => { h with reservation := none }
  if reserved then
    callBus (Bus.write .word addr value) (.storeAccessFault addr)
  finish rd (Isa.flag (!reserved))

/-- Replaces a word by the result of an operation on it and answers the old word. An undefined
operation is refused after the read. -/
def atomicUpdate [Bus σ] (word : UInt32) (op : Option Isa.AmoOp) (rd : RegIndex)
    (addr operand : UInt32) : Exec σ Flow := do
  if !Width.word.aligned addr then raise (.storeAddressMisaligned addr)
  let old ← callBus (Bus.read .word addr) (.storeAccessFault addr)
  match op with
  | none => raise (.illegalInstruction word)
  | some op =>
    callBus (Bus.write .word addr (op.apply old operand)) (.storeAccessFault addr)
    dropReservation addr
    finish rd old

/-! ## Instructions -/

def execute [Bus σ] (word : UInt32) (instruction : Isa.Instruction) : Exec σ Flow := do
  match instruction with
  | .lui rd imm => finish rd imm
  | .auipc rd imm => finish rd ((← getHart).pc + imm)
  | .jal rd offset => jumpAndLink rd ((← getHart).pc + offset)
  | .jalr rd rs1 offset =>
    -- the target of an indirect jump is made even
    jumpAndLink rd (((← getHart).register rs1 + offset) &&& 0xFFFFFFFE)
  | .branch test rs1 rs2 offset =>
    let h ← getHart
    if test.holds (h.register rs1) (h.register rs2) then jump (h.pc + offset)
    else advance .next
  | .load kind rd rs1 offset =>
    let addr := (← getHart).register rs1 + offset
    finish rd (← load word kind addr)
  | .store width rs1 rs2 offset =>
    let h ← getHart
    let addr := h.register rs1 + offset
    let value := h.register rs2
    store word width addr value
  | .aluImm op rd rs1 imm =>
    finish rd (op.apply ((← getHart).register rs1) imm)
  | .alu op rd rs1 rs2 =>
    let h ← getHart
    let value := op.apply (h.register rs1) (h.register rs2)
    finish rd value
  | .mulDiv op rd rs1 rs2 =>
    let h ← getHart
    let value := op.apply (h.register rs1) (h.register rs2)
    finish rd value
  | .fence => advance .next
  | .ecall =>
    match (← getHart).privilege with
    | .user => raise .environmentCallFromUser
    | .machine => raise .environmentCallFromMachine
  | .ebreak => raise (.breakpoint (← getHart).pc)
  | .mret =>
    if (← getHart).privilege = .user then raise (.illegalInstruction word)
    onHart Hart.returnFromTrap
    return .next
  | .wfi =>
    onHart fun h =>
      { h with
        waiting := true
        csr := { h.csr with mstatus := h.csr.mstatus ||| Mstatus.mie } }
    advance .wait
  | .csr op rd source number => accessCsr word op rd source number
  | .loadReserved rd rs1 =>
    let addr := (← getHart).register rs1
    loadReserved rd addr
  | .storeConditional rd rs1 rs2 =>
    let h ← getHart
    let addr := h.register rs1
    let value := h.register rs2
    storeConditional rd addr value
  | .amo op rd rs1 rs2 =>
    let h ← getHart
    let addr := h.register rs1
    let value := h.register rs2
    atomicUpdate word op rd addr value

/-- Fetches the word at the program counter, which must be a multiple of four in RAM, and
counts a cycle. -/
def fetch [Bus σ] : Exec σ UInt32 := do
  let h ← getHart
  let pc := h.pc
  if pc &&& 3 != 0 then raise (.instructionAddressMisaligned pc)
  if h.ramSize ≤ pc - ramBase then raise (.instructionAccessFault pc)
  let word ← callBus (Bus.read .word pc) (.instructionAccessFault pc)
  onHart fun h => { h with csr := h.csr.advanceCycles 1 }
  return word

def executeOne [Bus σ] : Exec σ Flow := do
  let word ← fetch
  match Isa.decode word with
  | some instruction => execute word instruction
  | none => raise (.illegalInstruction word)

end Exec

end RiscvMachine
