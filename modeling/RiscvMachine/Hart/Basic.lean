import RiscvMachine.Hart.ControlRegisters
import RiscvMachine.Hart.Trap
import RiscvMachine.Isa.Instruction

set_option autoImplicit false

/-! # The hart

The architectural state of the one hardware thread, trap entry and return, and the choice of
the interrupt to take.
-/

namespace RiscvMachine

/-- Where guest RAM starts in the guest's address space. -/
def ramBase : UInt32 := 0x80000000

inductive Privilege
  | user
  | machine
  deriving DecidableEq, Repr

/-- The number of a mode in `mstatus`. -/
def Privilege.code : Privilege → UInt32
  | .user => 0
  | .machine => 3

/-- The mode that a number stands for: its lower two bits decide, and only zero is user mode. -/
def Privilege.ofCode (code : UInt32) : Privilege :=
  if code &&& 3 = 0 then .user else .machine

/-- What happens when an instruction raises an exception. -/
inductive FaultPolicy
  /-- The guest's trap handler is entered. -/
  | delegate
  /-- The batch ends with a fault. -/
  | failFast
  deriving DecidableEq, Repr

structure Hart where
  pc : UInt32
  /-- The general registers. The first one's storage is never read by an instruction. -/
  registers : Vector UInt32 32
  csr : ControlRegisters
  privilege : Privilege
  /-- Whether the hart waits for an interrupt. -/
  waiting : Bool
  /-- The address reserved by the last load-reserved. -/
  reservation : Option UInt32
  faultPolicy : FaultPolicy
  /-- The size of guest RAM, outside of which nothing is fetched. -/
  ramSize : UInt32
  /-- The exception that ended the last batch, if the policy is to fail fast. -/
  lastFault : Option Trap
  deriving DecidableEq, Repr

namespace Hart

/-- A hart at the start of RAM in machine mode, everything else zero. -/
def new (ramSize : UInt32) (faultPolicy : FaultPolicy) : Hart where
  pc := ramBase
  registers := Vector.replicate 32 0
  csr := {}
  privilege := .machine
  waiting := false
  reservation := none
  faultPolicy := faultPolicy
  ramSize := ramSize
  lastFault := none

/-! ## General registers -/

/-- The value of a register; register zero reads as zero. -/
def register (h : Hart) (r : RegIndex) : UInt32 :=
  if r = 0 then 0 else h.registers[r]

/-- The hart after writing a register; writes to register zero are dropped. -/
def setRegister (h : Hart) (r : RegIndex) (value : UInt32) : Hart :=
  if r = 0 then h else { h with registers := h.registers.set r value }

/-- The hart after writing a register's storage, register zero's included. -/
def setStorage (h : Hart) (r : RegIndex) (value : UInt32) : Hart :=
  { h with registers := h.registers.set r value }

/-- The value under an arbitrary register number. Numbers count modulo 32, but only the number
zero itself stands for the constant: 32 reads the storage of register zero. -/
def registerNumbered (h : Hart) (number : UInt32) : UInt32 :=
  if number = 0 then 0 else h.registers[Fin.ofNat 32 number.toNat]

/-- The hart after writing under an arbitrary register number. -/
def setRegisterNumbered (h : Hart) (number value : UInt32) : Hart :=
  if number = 0 then h else h.setStorage (Fin.ofNat 32 number.toNat) value

/-- Register `a1`, which holds the device tree's address at boot. -/
def deviceTreeRegister : RegIndex := 11

/-- The state in which a guest starts: machine mode at the start of RAM, with the device
tree's address in `a1` and the hart's number, zero, in `a0`. Policy and RAM size stay. -/
def boot (h : Hart) (deviceTree : UInt32) : Hart where
  pc := ramBase
  registers := (Vector.replicate 32 0).set deviceTreeRegister deviceTree
  csr := {}
  privilege := .machine
  waiting := false
  reservation := none
  faultPolicy := h.faultPolicy
  ramSize := h.ramSize
  lastFault := none

/-! ## Traps -/

/-- Where the handler of a trap starts: the base in `mtvec`, plus four bytes per cause number
for an interrupt in vectored mode. -/
def handlerAddress (mtvec : UInt32) (t : Trap) : UInt32 :=
  let base := mtvec &&& 0xFFFFFFFC
  if mtvec &&& 3 = 1 && t.isInterrupt then base + 4 * (t.code &&& 0x7FFFFFFF) else base

/-- Enters the machine-mode handler. All of `mstatus` but the saved interrupt enable and the
saved privilege is cleared. -/
def enterTrap (h : Hart) (t : Trap) : Hart :=
  { h with
    pc := handlerAddress h.csr.mtvec t
    privilege := .machine
    waiting := false
    csr := { h.csr with
      mepc := h.pc
      mcause := t.code
      mtval := t.value
      mstatus := ((h.csr.mstatus &&& Mstatus.mie) <<< 4) ||| (h.privilege.code <<< 11) } }

/-- Returns from the handler: restores privilege and interrupt enable and goes to `mepc`. -/
def returnFromTrap (h : Hart) : Hart :=
  let status := h.csr.mstatus
  { h with
    pc := h.csr.mepc
    privilege := Privilege.ofCode ((status &&& Mstatus.mpp) >>> 11)
    csr := { h.csr with
      mstatus := (status &&& ~~~(Mstatus.mie ||| Mstatus.mpp)) |||
        ((status &&& Mstatus.mpie) >>> 4) ||| Mstatus.mpie } }

/-- Whether the hart accepts interrupts: always in user mode, else if they are enabled. -/
def acceptsInterrupts (h : Hart) : Bool :=
  h.privilege == .user || h.csr.mstatus &&& Mstatus.mie != 0

/-- The interrupt to take: pending, enabled and accepted, external before software before
timer. -/
def pendingInterrupt (h : Hart) : Option Trap :=
  let pending := h.csr.mip &&& h.csr.mie
  if !h.acceptsInterrupts then none
  else if pending &&& Mip.external != 0 then some .machineExternalInterrupt
  else if pending &&& Mip.software != 0 then some .machineSoftwareInterrupt
  else if pending &&& Mip.timer != 0 then some .machineTimerInterrupt
  else none

end Hart

end RiscvMachine
