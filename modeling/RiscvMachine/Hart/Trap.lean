set_option autoImplicit false

/-! # Trap causes

The exceptions and interrupts of the machine, with the numbers that identify them in `mcause`
and the value that goes to `mtval`.
-/

namespace RiscvMachine

/-- The cause of a trap. Exceptions that concern an address or a word carry it. -/
inductive Trap
  | instructionAddressMisaligned (target : UInt32)
  | instructionAccessFault (addr : UInt32)
  | illegalInstruction (word : UInt32)
  | breakpoint (pc : UInt32)
  | loadAddressMisaligned (addr : UInt32)
  | loadAccessFault (addr : UInt32)
  | storeAddressMisaligned (addr : UInt32)
  | storeAccessFault (addr : UInt32)
  | environmentCallFromUser
  | environmentCallFromMachine
  | machineSoftwareInterrupt
  | machineTimerInterrupt
  | machineExternalInterrupt
  deriving DecidableEq, Repr

namespace Trap

/-- The number in `mcause`. Interrupts have the highest bit set. -/
def code : Trap → UInt32
  | instructionAddressMisaligned _ => 0
  | instructionAccessFault _ => 1
  | illegalInstruction _ => 2
  | breakpoint _ => 3
  | loadAddressMisaligned _ => 4
  | loadAccessFault _ => 5
  | storeAddressMisaligned _ => 6
  | storeAccessFault _ => 7
  | environmentCallFromUser => 8
  | environmentCallFromMachine => 11
  | machineSoftwareInterrupt => 0x80000003
  | machineTimerInterrupt => 0x80000007
  | machineExternalInterrupt => 0x8000000B

/-- The value for `mtval`; zero for causes that carry none. -/
def value : Trap → UInt32
  | instructionAddressMisaligned v
  | instructionAccessFault v
  | illegalInstruction v
  | breakpoint v
  | loadAddressMisaligned v
  | loadAccessFault v
  | storeAddressMisaligned v
  | storeAccessFault v => v
  | environmentCallFromUser
  | environmentCallFromMachine
  | machineSoftwareInterrupt
  | machineTimerInterrupt
  | machineExternalInterrupt => 0

def isInterrupt (t : Trap) : Bool :=
  t.code &&& 0x80000000 != 0

end Trap

end RiscvMachine
