import RiscvMachine.Hart.Basic
import RiscvMachine.Text.Numeral

set_option autoImplicit false

/-! # The hart in words

The text that shows the state of a hart to its operator: one line of control state, then the
general registers under their calling-convention names, eight to a line.
-/

namespace RiscvMachine

open Text

def registerNames : Vector String 32 :=
  #v["zero", "ra", "sp", "gp", "tp", "t0", "t1", "t2", "s0", "s1", "a0", "a1", "a2", "a3", "a4",
    "a5", "a6", "a7", "s2", "s3", "s4", "s5", "s6", "s7", "s8", "s9", "s10", "s11", "t3", "t4",
    "t5", "t6"]

def Privilege.name : Privilege → String
  | .user => "User"
  | .machine => "Machine"

namespace Hart

def registerText (h : Hart) (r : RegIndex) : String :=
  alignRight 4 (registerNames.get r) ++ ":" ++ hex 8 (h.registers.get r).toNat

/-- The separator after a register: every eighth ends its line. -/
def registerSeparator (r : RegIndex) : String :=
  if r.val % 8 = 7 then "\n" else " "

def report (h : Hart) : String :=
  let word (w : UInt32) := hex 8 w.toNat
  let status := s!"PC: {word h.pc} priv: {h.privilege.name} cycle: {decimal h.csr.cycle.toNat} " ++
    s!"mstatus: {word h.csr.mstatus} mcause: {word h.csr.mcause} mepc: {word h.csr.mepc}\n"
  status ++ String.join ((List.finRange 32).map fun r => h.registerText r ++ registerSeparator r)

end Hart

end RiscvMachine
