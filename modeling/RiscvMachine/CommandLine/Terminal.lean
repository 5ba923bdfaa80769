import RiscvMachine.Machine.Session

set_option autoImplicit false

/-! # The program's terminal

The terminal of a session between two turns of the program. Output is held until the program
shows it, and never fails. What the operator types, and the time, reach it before a turn.
-/

namespace RiscvMachine.CommandLine

/-- Output to be shown, whether the operator asks to stop, the time, whether to sleep, and
whether the last typed byte was an escape. -/
structure HeldTerminal where
  output : ByteArray := ByteArray.empty
  stop : Bool := false
  clock : UInt64 := 0
  idle : Bool := false
  escaped : Bool := false
  deriving Inhabited

instance : Terminal HeldTerminal where
  stopRequested t := t.stop
  clock t := t.clock
  write data := fun ⟨output, stop, clock, idle, escaped⟩ =>
    .ok () ⟨output ++ data, stop, clock, idle, escaped⟩
  flush := pure ()
  idle t := { t with idle := true }

end RiscvMachine.CommandLine
