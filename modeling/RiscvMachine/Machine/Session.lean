import RiscvMachine.Machine.Basic

set_option autoImplicit false

/-! # Sessions

A session runs a booted machine in batches of instructions until the guest ends it, the operator
stops it, or something fails. Before each batch the time that has passed is handed to the timer;
after each batch the guest's output goes to the operator's terminal. `Session.turn` is one batch
with all that belongs to it.
-/

namespace RiscvMachine

inductive MachineExit
  | reboot
  /-- The guest switched the machine off, or the operator stopped it. -/
  | powerOff
  | fault
  /-- The guest wrote some other value to the power register. -/
  | unknown (value : UInt32)
  deriving DecidableEq, Repr

/-- The operator's terminal, whose states are `τ`. Output can fail, and then as much of it is
shown as the terminal likes. -/
class Terminal (τ : Type) where
  /-- Whether the operator asks to stop. -/
  stopRequested : τ → Bool
  /-- The host's clock in microseconds. -/
  clock : τ → UInt64
  write : ByteArray → EStateM Unit τ Unit
  flush : EStateM Unit τ Unit
  /-- Sleeps for a moment. -/
  idle : τ → τ

/-- A machine at a terminal, and the time that has been handed to its timer. -/
structure Session (υ τ : Type) where
  machine : Machine υ
  terminal : τ
  time : UInt64

namespace Session

variable {υ τ : Type} [StorageUnit υ] [Terminal τ]

/-- The present time in units of the timer. -/
def now (s : Session υ τ) : UInt64 :=
  let config := s.machine.config
  let time := match config.timing with
    | .fixed => s.machine.hart.csr.cycle
    | .wallClock => Terminal.clock s.terminal
  time / config.timeDivisor.toUInt64

/-- A session before its first batch. With the host's clock, time starts now; with the cycle
counter, at zero. -/
def start (machine : Machine υ) (terminal : τ) : Session υ τ :=
  match machine.config.timing with
  | .fixed => ⟨machine, terminal, 0⟩
  | .wallClock => ⟨machine, terminal, (⟨machine, terminal, 0⟩ : Session υ τ).now⟩

def onTerminal {α : Type} (request : EStateM Unit τ α) :
    EStateM MachineError (Session υ τ) α := fun ⟨machine, terminal, time⟩ =>
  match request terminal with
  | .ok answer terminal => .ok answer ⟨machine, terminal, time⟩
  | .error () terminal => .error .console ⟨machine, terminal, time⟩

def onMachine {α : Type} (request : EStateM MachineError (Machine υ) α) :
    EStateM MachineError (Session υ τ) α := fun ⟨machine, terminal, time⟩ =>
  match request machine with
  | .ok answer machine => .ok answer ⟨machine, terminal, time⟩
  | .error error machine => .error error ⟨machine, terminal, time⟩

/-- Shows a line of text, on a line of its own. -/
def showLine (text : String) : EStateM MachineError (Session υ τ) Unit :=
  onTerminal (Terminal.write ("\r\n" ++ text ++ "\n").toUTF8)

/-- Advances the time of the session to the present, but never back, and tells by how much. -/
def passTime : EStateM MachineError (Session υ τ) UInt64 := fun s =>
  let present := s.now
  let ⟨machine, terminal, time⟩ := s
  let elapsed := if time ≤ present then present - time else 0
  .ok elapsed ⟨machine, terminal, time + elapsed⟩

def showOutput : EStateM MachineError (Session υ τ) Unit := do
  let output ← onMachine fun m =>
    let (output, m) := Machine.takeOutput m
    .ok output m
  if !output.isEmpty then
    onTerminal (Terminal.write output)
    onTerminal Terminal.flush

/-- Waits with the guest: the cycles of a batch pass, and the host may sleep meanwhile. -/
def await : EStateM MachineError (Session υ τ) Unit := fun ⟨machine, terminal, time⟩ =>
  let terminal := if machine.config.idleOnWait then Terminal.idle terminal else terminal
  let cycles := machine.config.instructionsPerBatch.toUInt64
  .ok () ⟨machine.onHart fun h => { h with csr := h.csr.advanceCycles cycles }, terminal, time⟩

/-- Ends the session after a batch, with a last line for the operator, or goes on. -/
def conclude (outcome : Outcome) : EStateM MachineError (Session υ τ) (Option MachineExit) := do
  let cycle := Text.hex 16 (← get).machine.hart.csr.cycle.toNat
  match outcome with
  | .ran => return none
  | .waitForInterrupt =>
    await
    return none
  | .fault =>
    showLine "FAULT"
    return some .fault
  | .reboot =>
    showLine ("REBOOT@0x" ++ cycle)
    return some .reboot
  | .powerOff =>
    showLine ("POWEROFF@0x" ++ cycle)
    return some .powerOff
  | .unknown value =>
    showLine s!"Unknown failure (0x{Text.hex 1 value.toNat})"
    return some (.unknown value)

/-- Ends the session for the operator, who is shown a dump. -/
def stop : EStateM MachineError (Session υ τ) MachineExit := do
  showLine (← get).machine.dump.report
  onTerminal Terminal.flush
  return .powerOff

/-- Executes one batch and tells how it advanced the guest. -/
def executeBatch : EStateM MachineError (Session υ τ) Outcome := do
  let elapsed ← passTime
  let limit := (← get).machine.config.instructionsPerBatch
  onMachine (Machine.step limit elapsed)

/-- One turn: stops if the operator asks for it, else executes a batch and shows its output. -/
def turn : EStateM MachineError (Session υ τ) (Option MachineExit) := do
  if Terminal.stopRequested (← get).terminal then return some (← stop)
  let outcome ← executeBatch
  showOutput
  conclude outcome

/-- Takes turns until the session ends; `none` if it has not ended after so many. -/
def run : Nat → EStateM MachineError (Session υ τ) (Option MachineExit)
  | 0 => pure none
  | turns + 1 => fun s =>
    match turn s with
    | .ok none s => run turns s
    | .ok (some exit) s => .ok (some exit) s
    | .error error s => .error error s

end Session

end RiscvMachine
