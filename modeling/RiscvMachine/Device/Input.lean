import RiscvMachine.Device.Keyboard

set_option autoImplicit false

/-! # Host input

A source of bytes as the reads that it will answer, and the pump that carries typed bytes to
the keyboard queue. `Ctrl-A` is the escape byte of the pump: `Ctrl-A x` stops the machine,
`Ctrl-A Ctrl-A` types a `Ctrl-A`, and `Ctrl-A` before any other byte drops that byte.
-/

namespace RiscvMachine

/-- What a source does at one moment: hands out bytes, is interrupted, or fails. -/
inductive InputEvent
  | data (bytes : ByteArray)
  | interrupted
  | failed
  deriving Inhabited

/-- A source of bytes: its events to come, and how much of the first one has been read. After
the last event, and at data of no bytes, the source is at its end. -/
structure InputSource where
  events : List InputEvent
  position : Nat
  deriving Inhabited

/-- What one read answers. No bytes mean the end. -/
inductive ReadAnswer
  | bytes (data : ByteArray)
  | interrupted
  | failed
  deriving Inhabited

namespace InputSource

def ofBytes (bytes : ByteArray) : InputSource := ⟨[.data bytes], 0⟩

def read (limit : Nat) : StateM InputSource ReadAnswer := fun ⟨events, position⟩ =>
  match events with
  | [] => (.bytes ByteArray.empty, ⟨[], 0⟩)
  | .interrupted :: rest => (.interrupted, ⟨rest, 0⟩)
  | .failed :: rest => (.failed, ⟨rest, 0⟩)
  | .data bytes :: rest =>
    let stop := min bytes.size (position + limit)
    let answer := ReadAnswer.bytes (bytes.extract position stop)
    if stop = bytes.size then (answer, ⟨rest, 0⟩) else (answer, ⟨.data bytes :: rest, stop⟩)

end InputSource

/-- `Ctrl-A`. -/
def escapeByte : UInt8 := 0x01

/-- The pump between two bytes. -/
structure Pump where
  queue : KeyQueue
  /-- Whether the last byte was an escape. -/
  escaped : Bool
  /-- Whether the machine is to stop. -/
  stop : Bool
  deriving DecidableEq, Repr, Inhabited

namespace Pump

/-- What one typed byte does. Nothing is done once the machine is to stop. -/
def byte (p : Pump) (b : UInt8) : Pump :=
  if p.stop then p
  else if p.escaped then
    if b = 0x78 ∨ b = 0x58 then { p with escaped := false, stop := true }
    else if b = escapeByte then { p with escaped := false, queue := p.queue.send escapeByte }
    else { p with escaped := false }
  else if b = escapeByte then { p with escaped := true }
  else { p with queue := p.queue.send b }

/-- Carries bytes until the end of the source, a failure, or the stop sequence. -/
def run : List InputEvent → Pump → Pump
  | [], p => p
  | .interrupted :: rest, p => if p.stop then p else run rest p
  | .failed :: _, p => p
  | .data bytes :: rest, p =>
    if p.stop ∨ bytes.isEmpty then p else run rest (bytes.foldl byte p)

end Pump

end RiscvMachine
