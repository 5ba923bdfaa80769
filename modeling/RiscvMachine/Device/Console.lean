import RiscvMachine.Device.Keyboard

set_option autoImplicit false

/-! # The guest's console

What the guest can type and print with: the keyboard queue, the bytes printed since they were
last taken, and the registers of the serial line in front of both. Of the line only the data
register and the line status register do anything.
-/

namespace RiscvMachine

/-- Typed bytes for the guest and printed bytes from it. -/
structure GuestConsole where
  keys : KeyQueue
  output : ByteArray
  deriving Inhabited

namespace GuestConsole

def new (capacity : Nat) : GuestConsole := ⟨KeyQueue.new capacity, ByteArray.empty⟩

def key : StateM GuestConsole (Option UInt8) := fun ⟨keys, output⟩ =>
  let (byte, keys) := KeyQueue.pop keys
  (byte, ⟨keys, output⟩)

def print (c : GuestConsole) (byte : UInt8) : GuestConsole :=
  let ⟨keys, output⟩ := c
  ⟨keys, output.push byte⟩

/-- The printed bytes, which are gone from the console afterwards. -/
def take : StateM GuestConsole ByteArray := fun ⟨keys, output⟩ =>
  (output, ⟨keys, ByteArray.empty⟩)

end GuestConsole

namespace SerialLine

def dataRegister : UInt32 := 0

def statusRegister : UInt32 := 5

/-- The status: always ready to transmit, and whether a typed byte waits. -/
def status (keys : KeyQueue) : UInt32 :=
  if keys.hasData then 0x61 else 0x60

/-- Reads a register. The data register answers the next typed byte, or zero. -/
def load (offset : UInt32) : StateM GuestConsole UInt32 := do
  if offset = dataRegister then
    let byte ← GuestConsole.key
    return (byte.getD 0).toUInt32
  else if offset = statusRegister then
    return status (← get).keys
  else
    return 0

/-- Writes a register. The data register prints the lowest byte. -/
def store (offset value : UInt32) (c : GuestConsole) : GuestConsole :=
  if offset = dataRegister then c.print value.toUInt8 else c

end SerialLine

end RiscvMachine
