import RiscvMachine.Cache.Basic
import RiscvMachine.Device.Console
import RiscvMachine.Hart.Basic

set_option autoImplicit false

/-! # The debug channel

Control registers outside the architecture with which a guest prints and types without a
driver: 0x136 prints a signed decimal number, 0x137 a hexadecimal one, 0x138 the zero-terminated
string at a guest address, 0x139 one byte; 0x140 reads a key. What has been printed stays
printed if the store fails in the middle of a string.
-/

namespace RiscvMachine.DebugChannel

/-- What the key register reads when no key waits. -/
def noKey : UInt32 := 0xFFFFFFFF

/-- Reads a register; all but the key register read zero. -/
def read (number : UInt32) : StateM GuestConsole UInt32 := do
  if number = 0x140 then
    return match (← GuestConsole.key) with
      | some byte => byte.toUInt32
      | none => noKey
  else
    return 0

variable {υ : Type} [StorageUnit υ]

/-- Prints the bytes of RAM from `offset` on, up to a zero byte and at most `n`. -/
def printString : Nat → UInt32 → EStateM StorageError (Cache υ × ByteArray) Unit
  | 0, _ => pure ()
  | n + 1, offset => fun (cache, output) =>
    match Cache.readNumber .byte offset cache with
    | .ok value cache =>
      if value = 0 then .ok () (cache, output)
      else printString n (offset + 1) (cache, output.push value.toUInt8)
    | .error error cache => .error error (cache, output)

/-- Writes a register: prints to `output` behind the cache. Registers that are not of the
channel ignore the write, and so does the string register for an address outside RAM. -/
def write (ramSize number value : UInt32) :
    EStateM StorageError (Cache υ × ByteArray) Unit := do
  let print (bytes : ByteArray) : EStateM StorageError (Cache υ × ByteArray) Unit :=
    modify fun (cache, output) => (cache, output ++ bytes)
  if number = 0x136 then print (Text.signedDecimal value.toInt32.toInt).toUTF8
  else if number = 0x137 then print (Text.hex 8 value.toNat).toUTF8
  else if number = 0x138 then
    let start := value - ramBase
    printString (ramSize.toNat - start.toNat) start
  else if number = 0x139 then print ⟨#[value.toUInt8]⟩
  else pure ()

end RiscvMachine.DebugChannel
