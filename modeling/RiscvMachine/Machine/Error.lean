import RiscvMachine.Config.Basic
import RiscvMachine.DeviceTree.Template
import RiscvMachine.Storage.Error

set_option autoImplicit false

/-! # Failures of a session

What can go wrong on the host's side while a machine is built, booted and run. What the guest
does wrong it learns through traps, and never shows here.
-/

namespace RiscvMachine

inductive ImageError
  /-- The source fails, or what it holds is no valid compressed file. -/
  | unreadable
  /-- The image is larger than RAM. -/
  | tooLarge (ramSize : UInt32)
  /-- The image reaches into the device tree. -/
  | overlapsDeviceTree (length : Nat) (offset : UInt32)
  /-- The program gave up while it loaded the image. -/
  | panic (why : Panic)
  deriving DecidableEq, Repr

/-- What ends a session with an error. -/
inductive MachineError
  | config (error : ConfigError)
  | storage (error : StorageError)
  | image (error : ImageError)
  /-- The operator's console does not take what it is given. -/
  | console
  | deviceTree (error : DeviceTreeError)
  deriving DecidableEq, Repr

open Text in
/-- The text of an error; there is none for a source that cannot be read. -/
def ImageError.message? : ImageError → Option String
  | unreadable => none
  | tooLarge ramSize =>
    some ("failed to load guest image: image is larger than " ++
      s!"{decimal ramSize.toNat} bytes of RAM")
  | overlapsDeviceTree length offset =>
    some (s!"failed to load guest image: {decimal length} byte image overlaps the device tree " ++
      s!"at RAM offset 0x{hex 1 offset.toNat}")
  | panic why => some why.message

/-- Why the program gave up, if it did. -/
def MachineError.panic? : MachineError → Option Panic
  | config (.panic why) => some why
  | storage (.panic why) => some why
  | image (.panic why) => some why
  | deviceTree (.panic why) => some why
  | _ => none

/-- The text of an error, where the library has words of its own for it. Giving up is not told as
an error of the machine. -/
def MachineError.message? (error : MachineError) : Option String :=
  match error.panic?, error with
  | some why, _ => some why.message
  | none, config error => some ("configuration error: " ++ error.message)
  | none, storage error => some ("backing store error: " ++ error.message)
  | none, image error => error.message?
  | none, console => none
  | none, deviceTree error => error.message?

end RiscvMachine
