import RiscvMachine.Device.DebugChannel
import RiscvMachine.Hart.Bus

set_option autoImplicit false

/-! # The platform

What the hart of the machine finds on its bus: a window of devices, of which only the serial
line answers, and RAM through the cache. In the rest of the window reads give zero and writes do
nothing. Control registers that the hart does not hold belong to the debug channel.
-/

namespace RiscvMachine

def deviceBase : UInt32 := 0x10000000

def deviceEnd : UInt32 := 0x12000000

def serialBase : UInt32 := 0x10000000

def serialSize : UInt32 := 8

/-- Everything on the bus: RAM behind the cache, and the console. -/
structure Platform (υ : Type) where
  cache : Cache υ
  console : GuestConsole
  ramSize : UInt32

namespace Platform

def isDevice (addr : UInt32) : Bool :=
  deviceBase ≤ addr && addr < deviceEnd

def isSerial (addr : UInt32) : Bool :=
  serialBase ≤ addr && addr < serialBase + serialSize

/-- The place in RAM of an access that lies wholly in it. -/
def ramOffset? (ramSize addr : UInt32) (width : Width) : Option UInt32 :=
  if ramBase ≤ addr && (addr - ramBase).toNat + width.bytes ≤ ramSize.toNat then
    some (addr - ramBase)
  else none

def readDevice (width : Width) (addr : UInt32) : StateM GuestConsole UInt32 := do
  if isSerial addr then return width.truncate (← SerialLine.load (addr - serialBase))
  else return 0

def writeDevice (addr value : UInt32) (console : GuestConsole) : GuestConsole :=
  if isSerial addr then SerialLine.store (addr - serialBase) value console else console

variable {υ : Type}

def onConsole {α : Type} (request : StateM GuestConsole α) : EStateM BusFault (Platform υ) α :=
  fun ⟨cache, console, ramSize⟩ =>
    let (answer, console) := request console
    .ok answer ⟨cache, console, ramSize⟩

def onCache {α : Type} (request : EStateM StorageError (Cache υ) α) :
    EStateM BusFault (Platform υ) α :=
  fun ⟨cache, console, ramSize⟩ =>
    match request cache with
    | .ok answer cache => .ok answer ⟨cache, console, ramSize⟩
    | .error error cache => .error (.storage error) ⟨cache, console, ramSize⟩

variable [StorageUnit υ]

def read (width : Width) (addr : UInt32) : EStateM BusFault (Platform υ) UInt32 := do
  if isDevice addr then onConsole (readDevice width addr)
  else
    match ramOffset? (← get).ramSize addr width with
    | some offset => onCache (Cache.readNumber width offset)
    | none => throw .unmapped

def write (width : Width) (addr value : UInt32) : EStateM BusFault (Platform υ) Unit := do
  if isDevice addr then
    onConsole fun console => ((), writeDevice addr (width.truncate value) console)
  else
    match ramOffset? (← get).ramSize addr width with
    | some offset => onCache (Cache.writeNumber width offset value)
    | none => throw .unmapped

/-- Writes a register of the debug channel. What was printed before a failure is kept. -/
def writeCsr (number value : UInt32) : EStateM BusFault (Platform υ) Unit :=
  fun ⟨cache, ⟨keys, output⟩, ramSize⟩ =>
    match DebugChannel.write ramSize number value (cache, output) with
    | .ok () (cache, output) => .ok () ⟨cache, ⟨keys, output⟩, ramSize⟩
    | .error error (cache, output) => .error (.storage error) ⟨cache, ⟨keys, output⟩, ramSize⟩

instance : Bus (Platform υ) where
  read := read
  write := write
  readCsr number := onConsole (DebugChannel.read number)
  writeCsr := writeCsr

end Platform

end RiscvMachine
