import RiscvMachine.Hart.Step
import RiscvMachine.Machine.Error
import RiscvMachine.Machine.Platform
import RiscvMachine.Snapshot.Basic

set_option autoImplicit false

/-! # The machine

A hart with its platform, the configuration they were built from, and the device tree that is
handed to the guest at boot. Nothing runs before a boot.
-/

namespace RiscvMachine

/-- A machine over storage units of any kind. -/
structure Machine (υ : Type) where
  config : Config
  hart : Hart
  platform : Platform υ
  deviceTree : DeviceTree

namespace Machine

/-! ## Building -/

/-- The bytes that the host takes for the handle of a unit. -/
def unitHandleSize : Nat := 16

/-- Storage units as configured. Files are opened in the given directory, if it exists. -/
def openUnits (backing : BackingConfig) : EStateM StorageError (Option UnitDirectory)
    (Array Medium) := fun dir? =>
  let count := backing.unitCount.toNat
  match Checked.allocate count unitHandleSize, backing.kind, dir? with
  | .error why, _, _ => .error (.panic why) dir?
  | .ok (), .memory, _ => .ok (Array.replicate count (.memory backing.unitCapacity)) dir?
  | .ok (), .file _, none => if count = 0 then .ok #[] dir? else .error (.io 0) dir?
  | .ok (), .file _, some dir =>
    let units := dir.openUnits count backing.unitCapacity
    .ok units (some (dir.keep units))

/-- The device tree as configured, given what its file holds. -/
def chooseDeviceTree (config : Config) (file : Option ByteArray) :
    Except DeviceTreeError DeviceTree :=
  match config.deviceTree, file with
  | none, _ => .ok (.describe DeviceTree.defaultBootArguments)
  | some _, none => .error .unreadable
  | some custom, some blob => DeviceTree.ofBlob blob custom.ramSizeOffset

/-- A machine in which nothing has happened. -/
def new {υ : Type} (config : Config) (cache : Cache υ) (deviceTree : DeviceTree) :
    Machine υ where
  config := config
  hart := .new config.ramSize config.faultPolicy
  platform := ⟨cache, .new config.keyboardCapacity.toNat, config.ramSize⟩
  deviceTree := deviceTree

/-- Joins units under a cache, and puts a machine on them. -/
def assemble {υ : Type} [StorageUnit υ] (config : Config) (units : Array υ)
    (deviceTreeFile : Option ByteArray) : Except MachineError (Machine υ) := do
  let store ← (Store.ofUnits units).mapError .storage
  let cache ← (Cache.new config.cache store).mapError fun why => .storage (.panic why)
  let deviceTree ← (chooseDeviceTree config deviceTreeFile).mapError .deviceTree
  return new config cache deviceTree

/-- Builds a machine from a valid configuration, given what the file of the device tree holds.
The unit files in the directory are opened before the device tree is looked at. -/
def build (config : Config) (deviceTreeFile : Option ByteArray) :
    EStateM MachineError (Option UnitDirectory) (Machine Medium) := fun dir? =>
  match config.validate with
  | .error error => .error (.config error) dir?
  | .ok () =>
    match openUnits config.backing dir? with
    | .error error dir? => .error (.storage error) dir?
    | .ok units dir? =>
      match assemble config units deviceTreeFile with
      | .error error => .error error dir?
      | .ok machine => .ok machine dir?

/-! ## Parts of a machine -/

variable {υ : Type}

def cache (m : Machine υ) : Cache υ := m.platform.cache

def onCache {ε α : Type} (request : EStateM ε (Cache υ) α) : EStateM ε (Machine υ) α :=
  fun ⟨config, hart, ⟨cache, console, ramSize⟩, deviceTree⟩ =>
    match request cache with
    | .ok answer cache => .ok answer ⟨config, hart, ⟨cache, console, ramSize⟩, deviceTree⟩
    | .error error cache => .error error ⟨config, hart, ⟨cache, console, ramSize⟩, deviceTree⟩

/-- Runs a request on the cache, whose failures are those of the store. -/
def onMemory {α : Type} (request : EStateM StorageError (Cache υ) α) :
    EStateM MachineError (Machine υ) α := fun m =>
  match onCache request m with
  | .ok answer m => .ok answer m
  | .error error m => .error (.storage error) m

def onConsole {α : Type} (request : StateM GuestConsole α) : StateM (Machine υ) α :=
  fun ⟨config, hart, ⟨cache, console, ramSize⟩, deviceTree⟩ =>
    let (answer, console) := request console
    (answer, ⟨config, hart, ⟨cache, console, ramSize⟩, deviceTree⟩)

def onHart (change : Hart → Hart) (m : Machine υ) : Machine υ :=
  let ⟨config, hart, platform, deviceTree⟩ := m
  ⟨config, change hart, platform, deviceTree⟩

def mapCache (change : Cache υ → Cache υ) (m : Machine υ) : Machine υ :=
  let ⟨config, hart, ⟨cache, console, ramSize⟩, deviceTree⟩ := m
  ⟨config, hart, ⟨change cache, console, ramSize⟩, deviceTree⟩

def sendKey (m : Machine υ) (byte : UInt8) : Machine υ :=
  let ⟨config, hart, ⟨cache, ⟨keys, output⟩, ramSize⟩, deviceTree⟩ := m
  ⟨config, hart, ⟨cache, ⟨keys.send byte, output⟩, ramSize⟩, deviceTree⟩

def withDeviceTree (m : Machine υ) (deviceTree : DeviceTree) : Machine υ :=
  { m with deviceTree := deviceTree }

/-! ## Operation -/

/-- What the guest has printed since this was last asked. -/
def takeOutput : StateM (Machine υ) ByteArray := onConsole GuestConsole.take

def resetCounters (m : Machine υ) : Machine υ :=
  m.mapCache fun cache => { cache.resetCounters with store := cache.store.resetCounters }

/-- The state of the hart and the traffic so far. -/
def dump (m : Machine υ) : StateDump := .of m.hart m.cache.counters

variable [StorageUnit υ]

/-- Advances time by `elapsed` and executes up to `limit` instructions. -/
def step (limit : UInt32) (elapsed : UInt64) : EStateM MachineError (Machine υ) Outcome :=
  fun ⟨config, hart, platform, deviceTree⟩ =>
    match Core.step limit elapsed (⟨hart, platform⟩ : Core (Platform υ)) with
    | .ok outcome ⟨hart, platform⟩ => .ok outcome ⟨config, hart, platform, deviceTree⟩
    | .error error ⟨hart, platform⟩ => .error (.storage error) ⟨config, hart, platform, deviceTree⟩

def flush : EStateM MachineError (Machine υ) Unit := onMemory Cache.flush

end Machine

end RiscvMachine
