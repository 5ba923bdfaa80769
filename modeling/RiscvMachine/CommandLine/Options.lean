import RiscvMachine.CommandLine.Number
import RiscvMachine.Config.Json

set_option autoImplicit false

/-! # Options

What an operator can say about the machine on the command line, and the configuration that it
leads to: the one of the configuration file, or else the default one, with what the options say
in place.
-/

namespace RiscvMachine.CommandLine

/-- An option that takes a value. -/
inductive ValueOption
  | config
  | ramSize
  | unitCount
  | unitSize
  | directory
  | timeDivisor
  | batch
  | dump
  | deviceTree
  | ramSizeOffset
  deriving DecidableEq, Repr

inductive Switch
  | fixedTime
  | failFast
  | noSleep
  deriving DecidableEq, Repr

def valueOptions : List (String × ValueOption) :=
  [("config", .config), ("ram-mb", .ramSize), ("units", .unitCount), ("unit-mb", .unitSize),
    ("file-backing", .directory), ("time-divisor", .timeDivisor), ("batch", .batch),
    ("dump", .dump), ("dtb", .deviceTree), ("dtb-ram-offset", .ramSizeOffset)]

def switches : List (String × Switch) :=
  [("fixed-time", .fixedTime), ("fail-fast", .failFast), ("no-sleep", .noSleep)]

/-- What the options say. Sizes are in MiB. -/
structure Options where
  config : Option String := none
  ramSize : Option UInt32 := none
  unitCount : Option UInt64 := none
  unitSize : Option UInt32 := none
  directory : Option String := none
  timeDivisor : Option UInt32 := none
  batch : Option UInt32 := none
  dump : Option String := none
  deviceTree : Option String := none
  ramSizeOffset : Option UInt64 := none
  fixedTime : Bool := false
  failFast : Bool := false
  noSleep : Bool := false
  deriving DecidableEq, Repr

namespace Options

def isGiven (o : Options) : ValueOption → Bool
  | .config => o.config.isSome
  | .ramSize => o.ramSize.isSome
  | .unitCount => o.unitCount.isSome
  | .unitSize => o.unitSize.isSome
  | .directory => o.directory.isSome
  | .timeDivisor => o.timeDivisor.isSome
  | .batch => o.batch.isSome
  | .dump => o.dump.isSome
  | .deviceTree => o.deviceTree.isSome
  | .ramSizeOffset => o.ramSizeOffset.isSome

def isOn (o : Options) : Switch → Bool
  | .fixedTime => o.fixedTime
  | .failFast => o.failFast
  | .noSleep => o.noSleep

def turnOn (o : Options) : Switch → Options
  | .fixedTime => { o with fixedTime := true }
  | .failFast => { o with failFast := true }
  | .noSleep => { o with noSleep := true }

/-! ## The configuration -/

def startConfig (o : Options) (configFile : Option ByteArray) : Except String Config :=
  if o.config.isSome then
    match Config.ofFile configFile with
    | .ok config => .ok config
    | .error _ => .error "failed to read config"
  else .ok {}

/-- Overrides a size by one in MiB. -/
def sizeOr (name : String) (given : Option UInt32) (size : UInt32) : Except String UInt32 :=
  match given with
  | some count => mebibytes name count
  | none => .ok size

/-- The device tree of a configuration under the options. An offset by itself applies to the
tree of the configuration file. -/
def chooseDeviceTree (o : Options) (configured : Option DeviceTreeConfig) :
    Option DeviceTreeConfig :=
  match o.deviceTree with
  | some path => some ⟨path, o.ramSizeOffset.getD defaultRamSizeOffset⟩
  | none => configured.map fun tree =>
      { tree with ramSizeOffset := o.ramSizeOffset.getD tree.ramSizeOffset }

def chooseBacking (o : Options) (b : BackingConfig) : Except String BackingConfig := do
  let unitCapacity ← sizeOr "unit-mb" o.unitSize b.unitCapacity
  return { b with
    unitCount := o.unitCount.getD b.unitCount
    unitCapacity := unitCapacity
    kind := (o.directory.map BackingKind.file).getD b.kind }

/-- The configuration that the options lead to, given what the configuration file holds. The
error is the text for the operator. -/
def toConfig (o : Options) (configFile : Option ByteArray) : Except String Config := do
  let config ← o.startConfig configFile
  let ramSize ← sizeOr "ram-mb" o.ramSize config.ramSize
  let backing ← o.chooseBacking config.backing
  return { config with
    ramSize := ramSize
    backing := backing
    timing := if o.fixedTime then .fixed else config.timing
    timeDivisor := o.timeDivisor.getD config.timeDivisor
    faultPolicy := if o.failFast then .failFast else config.faultPolicy
    instructionsPerBatch := o.batch.getD config.instructionsPerBatch
    idleOnWait := config.idleOnWait && !o.noSleep
    deviceTree := o.chooseDeviceTree config.deviceTree }

end Options

end RiscvMachine.CommandLine
