import RiscvMachine.Cache.Basic
import RiscvMachine.Hart.Basic

set_option autoImplicit false

/-! # The configuration of a machine

Sizes, geometry, timing and policies, with their defaults, and the conditions that a
configuration must meet before a machine is built from it.
-/

namespace RiscvMachine

/-- How time passes between batches. -/
inductive TimingMode
  /-- With the host's clock. -/
  | wallClock
  /-- With the cycle counter. -/
  | fixed
  deriving DecidableEq, Repr

inductive BackingKind
  | memory
  /-- Files in a directory of the host. -/
  | file (dir : String)
  deriving DecidableEq, Repr

structure BackingConfig where
  unitCount : UInt64 := 2
  unitCapacity : UInt32 := 8388608
  kind : BackingKind := .memory
  deriving DecidableEq, Repr

def BackingConfig.totalCapacity (b : BackingConfig) : Except Panic UInt64 :=
  Checked.multiply b.unitCount.toNat b.unitCapacity.toNat

/-- Where the RAM-size cell stands in a supplied device tree unless its place is given. -/
def defaultRamSizeOffset : UInt64 := 0x13C

structure DeviceTreeConfig where
  path : String
  ramSizeOffset : UInt64 := defaultRamSizeOffset
  deriving DecidableEq, Repr

structure Config where
  ramSize : UInt32 := 16777216
  backing : BackingConfig := {}
  cache : CacheGeometry := {}
  timing : TimingMode := .wallClock
  timeDivisor : UInt32 := 1
  faultPolicy : FaultPolicy := .delegate
  instructionsPerBatch : UInt32 := 1024
  /-- Whether the host sleeps while the guest waits. -/
  idleOnWait : Bool := true
  imageChunkSize : UInt64 := 4096
  keyboardCapacity : UInt64 := 64
  deviceTree : Option DeviceTreeConfig := none
  deriving DecidableEq, Repr

inductive ConfigError
  | badRamSize (size : UInt32)
  | ramTooLarge (size : UInt32)
  | ramExceedsBacking (size : UInt32) (capacity : UInt64)
  | badLineSize (size : UInt64)
  | badLineCount (count : UInt64)
  | zeroBatch
  | zeroTimeDivisor
  | zeroChunk
  /-- The program gave up while it looked at the configuration. -/
  | panic (why : Panic)
  deriving DecidableEq, Repr

open Text in
def ConfigError.message : ConfigError → String
  | .badRamSize size =>
    s!"RAM size must be a non-zero multiple of 4, got {decimal size.toNat}"
  | .ramTooLarge size =>
    s!"RAM size {decimal size.toNat} would place guest memory past the 32-bit address space"
  | .ramExceedsBacking size capacity =>
    s!"RAM size {decimal size.toNat} exceeds backing capacity {decimal capacity.toNat}"
  | .badLineSize size =>
    s!"cache line size {decimal size.toNat} must be a power of two and at least 4"
  | .badLineCount count =>
    s!"cache line count {decimal count.toNat} must be a non-zero power of two"
  | .zeroBatch => "instructions per batch must be non-zero"
  | .zeroTimeDivisor => "time divisor must be non-zero"
  | .zeroChunk => "image chunk size must be non-zero"
  | .panic why => why.message

/-- The largest RAM that ends within the 32-bit address space. -/
def maxRamSize : UInt32 := 0x80000000

/-- The first condition that the configuration does not meet. -/
def Config.validate (c : Config) : Except ConfigError Unit := do
  if c.ramSize = 0 ∨ c.ramSize % 4 ≠ 0 then throw (.badRamSize c.ramSize)
  if maxRamSize < c.ramSize then throw (.ramTooLarge c.ramSize)
  let capacity ← c.backing.totalCapacity.mapError .panic
  if capacity < c.ramSize.toUInt64 then throw (.ramExceedsBacking c.ramSize capacity)
  if c.cache.lineSize < 4 ∨ !isPowerOfTwo c.cache.lineSize then
    throw (.badLineSize c.cache.lineSize)
  if !isPowerOfTwo c.cache.lineCount then throw (.badLineCount c.cache.lineCount)
  if c.instructionsPerBatch = 0 then throw .zeroBatch
  if c.timeDivisor = 0 then throw .zeroTimeDivisor
  if c.imageChunkSize = 0 then throw .zeroChunk

end RiscvMachine
