import RiscvMachine.Config.Basic
import RiscvMachine.Json.Reader
import RiscvMachine.Json.Record

set_option autoImplicit false

/-! # Configuration files

The JSON form of a configuration. Writing gives every field; reading takes the fields that are
there over the defaults. `Config.ofText?` reads what `Config.toText` writes.
-/

namespace RiscvMachine

open JsonValue

/-! ## Reading -/

def word32? (v : JsonValue) : Option UInt32 :=
  (v.naturalBelow? UInt32.size).map UInt32.ofNat

def word64? (v : JsonValue) : Option UInt64 :=
  (v.naturalBelow? UInt64.size).map UInt64.ofNat

def TimingMode.choices : List (String × TimingMode) :=
  [("wall_clock", .wallClock), ("fixed", .fixed)]

def FaultPolicy.choices : List (String × FaultPolicy) :=
  [("delegate", .delegate), ("fail_fast", .failFast)]

/-- What an object tells about the units: the member that names the kind and the directory. -/
structure BackingKind.Draft where
  tag : Option String := none
  dir : Option JsonValue := none

/-- The member that names the kind, and the directory of the file kind. -/
def BackingKind.draftFields : List (RecordField BackingKind.Draft) :=
  [⟨"type", fun v draft => v.text?.map fun tag => { draft with tag := some tag }⟩]

/-- The directory alone, which only the file kind has. -/
def BackingKind.dirFields : List (RecordField BackingKind.Draft) :=
  [⟨"dir", fun v draft => some { draft with dir := some v }⟩]

/-- How deep the value of a unit kind may be nested: it lies two levels deep in a text of at
most 127. -/
def BackingKind.maxDepth : Nat := 125

/-- The kind of the units: an object with its name under `type`, or an array that starts with
its name. Other members are ignored, but unlike elsewhere they must have a meaning. -/
def BackingKind.ofJson? (v : JsonValue) : Option BackingKind := do
  guard (v.isMeaningful && v.depth ≤ BackingKind.maxDepth)
  match v with
  | .object _ =>
    let draft ← RecordField.readOver BackingKind.draftFields {} v
    match draft.tag with
    | some "memory" => return .memory
    | some "file" =>
      let draft ← RecordField.readOver BackingKind.dirFields draft v
      return .file (← (← draft.dir).text?)
    | _ => none
  | .array [tag] =>
    guard (tag.text? = some "memory")
    return .memory
  | .array [tag, dir] =>
    guard (tag.text? = some "file")
    return .file (← dir.text?)
  | _ => none

def BackingConfig.fields : List (RecordField BackingConfig) :=
  [⟨"unit_count", fun v b => (word64? v).map fun n => { b with unitCount := n }⟩,
    ⟨"unit_capacity", fun v b => (word32? v).map fun n => { b with unitCapacity := n }⟩,
    ⟨"kind", fun v b => (BackingKind.ofJson? v).map fun k => { b with kind := k }⟩]

def CacheGeometry.fields : List (RecordField CacheGeometry) :=
  [⟨"line_size", fun v g => (word64? v).map fun n => { g with lineSize := n }⟩,
    ⟨"line_count", fun v g => (word64? v).map fun n => { g with lineCount := n }⟩]

/-- The fields of a supplied device tree, whose path has no default. -/
def DeviceTreeConfig.fields : List (RecordField (Option String × UInt64)) :=
  [⟨"path", fun v (_, offset) => v.text?.map fun path => (some path, offset)⟩,
    ⟨"ram_size_offset", fun v (path, _) => (word64? v).map fun offset => (path, offset)⟩]

def DeviceTreeConfig.ofJson? (v : JsonValue) : Option DeviceTreeConfig := do
  let (path, offset) ← RecordField.readOver DeviceTreeConfig.fields (none, defaultRamSizeOffset) v
  return ⟨← path, offset⟩

/-- A supplied device tree, or null for none. -/
def DeviceTreeConfig.optionOfJson? : JsonValue → Option (Option DeviceTreeConfig)
  | .null => some none
  | v => (DeviceTreeConfig.ofJson? v).map some

/-- The fields of a configuration, in the order of its array form. -/
def Config.fields : List (RecordField Config) :=
  [⟨"ram_size", fun v c => (word32? v).map fun n => { c with ramSize := n }⟩,
    ⟨"backing", fun v c =>
      (RecordField.readOver BackingConfig.fields {} v).map fun b => { c with backing := b }⟩,
    ⟨"cache", fun v c =>
      (RecordField.readOver CacheGeometry.fields {} v).map fun g => { c with cache := g }⟩,
    ⟨"timing", fun v c => (choice? TimingMode.choices v).map fun t => { c with timing := t }⟩,
    ⟨"time_divisor", fun v c => (word32? v).map fun n => { c with timeDivisor := n }⟩,
    ⟨"fault_policy", fun v c =>
      (choice? FaultPolicy.choices v).map fun p => { c with faultPolicy := p }⟩,
    ⟨"instructions_per_batch", fun v c =>
      (word32? v).map fun n => { c with instructionsPerBatch := n }⟩,
    ⟨"idle_on_wait", fun v c => v.bool?.map fun b => { c with idleOnWait := b }⟩,
    ⟨"image_chunk_size", fun v c => (word64? v).map fun n => { c with imageChunkSize := n }⟩,
    ⟨"keyboard_capacity", fun v c =>
      (word64? v).map fun n => { c with keyboardCapacity := n }⟩,
    ⟨"dtb", fun v c =>
      (DeviceTreeConfig.optionOfJson? v).map fun d => { c with deviceTree := d }⟩]

/-- The configuration that a JSON value writes over the defaults. -/
def Config.ofJson? (v : JsonValue) : Option Config :=
  RecordField.readOver Config.fields {} v

def Config.ofText? (text : List Char) : Option Config := do
  Config.ofJson? (← JsonValue.parse? text)

inductive ConfigFileError
  | notFound
  | invalidData
  deriving DecidableEq, Repr

/-- The configuration in the bytes of a file, which must be UTF-8. -/
def Config.ofFile (file : Option ByteArray) : Except ConfigFileError Config :=
  match file with
  | none => .error .notFound
  | some bytes =>
    match String.fromUTF8? bytes with
    | none => .error .invalidData
    | some text =>
      match Config.ofText? text.toList with
      | some config => .ok config
      | none => .error .invalidData

/-! ## Writing -/

/-- A member of an object under a name that needs no escapes. -/
def member (name : String) (value : JsonValue) : List Char × JsonValue :=
  (name.toList, value)

def ofWord32 (n : UInt32) : JsonValue := .ofNat n.toNat

def ofWord64 (n : UInt64) : JsonValue := .ofNat n.toNat

def TimingMode.toJson : TimingMode → JsonValue
  | .wallClock => .ofText "wall_clock"
  | .fixed => .ofText "fixed"

def FaultPolicy.toJson : FaultPolicy → JsonValue
  | .delegate => .ofText "delegate"
  | .failFast => .ofText "fail_fast"

def BackingKind.toJson : BackingKind → JsonValue
  | .memory => .object [member "type" (.ofText "memory")]
  | .file dir => .object [member "type" (.ofText "file"), member "dir" (.ofText dir)]

def BackingConfig.toJson (b : BackingConfig) : JsonValue :=
  .object [member "unit_count" (ofWord64 b.unitCount),
    member "unit_capacity" (ofWord32 b.unitCapacity), member "kind" b.kind.toJson]

def CacheGeometry.toJson (g : CacheGeometry) : JsonValue :=
  .object [member "line_size" (ofWord64 g.lineSize), member "line_count" (ofWord64 g.lineCount)]

def DeviceTreeConfig.toJson (d : DeviceTreeConfig) : JsonValue :=
  .object [member "path" (.ofText d.path), member "ram_size_offset" (ofWord64 d.ramSizeOffset)]

/-- The JSON form of a configuration, with all its fields. -/
def Config.toJson (c : Config) : JsonValue :=
  .object [member "ram_size" (ofWord32 c.ramSize),
    member "backing" c.backing.toJson,
    member "cache" c.cache.toJson,
    member "timing" c.timing.toJson,
    member "time_divisor" (ofWord32 c.timeDivisor),
    member "fault_policy" c.faultPolicy.toJson,
    member "instructions_per_batch" (ofWord32 c.instructionsPerBatch),
    member "idle_on_wait" (.bool c.idleOnWait),
    member "image_chunk_size" (ofWord64 c.imageChunkSize),
    member "keyboard_capacity" (ofWord64 c.keyboardCapacity),
    member "dtb" (match c.deviceTree with
      | some d => d.toJson
      | none => .null)]

def Config.toText (c : Config) : String :=
  String.ofList c.toJson.render

end RiscvMachine
