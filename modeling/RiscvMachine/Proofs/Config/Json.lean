import RiscvMachine.Config.Json
import RiscvMachine.Proofs.Bytes
import RiscvMachine.Proofs.Json.Record
import RiscvMachine.Proofs.Json.Writer

set_option autoImplicit false

/-! # Configuration files

A file overrides the defaults field by field: it is read as the default configuration with the
fields that it gives (`Config.taking`), whatever their order, the blanks between the tokens and the
other members are. Each record is described in the same way: what values are given for its fields
(`Given`), what it is with some of them (`taking`), that its fields are read so (`overrides`), and
that all of them are written (`toJson_writes`).

What is written for a configuration gives all fields, so it is read as the configuration
(`Config.files`).
-/

namespace RiscvMachine

open JsonValue

/-! ## Values -/

@[simp] theorem word32?_ofWord32 (n : UInt32) : word32? (ofWord32 n) = some n := by
  have hlt : n.toNat < UInt32.size := n.toNat_lt
  simp only [word32?, ofWord32, naturalBelow?, natural?_ofNat, bind, Option.bind, if_pos hlt,
    Option.map_some, UInt32.ofNat_toNat]

@[simp] theorem word64?_ofWord64 (n : UInt64) : word64? (ofWord64 n) = some n := by
  have hlt : n.toNat < UInt64.size := n.toNat_lt
  simp only [word64?, ofWord64, naturalBelow?, natural?_ofNat, bind, Option.bind, if_pos hlt,
    Option.map_some, UInt64.ofNat_toNat]

theorem text?_string {spelling : List Char} {text : String} (h : Means spelling text) :
    (JsonValue.string spelling).text? = some text := by
  rw [text?, show decodeSpelling spelling = _ from h, Option.map_some, String.ofList_toList]

theorem choice?_string {α : Type} (choices : List (String × α)) {spelling : List Char}
    {name : String} (h : Means spelling name) :
    choice? choices (.string spelling) = choices.lookup name := by
  rw [choice?, show decodeSpelling spelling = _ from h]
  simp only [bind, Option.bind, String.ofList_toList]

def TimingMode.name : TimingMode → String
  | .wallClock => "wall_clock"
  | .fixed => "fixed"

def FaultPolicy.name : FaultPolicy → String
  | .delegate => "delegate"
  | .failFast => "fail_fast"

/-! ## Members -/

/-- A name that is spelled as it is. -/
def PlainName (name : String) : Prop := name.toList.flatMap encodeChar = name.toList

instance (name : String) : Decidable (PlainName name) := decEq (α := List Char) _ _

theorem PlainName.spelling {name : String} (h : PlainName name) : Spelling name.toList := by
  rw [← show _ = name.toList from h]
  exact spelling_encode _

theorem PlainName.means {name : String} (h : PlainName name) : Means name.toList name := by
  rw [Means, ← show _ = name.toList from h, decodeSpelling_encode, h]

/-- Members are written that give the fields of these names. -/
structure Writes (known : List String) (given : String → JsonValue → Prop) (names : List String)
    (members : List (List Char × JsonValue)) : Prop where
  gives : Gives known given names members
  written : ∀ m ∈ members, Spelling m.1 ∧ m.2.Written

/-- An object is written that gives the fields of these names. -/
def WritesObject (known : List String) (given : String → JsonValue → Prop) (names : List String)
    (v : JsonValue) : Prop :=
  v.Written ∧ ∃ members, v = .object members ∧ Gives known given names members

namespace Writes

variable {known names : List String} {given : String → JsonValue → Prop}
  {members : List (List Char × JsonValue)}

theorem nil : Writes known given [] [] :=
  ⟨.done, fun _ h => absurd h List.not_mem_nil⟩

theorem cons {name : String} {value : JsonValue} (hname : PlainName name ∧ name ∉ names)
    (hgiven : given name value) (hwritten : value.Written)
    (hrest : Writes known given names members) :
    Writes known given (name :: names) (member name value :: members) where
  gives := .field hname.1.means hgiven hname.2 hrest.gives
  written m hm := by
    rcases List.mem_cons.mp hm with rfl | hm
    · exact ⟨hname.1.spelling, hwritten⟩
    · exact hrest.written m hm

theorem object {m : List Char × JsonValue} (h : Writes known given names (m :: members)) :
    WritesObject known given names (.object (m :: members)) :=
  ⟨written_object (List.cons_ne_nil _ _) h.written, _, rfl, h.gives⟩

end Writes

theorem means_encode (text : String) : Means (text.toList.flatMap encodeChar) text :=
  decodeSpelling_encode _

theorem TimingMode.toJson_eq (mode : TimingMode) : mode.toJson = .ofText mode.name := by
  cases mode <;> rfl

theorem FaultPolicy.toJson_eq (policy : FaultPolicy) : policy.toJson = .ofText policy.name := by
  cases policy <;> rfl

/-! ## The kind of the units -/

namespace BackingKind

/-- The values that are given for the members that an object is first searched for. -/
inductive Draft.Given (draft : Draft) : String → JsonValue → Prop
  | type {spelling : List Char} {tag : String} (htag : draft.tag = some tag)
      (h : Means spelling tag) : Given draft "type" (.string spelling)
  | dir {value : JsonValue} (h : draft.dir = some value) : Given draft "dir" value

/-- The values that are given for a kind: objects that have the members that the kind needs, in any
order. They may have others, but unlike elsewhere these must have a meaning and must not be nested
too deep. -/
inductive Given : BackingKind → JsonValue → Prop
  | memory {names : List String} {members : List (List Char × JsonValue)}
      (h : Gives ["type"] (Draft.Given ⟨some "memory", none⟩) names members)
      (htype : "type" ∈ names) (hmeaning : (JsonValue.object members).isMeaningful = true)
      (hdepth : (JsonValue.object members).depth ≤ maxDepth) : Given .memory (.object members)
  | file {path : List Char} {text : String} {names : List String}
      {members : List (List Char × JsonValue)} (hpath : Means path text)
      (h : Gives ["type", "dir"] (Draft.Given ⟨some "file", some (.string path)⟩) names members)
      (htype : "type" ∈ names) (hdir : "dir" ∈ names)
      (hmeaning : (JsonValue.object members).isMeaningful = true)
      (hdepth : (JsonValue.object members).depth ≤ maxDepth) : Given (.file text) (.object members)

/-- The name is looked for first. -/
theorem Draft.overrides_type (draft : Draft) : RecordField.Overrides draftFields
    (fun name value => name = "type" ∧ draft.Given name value)
    (fun names => ⟨pick names "type" draft.tag none, none⟩) where
  put h names := by
    obtain ⟨hname, h⟩ := h
    cases h with
    | type htag h => exact ⟨_, rfl, by simp [text?_string h, htag]⟩
    | dir => exact absurd hname (by decide)
  congr h := by rw [pick_congr h]

/-- The directory is looked for when the name is known. -/
theorem Draft.overrides_dir (draft : Draft) : RecordField.Overrides dirFields
    (fun name value => name = "dir" ∧ draft.Given name value)
    (fun names => ⟨draft.tag, pick names "dir" draft.dir none⟩) where
  put h names := by
    obtain ⟨hname, h⟩ := h
    cases h with
    | type => exact absurd hname (by decide)
    | dir h => exact ⟨_, rfl, by simp [h]⟩
  congr h := by rw [pick_congr h]

variable {draft : Draft} {known names : List String} {members : List (List Char × JsonValue)}

theorem readOver_draftFields (h : Gives known draft.Given names members) (hknown : "type" ∈ known)
    (hname : "type" ∈ names) :
    RecordField.readOver draftFields {} (.object members) = some ⟨draft.tag, none⟩ := by
  have hgives : Gives ["type"] (fun name value => name = "type" ∧ draft.Given name value)
      (names.filter (· ∈ ["type"])) members :=
    h.restrict (List.forall_mem_singleton.mpr hknown) fun _ hmem _ hvalue =>
      ⟨List.mem_singleton.mp hmem, hvalue⟩
  have hread : RecordField.readOver draftFields {} (.object members) = some _ :=
    draft.overrides_type.readOver hgives
  rw [hread, pick, if_pos (List.mem_filter.mpr ⟨hname, by decide⟩)]

theorem readOver_dirFields (h : Gives known draft.Given names members) (hknown : "dir" ∈ known)
    (hname : "dir" ∈ names) :
    RecordField.readOver dirFields ⟨draft.tag, none⟩ (.object members) = some draft := by
  have hgives : Gives ["dir"] (fun name value => name = "dir" ∧ draft.Given name value)
      (names.filter (· ∈ ["dir"])) members :=
    h.restrict (List.forall_mem_singleton.mpr hknown) fun _ hmem _ hvalue =>
      ⟨List.mem_singleton.mp hmem, hvalue⟩
  have hread : RecordField.readOver dirFields ⟨draft.tag, none⟩ (.object members) = some _ :=
    draft.overrides_dir.readOver hgives
  rw [hread, pick, if_pos (List.mem_filter.mpr ⟨hname, by decide⟩)]

/-- A kind is read from what is given for it. -/
theorem ofJson?_given {kind : BackingKind} {v : JsonValue} (h : kind.Given v) :
    ofJson? v = some kind := by
  cases h with
  | memory h htype hmeaning hdepth =>
      have hdraft := readOver_draftFields h (by decide) htype
      rw [ofJson?, hmeaning, decide_eq_true hdepth]
      simp only [Bool.and_self, guard, if_true, bind, pure, Option.bind_some, hdraft]
  | file hpath h htype hdir hmeaning hdepth =>
      have hdraft := readOver_draftFields h (by decide) htype
      have hread := readOver_dirFields h (by decide) hdir
      rw [ofJson?, hmeaning, decide_eq_true hdepth]
      simp only [Bool.and_self, guard, if_true, bind, pure, Option.bind_some, hdraft, hread,
        text?_string hpath]

/-- What is written for a kind is among what is given for it. -/
theorem toJson_given (kind : BackingKind) : kind.Given kind.toJson ∧ kind.toJson.Written := by
  cases kind with
  | memory =>
      have h : Writes ["type"] (Draft.Given ⟨some "memory", none⟩) ["type"] _ :=
        .cons (by decide) (.type rfl (means_encode "memory")) (written_ofText _) .nil
      exact ⟨.memory h.gives (by decide) (by decide) (by decide),
        written_object (List.cons_ne_nil _ _) h.written⟩
  | file dir =>
      have h : Writes ["type", "dir"] (Draft.Given ⟨some "file", some (ofText dir)⟩)
          ["type", "dir"] _ :=
        .cons (by decide) (.type rfl (means_encode "file")) (written_ofText _) <|
          .cons (by decide) (.dir rfl) (written_ofText dir) .nil
      have htype : (decodeSpelling "type".toList).isSome = true := by decide
      have hdir : (decodeSpelling "dir".toList).isSome = true := by decide
      have hmeaning : (BackingKind.file dir).toJson.isMeaningful = true := by
        simp only [toJson, member, ofText, isMeaningful, membersMeaningful, decodeSpelling_encode,
          htype, hdir, Option.isSome_some, Bool.and_self]
      exact ⟨.file (means_encode dir) h.gives (by decide) (by decide) hmeaning
          (show 1 ≤ 125 by decide),
        written_object (List.cons_ne_nil _ _) h.written⟩

end BackingKind

/-! ## The storage units -/

namespace BackingConfig

/-- The storage units with these fields, and the defaults for the others. -/
def taking (b : BackingConfig) (names : List String) : BackingConfig :=
  let default : BackingConfig := {}
  { unitCount := pick names "unit_count" b.unitCount default.unitCount
    unitCapacity := pick names "unit_capacity" b.unitCapacity default.unitCapacity
    kind := pick names "kind" b.kind default.kind }

inductive Given (b : BackingConfig) : String → JsonValue → Prop
  | unitCount : Given b "unit_count" (ofWord64 b.unitCount)
  | unitCapacity : Given b "unit_capacity" (ofWord32 b.unitCapacity)
  | kind {v : JsonValue} (h : b.kind.Given v) : Given b "kind" v

theorem overrides (b : BackingConfig) : RecordField.Overrides fields b.Given b.taking where
  put h names := by
    cases h with
    | unitCount => exact ⟨_, rfl, by simp [taking]⟩
    | unitCapacity => exact ⟨_, rfl, by simp [taking]⟩
    | kind h => exact ⟨_, rfl, by simp [taking, BackingKind.ofJson?_given h]⟩
  congr h := by simp only [taking, pick_congr h]

theorem toJson_writes (b : BackingConfig) :
    WritesObject (RecordField.names fields) b.Given (RecordField.names fields) b.toJson :=
  Writes.object <| .cons (by decide) .unitCount (written_ofNat _) <|
    .cons (by decide) .unitCapacity (written_ofNat _) <|
    .cons (by decide) (.kind b.kind.toJson_given.1) b.kind.toJson_given.2 .nil

end BackingConfig

/-! ## The cache's geometry -/

namespace CacheGeometry

def taking (g : CacheGeometry) (names : List String) : CacheGeometry :=
  let default : CacheGeometry := {}
  { lineSize := pick names "line_size" g.lineSize default.lineSize
    lineCount := pick names "line_count" g.lineCount default.lineCount }

inductive Given (g : CacheGeometry) : String → JsonValue → Prop
  | lineSize : Given g "line_size" (ofWord64 g.lineSize)
  | lineCount : Given g "line_count" (ofWord64 g.lineCount)

theorem overrides (g : CacheGeometry) : RecordField.Overrides fields g.Given g.taking where
  put h names := by
    cases h with
    | lineSize => exact ⟨_, rfl, by simp [taking]⟩
    | lineCount => exact ⟨_, rfl, by simp [taking]⟩
  congr h := by simp only [taking, pick_congr h]

theorem toJson_writes (g : CacheGeometry) :
    WritesObject (RecordField.names fields) g.Given (RecordField.names fields) g.toJson :=
  Writes.object <| .cons (by decide) .lineSize (written_ofNat _) <|
    .cons (by decide) .lineCount (written_ofNat _) .nil

end CacheGeometry

/-! ## A supplied device tree -/

namespace DeviceTreeConfig

/-- What is read with these fields: there is no default for the path. -/
def taking (d : DeviceTreeConfig) (names : List String) : Option String × UInt64 :=
  (pick names "path" (some d.path) none,
    pick names "ram_size_offset" d.ramSizeOffset defaultRamSizeOffset)

inductive Given (d : DeviceTreeConfig) : String → JsonValue → Prop
  | path {spelling : List Char} (h : Means spelling d.path) : Given d "path" (.string spelling)
  | ramSizeOffset : Given d "ram_size_offset" (ofWord64 d.ramSizeOffset)

theorem overrides (d : DeviceTreeConfig) : RecordField.Overrides fields d.Given d.taking where
  put h names := by
    cases h with
    | path h => exact ⟨_, rfl, by simp [taking, text?_string h]⟩
    | ramSizeOffset => exact ⟨_, rfl, by simp [taking]⟩
  congr h := by simp only [taking, pick_congr h]

/-- A device tree is read from an object that gives its path, and its offset unless that is the
default. -/
theorem optionOfJson?_given {d : DeviceTreeConfig} {names : List String}
    {members : List (List Char × JsonValue)}
    (hgives : Gives (RecordField.names fields) d.Given names members) (hpath : "path" ∈ names)
    (hoffset : "ram_size_offset" ∈ names ∨ d.ramSizeOffset = defaultRamSizeOffset) :
    optionOfJson? (.object members) = some (some d) := by
  have hread : RecordField.readOver fields (none, defaultRamSizeOffset) (.object members) =
      some (d.taking names) :=
    d.overrides.readOver hgives
  have hboth : d.taking names = (some d.path, d.ramSizeOffset) := by
    rw [taking, pick, pick, if_pos hpath]
    rcases hoffset with hoffset | hoffset
    · rw [if_pos hoffset]
    · rw [hoffset, ite_self]
  rw [optionOfJson?, ofJson?, hread, hboth]
  · rfl
  · intro h
    cases h

theorem toJson_writes (d : DeviceTreeConfig) :
    WritesObject (RecordField.names fields) d.Given (RecordField.names fields) d.toJson :=
  Writes.object <| .cons (by decide) (.path (means_encode _)) (written_ofText _) <|
    .cons (by decide) .ramSizeOffset (written_ofNat _) .nil

end DeviceTreeConfig

/-! ## Configurations -/

namespace Config

/-- The configuration with these fields, and the defaults for the others. The units and the cache
have some of their fields only. -/
def taking (c : Config) (backing cache names : List String) : Config :=
  let default : Config := {}
  { ramSize := pick names "ram_size" c.ramSize default.ramSize
    backing := pick names "backing" (c.backing.taking backing) default.backing
    cache := pick names "cache" (c.cache.taking cache) default.cache
    timing := pick names "timing" c.timing default.timing
    timeDivisor := pick names "time_divisor" c.timeDivisor default.timeDivisor
    faultPolicy := pick names "fault_policy" c.faultPolicy default.faultPolicy
    instructionsPerBatch :=
      pick names "instructions_per_batch" c.instructionsPerBatch default.instructionsPerBatch
    idleOnWait := pick names "idle_on_wait" c.idleOnWait default.idleOnWait
    imageChunkSize := pick names "image_chunk_size" c.imageChunkSize default.imageChunkSize
    keyboardCapacity := pick names "keyboard_capacity" c.keyboardCapacity default.keyboardCapacity
    deviceTree := pick names "dtb" c.deviceTree default.deviceTree }

inductive Given (c : Config) (backing cache : List String) : String → JsonValue → Prop
  | ramSize : Given c backing cache "ram_size" (ofWord32 c.ramSize)
  | backing {members : List (List Char × JsonValue)}
      (h : Gives (RecordField.names BackingConfig.fields) c.backing.Given backing members) :
      Given c backing cache "backing" (.object members)
  | cache {members : List (List Char × JsonValue)}
      (h : Gives (RecordField.names CacheGeometry.fields) c.cache.Given cache members) :
      Given c backing cache "cache" (.object members)
  | timing {spelling : List Char} (h : Means spelling c.timing.name) :
      Given c backing cache "timing" (.string spelling)
  | timeDivisor : Given c backing cache "time_divisor" (ofWord32 c.timeDivisor)
  | faultPolicy {spelling : List Char} (h : Means spelling c.faultPolicy.name) :
      Given c backing cache "fault_policy" (.string spelling)
  | instructionsPerBatch :
      Given c backing cache "instructions_per_batch" (ofWord32 c.instructionsPerBatch)
  | idleOnWait : Given c backing cache "idle_on_wait" (.bool c.idleOnWait)
  | imageChunkSize : Given c backing cache "image_chunk_size" (ofWord64 c.imageChunkSize)
  | keyboardCapacity : Given c backing cache "keyboard_capacity" (ofWord64 c.keyboardCapacity)
  | noDeviceTree (h : c.deviceTree = none) : Given c backing cache "dtb" .null
  | deviceTree {d : DeviceTreeConfig} {names : List String}
      {members : List (List Char × JsonValue)} (h : c.deviceTree = some d)
      (hmembers : Gives (RecordField.names DeviceTreeConfig.fields) d.Given names members)
      (hpath : "path" ∈ names)
      (hoffset : "ram_size_offset" ∈ names ∨ d.ramSizeOffset = defaultRamSizeOffset) :
      Given c backing cache "dtb" (.object members)

theorem lookup_timing (mode : TimingMode) :
    TimingMode.choices.lookup mode.name = some mode := by
  cases mode <;> rfl

theorem lookup_faultPolicy (policy : FaultPolicy) :
    FaultPolicy.choices.lookup policy.name = some policy := by
  cases policy <;> rfl

theorem overrides (c : Config) (backing cache : List String) :
    RecordField.Overrides fields (c.Given backing cache) (c.taking backing cache) where
  put h names := by
    cases h with
    | ramSize => exact ⟨_, rfl, by simp [taking]⟩
    | backing h =>
        have hread : RecordField.readOver BackingConfig.fields {} _ = _ :=
          c.backing.overrides.readOver h
        exact ⟨_, rfl, by simp [taking, hread]⟩
    | cache h =>
        have hread : RecordField.readOver CacheGeometry.fields {} _ = _ :=
          c.cache.overrides.readOver h
        exact ⟨_, rfl, by simp [taking, hread]⟩
    | timing h => exact ⟨_, rfl, by simp [taking, choice?_string _ h, lookup_timing]⟩
    | timeDivisor => exact ⟨_, rfl, by simp [taking]⟩
    | faultPolicy h => exact ⟨_, rfl, by simp [taking, choice?_string _ h, lookup_faultPolicy]⟩
    | instructionsPerBatch => exact ⟨_, rfl, by simp [taking]⟩
    | idleOnWait => exact ⟨_, rfl, by simp [taking, bool?]⟩
    | imageChunkSize => exact ⟨_, rfl, by simp [taking]⟩
    | keyboardCapacity => exact ⟨_, rfl, by simp [taking]⟩
    | noDeviceTree h => exact ⟨_, rfl, by simp [taking, DeviceTreeConfig.optionOfJson?, h]⟩
    | deviceTree h hmembers hpath hoffset =>
        have hread := DeviceTreeConfig.optionOfJson?_given hmembers hpath hoffset
        exact ⟨_, rfl, by simp [taking, hread, h]⟩
  congr h := by simp only [taking, pick_congr h]

/-- A file gives the default configuration with the fields that it gives. -/
theorem ofFile_given {c : Config} {backing cache names : List String}
    {members : List (List Char × JsonValue)} {text : String}
    (hgives : Gives (RecordField.names fields) (c.Given backing cache) names members)
    (htext : (JsonValue.object members).Text text.toList) :
    ofFile (some text.toUTF8) = .ok (c.taking backing cache names) := by
  have hread : ofJson? (.object members) = some (c.taking backing cache names) :=
    (c.overrides backing cache).readOver hgives
  simp only [ofFile, Bytes.fromUTF8?_toUTF8, ofText?, parse?_of_text htext, bind,
    Option.bind_some, hread]

/-! ### Writing -/

/-- Nothing is left to the defaults. -/
theorem taking_all (c : Config) :
    c.taking (RecordField.names BackingConfig.fields) (RecordField.names CacheGeometry.fields)
      (RecordField.names fields) = c := rfl

/-- All fields are written. -/
theorem toJson_writes (c : Config) :
    WritesObject (RecordField.names fields)
      (c.Given (RecordField.names BackingConfig.fields) (RecordField.names CacheGeometry.fields))
      (RecordField.names fields) c.toJson := by
  obtain ⟨hbacking, backing, hbackingEq, hbackingGives⟩ := c.backing.toJson_writes
  obtain ⟨hcache, cache, hcacheEq, hcacheGives⟩ := c.cache.toJson_writes
  refine Writes.object <| .cons (by decide) .ramSize (written_ofNat _) <|
    .cons (by decide) ?backing hbacking <|
    .cons (by decide) ?cache hcache <|
    .cons (by decide) ?timing ?timingWritten <|
    .cons (by decide) .timeDivisor (written_ofNat _) <|
    .cons (by decide) ?policy ?policyWritten <|
    .cons (by decide) .instructionsPerBatch (written_ofNat _) <|
    .cons (by decide) .idleOnWait (written_bool _) <|
    .cons (by decide) .imageChunkSize (written_ofNat _) <|
    .cons (by decide) .keyboardCapacity (written_ofNat _) <|
    .cons (by decide) ?deviceTree ?deviceTreeWritten .nil
  case backing =>
    rw [hbackingEq]
    exact .backing hbackingGives
  case cache =>
    rw [hcacheEq]
    exact .cache hcacheGives
  case timing =>
    rw [TimingMode.toJson_eq]
    exact .timing (means_encode _)
  case timingWritten =>
    rw [TimingMode.toJson_eq]
    exact written_ofText _
  case policy =>
    rw [FaultPolicy.toJson_eq]
    exact .faultPolicy (means_encode _)
  case policyWritten =>
    rw [FaultPolicy.toJson_eq]
    exact written_ofText _
  case deviceTree =>
    split
    case h_1 d hd =>
      obtain ⟨-, members, hmembersEq, hgives⟩ := d.toJson_writes
      rw [hmembersEq]
      exact .deviceTree hd hgives (by decide) (.inl (by decide))
    case h_2 hnone => exact .noDeviceTree hnone
  case deviceTreeWritten =>
    split
    case h_1 d _ => exact d.toJson_writes.1
    case h_2 => exact .null

/-- A configuration is read from what is written for it. -/
theorem ofFile_toText (c : Config) : ofFile (some c.toText.toUTF8) = .ok c := by
  obtain ⟨hwritten, members, heq, hgives⟩ := c.toJson_writes
  have htext : (JsonValue.object members).Text c.toText.toList := by
    rw [toText, String.toList_ofList, ← heq]
    exact hwritten.text
  rw [ofFile_given hgives htext, taking_all]

/-- A configuration file can be written and read, and a file that gives some fields overrides
these: any fields of the configuration, the units and the cache, in any order, with any blanks and
any other members. -/
theorem files (c : Config) :
    ofFile (some c.toText.toUTF8) = .ok c ∧
      ∀ (backing cache names : List String) (members : List (List Char × JsonValue))
        (text : String),
        Gives (RecordField.names fields) (c.Given backing cache) names members →
        (JsonValue.object members).Text text.toList →
        ofFile (some text.toUTF8) = .ok (c.taking backing cache names) :=
  ⟨c.ofFile_toText, fun _ _ _ _ _ hgives htext => ofFile_given hgives htext⟩

/-- Some fields on lines of their own, in another order than they are written in, with a member that
is no field. -/
theorem files_partial :
    ofFile (some
        ("\x7b\n \"cache\": \x7b\"line_count\":64\x7d,\n \"note\": [],\n" ++
        " \"ram_size\": 1048576\n\x7d").toUTF8) =
      .ok { ramSize := 1048576, cache := { lineCount := 64 } } := by
  let c : Config := { ramSize := 1048576, cache := { lineCount := 64 } }
  have hcache : PlainName "cache" := by decide
  have hlineCount : PlainName "line_count" := by decide
  have hnote : PlainName "note" := by decide
  have hramSize : PlainName "ram_size" := by decide
  have hgeometry : Gives (RecordField.names CacheGeometry.fields) c.cache.Given ["line_count"]
      [member "line_count" (ofWord64 64)] :=
    .field hlineCount.means .lineCount (by decide) .done
  have hgives : Gives (RecordField.names fields) (c.Given [] ["line_count"]) ["cache", "ram_size"]
      [member "cache" (.object [member "line_count" (ofWord64 64)]), member "note" (.array []),
        member "ram_size" (ofWord32 1048576)] :=
    .field hcache.means (.cache hgeometry) (by decide) <|
      .other hnote.means (by decide) <| .field hramSize.means .ramSize (by decide) .done
  have hspace : Blank [' '] := by simp [Blank, isBlank]
  have hline : Blank ['\n'] := by simp [Blank, isBlank]
  have hindent : Blank ['\n', ' '] := by simp [Blank, isBlank]
  have hobject : Spells (.value (.object [member "line_count" (ofWord64 64)])) _ :=
    .object (.member blank_nil hlineCount.spelling blank_nil blank_nil (written_ofNat 64) blank_nil)
  have hmembers : Spells (.members _) _ :=
    .members hindent hcache.spelling blank_nil hspace hobject blank_nil <|
    .members hindent hnote.spelling blank_nil hspace (.emptyArray blank_nil) blank_nil <|
    .member hindent hramSize.spelling blank_nil hspace (written_ofNat 1048576) hline
  exact (files c).2 [] ["line_count"] ["cache", "ram_size"] _ _ hgives
    ⟨[], _, [], blank_nil, .object hmembers, blank_nil, by decide +kernel⟩

end Config

end RiscvMachine
