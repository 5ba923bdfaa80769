import RiscvMachine.Json.Value

set_option autoImplicit false

/-! # Records in JSON

A record is described by its fields in order, each with a rule that puts a JSON value into it.
It may be written as an object, whose unknown members are ignored and whose known members may
stand there once each, or as an array of its fields in order, which may stop early.
-/

namespace RiscvMachine.JsonValue

/-- A field of a record: its name and what a value does to the record. -/
structure RecordField (α : Type) where
  name : String
  put : JsonValue → α → Option α

namespace RecordField

variable {α : Type}

/-- Puts the members of an object into a record; `seen` are the names met so far. -/
def putMembers (fields : List (RecordField α)) :
    List (List Char × JsonValue) → List String → α → Option α
  | [], _, record => some record
  | (spelling, value) :: rest, seen, record => do
    let name := String.ofList (← decodeSpelling spelling)
    match fields.find? fun field => field.name == name with
    | none => putMembers fields rest seen record
    | some field =>
      if seen.contains name then none
      else putMembers fields rest (name :: seen) (← field.put value record)

/-- Puts the items of an array into the fields in order. -/
def putItems : List (RecordField α) → List JsonValue → α → Option α
  | _, [], record => some record
  | [], _ :: _, _ => none
  | field :: fields, item :: items, record => do
    putItems fields items (← field.put item record)

/-- The record that a value writes over the given one. -/
def readOver (fields : List (RecordField α)) (record : α) : JsonValue → Option α
  | object members => putMembers fields members [] record
  | array items => putItems fields items record
  | _ => none

end RecordField

/-- The choice that a value names: its name alone, or an object that gives it as the name of a
null. -/
def choice? {α : Type} (choices : List (String × α)) : JsonValue → Option α
  | string spelling => do choices.lookup (String.ofList (← decodeSpelling spelling))
  | object [(spelling, null)] => do choices.lookup (String.ofList (← decodeSpelling spelling))
  | _ => none

end RiscvMachine.JsonValue
