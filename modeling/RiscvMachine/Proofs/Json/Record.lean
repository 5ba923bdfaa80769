import Mathlib.Data.List.Basic
import RiscvMachine.Json.Record

set_option autoImplicit false

/-! # Records over defaults

An object may give some fields of a record, in any order, and may have other members. What it is
read as depends on which fields it gives (`Overrides.readOver`): while the members are put in one
after the other, the record is at each moment what the fields seen so far make of the default.
-/

namespace RiscvMachine.JsonValue

def Means (spelling : List Char) (text : String) : Prop :=
  decodeSpelling spelling = some text.toList

/-- The members give the fields with these names, in any order and once each, by values that are
given for them. There may be members of any other name, with any values. -/
inductive Gives (known : List String) (given : String → JsonValue → Prop) :
    List String → List (List Char × JsonValue) → Prop
  | done : Gives known given [] []
  | field {name : String} {spelling : List Char} {value : JsonValue} {names : List String}
      {rest : List (List Char × JsonValue)} (hname : Means spelling name)
      (hgiven : given name value) (hnew : name ∉ names) (hrest : Gives known given names rest) :
      Gives known given (name :: names) ((spelling, value) :: rest)
  | other {name : String} {spelling : List Char} {value : JsonValue} {names : List String}
      {rest : List (List Char × JsonValue)} (hname : Means spelling name) (hother : name ∉ known)
      (hrest : Gives known given names rest) :
      Gives known given names ((spelling, value) :: rest)

/-- Members that are known are among the others for a reader that knows fewer names. -/
theorem Gives.restrict {known known' names : List String} {given given' : String → JsonValue → Prop}
    {members : List (List Char × JsonValue)} (h : Gives known given names members)
    (hknown : ∀ name ∈ known', name ∈ known)
    (hgiven : ∀ name ∈ known', ∀ value, given name value → given' name value) :
    Gives known' given' (names.filter (· ∈ known')) members := by
  induction h with
  | done => exact .done
  | @field name spelling value names rest hname hvalue hnew _ ih =>
      by_cases hmem : name ∈ known'
      · rw [List.filter_cons, if_pos (decide_eq_true hmem)]
        exact .field hname (hgiven name hmem value hvalue)
          (fun h => hnew (List.mem_of_mem_filter h)) ih
      · rw [List.filter_cons, if_neg (mt of_decide_eq_true hmem)]
        exact .other hname hmem ih
  | other hname hother _ ih => exact .other hname (mt (hknown _) hother) ih

/-- The field of this name if it is among those that are chosen, and its default otherwise. -/
def pick {α : Type} (names : List String) (name : String) (value default : α) : α :=
  if name ∈ names then value else default

section

variable {α : Type} {names : List String} {name name' : String} {value default : α}

@[simp] theorem pick_cons_self : pick (name :: names) name value default = value :=
  if_pos List.mem_cons_self

@[simp] theorem pick_cons_ne (h : name ≠ name') :
    pick (name' :: names) name value default = pick names name value default := by
  simp only [pick, List.mem_cons, h, false_or]

theorem pick_congr {names' : List String} (h : ∀ name, name ∈ names ↔ name ∈ names')
    (name : String) (value default : α) :
    pick names name value default = pick names' name value default := by
  simp only [pick, h]

end

namespace RecordField

variable {α : Type}

def names (fields : List (RecordField α)) : List String := fields.map RecordField.name

/-- How values that are given for fields override a default: `overridden names` is the record with
the fields of these names overridden. -/
structure Overrides (fields : List (RecordField α)) (given : String → JsonValue → Prop)
    (overridden : List String → α) : Prop where
  put {name : String} {value : JsonValue} : given name value → ∀ names, ∃ field,
    fields.find? (fun field => field.name == name) = some field ∧
      field.put value (overridden names) = some (overridden (name :: names))
  /-- The order does not matter. -/
  congr {names names' : List String} : (∀ name, name ∈ names ↔ name ∈ names') →
    overridden names = overridden names'

variable {fields : List (RecordField α)} {given : String → JsonValue → Prop}
  {overridden : List String → α}

theorem find?_unknown {name : String} (h : name ∉ names fields) :
    fields.find? (fun field => field.name == name) = none := by
  rw [List.find?_eq_none]
  intro field hfield hname
  exact h (List.mem_map.mpr ⟨field, hfield, beq_iff_eq.mp hname⟩)

/-- A member of another name is passed over. -/
theorem putMembers_other {spelling : List Char} {name : String} (hname : Means spelling name)
    (hother : name ∉ names fields) (value : JsonValue) (rest : List (List Char × JsonValue))
    (seen : List String) (record : α) :
    putMembers fields ((spelling, value) :: rest) seen record =
      putMembers fields rest seen record := by
  rw [putMembers, show decodeSpelling spelling = _ from hname]
  simp only [bind, Option.bind_some, String.ofList_toList, find?_unknown hother]

/-- A member that gives a field for the first time is put into it. -/
theorem putMembers_field {spelling : List Char} {name : String} (hname : Means spelling name)
    {field : RecordField α} (hfind : fields.find? (fun field => field.name == name) = some field)
    {seen : List String} (hseen : name ∉ seen) (value : JsonValue)
    (rest : List (List Char × JsonValue)) (record : α) :
    putMembers fields ((spelling, value) :: rest) seen record =
      (field.put value record).bind (putMembers fields rest (name :: seen)) := by
  have hcontains : ¬ seen.contains name = true := mt List.contains_iff_mem.mp hseen
  rw [putMembers, show decodeSpelling spelling = _ from hname]
  simp only [bind, Option.bind_some, String.ofList_toList, hfind, if_neg hcontains]

/-- The record is at each moment what the fields seen so far make of it. -/
theorem Overrides.putMembers (h : Overrides fields given overridden) {names : List String}
    {members : List (List Char × JsonValue)}
    (hgives : Gives (RecordField.names fields) given names members) (seen : List String)
    (hnew : ∀ name ∈ names, name ∉ seen) :
    RecordField.putMembers fields members seen (overridden seen) =
      some (overridden (names.reverse ++ seen)) := by
  induction hgives generalizing seen with
  | done => rfl
  | @field name spelling value names rest hname hgiven hnames _ ih =>
      obtain ⟨field, hfind, hput⟩ := h.put hgiven seen
      have hrest := ih (name :: seen) fun name' hname' => by
        rw [List.mem_cons, not_or]
        refine ⟨?_, hnew name' (List.mem_cons_of_mem _ hname')⟩
        rintro rfl
        exact hnames hname'
      rw [putMembers_field hname hfind (hnew name List.mem_cons_self), hput, Option.bind_some,
        hrest, List.reverse_cons, List.append_assoc, List.singleton_append]
  | @other name spelling value names rest hname hother _ ih =>
      rw [putMembers_other hname hother]
      exact ih seen hnew

/-- An object that gives some fields is read as the default with these overridden. -/
theorem Overrides.readOver (h : Overrides fields given overridden) {names : List String}
    {members : List (List Char × JsonValue)}
    (hgives : Gives (RecordField.names fields) given names members) :
    RecordField.readOver fields (overridden []) (.object members) = some (overridden names) := by
  rw [RecordField.readOver, h.putMembers hgives [] fun _ _ => List.not_mem_nil]
  exact congrArg some (h.congr fun name => by rw [List.append_nil, List.mem_reverse])

end RecordField

end RiscvMachine.JsonValue
