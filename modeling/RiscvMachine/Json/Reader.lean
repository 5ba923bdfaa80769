import RiscvMachine.Json.Value

set_option autoImplicit false

/-! # Reading JSON

Strict JSON: no comments, no trailing commas, no leading zeros, nothing but blanks behind the
value. Strings may hold any character except quotes, backslashes and control characters, and
well-formed escapes.
-/

namespace RiscvMachine.JsonValue

def isBlank (c : Char) : Bool :=
  c == ' ' || c == '\n' || c == '\t' || c == '\r'

def skipBlanks (text : List Char) : List Char :=
  text.dropWhile isBlank

def scanDigits? (text : List Char) : Option (List Char × List Char) :=
  let digits := text.takeWhile Char.isDigit
  if digits.isEmpty then none else some (digits, text.dropWhile Char.isDigit)

/-- The whole part of a number: zero, or digits that do not start with one. -/
def scanWhole? : List Char → Option (List Char × List Char)
  | '0' :: rest => some (['0'], rest)
  | text => scanDigits? text

def scanFraction? : List Char → Option (List Char × List Char)
  | '.' :: rest => (scanDigits? rest).map fun (digits, rest) => ('.' :: digits, rest)
  | text => some ([], text)

def scanExponent? : List Char → Option (List Char × List Char)
  | e :: sign :: rest =>
    if e = 'e' ∨ e = 'E' then
      if sign = '+' ∨ sign = '-' then
        (scanDigits? rest).map fun (digits, rest) => (e :: sign :: digits, rest)
      else (scanDigits? (sign :: rest)).map fun (digits, rest) => (e :: digits, rest)
    else some ([], e :: sign :: rest)
  | [e] => if e = 'e' ∨ e = 'E' then none else some ([], [e])
  | [] => some ([], [])

def scanNumber? (text : List Char) : Option (List Char × List Char) := do
  let (sign, rest) := match text with
    | '-' :: rest => (['-'], rest)
    | _ => ([], text)
  let (whole, rest) ← scanWhole? rest
  let (fraction, rest) ← scanFraction? rest
  let (exponent, rest) ← scanExponent? rest
  return (sign ++ whole ++ fraction ++ exponent, rest)

/-- The spelling of a string up to its closing quote, and the text behind that. -/
def scanString? : List Char → Option (List Char × List Char)
  | [] => none
  | '"' :: rest => some ([], rest)
  | '\\' :: 'u' :: a :: b :: c :: d :: rest =>
    if (hexQuad? a b c d).isSome then
      (scanString? rest).map fun (s, rest) => ('\\' :: 'u' :: a :: b :: c :: d :: s, rest)
    else none
  | '\\' :: c :: rest =>
    if (simpleEscape? c).isSome then
      (scanString? rest).map fun (s, rest) => ('\\' :: c :: s, rest)
    else none
  | c :: rest =>
    if c.toNat < 0x20 ∨ c = '\\' then none
    else (scanString? rest).map fun (s, rest) => (c :: s, rest)

mutual

/-- A value and the text behind it. Each level of nesting and each further item takes one unit
of fuel. -/
def scanValue? : Nat → List Char → Option (JsonValue × List Char)
  | 0, _ => none
  | fuel + 1, text =>
    match skipBlanks text with
    | 'n' :: 'u' :: 'l' :: 'l' :: rest => some (.null, rest)
    | 't' :: 'r' :: 'u' :: 'e' :: rest => some (.bool true, rest)
    | 'f' :: 'a' :: 'l' :: 's' :: 'e' :: rest => some (.bool false, rest)
    | '"' :: rest => (scanString? rest).map fun (s, rest) => (.string s, rest)
    | '[' :: rest =>
      match skipBlanks rest with
      | ']' :: rest => some (.array [], rest)
      | rest => (scanItems? fuel rest).map fun (items, rest) => (.array items, rest)
    | '{' :: rest =>
      match skipBlanks rest with
      | '}' :: rest => some (.object [], rest)
      | rest => (scanMembers? fuel rest).map fun (members, rest) => (.object members, rest)
    | rest => (scanNumber? rest).map fun (n, rest) => (.number n, rest)

def scanItems? : Nat → List Char → Option (List JsonValue × List Char)
  | 0, _ => none
  | fuel + 1, text => do
    let (item, rest) ← scanValue? fuel text
    match skipBlanks rest with
    | ',' :: rest =>
      let (items, rest) ← scanItems? fuel rest
      return (item :: items, rest)
    | ']' :: rest => return ([item], rest)
    | _ => none

def scanMembers? : Nat → List Char → Option (List (List Char × JsonValue) × List Char)
  | 0, _ => none
  | fuel + 1, text =>
    match skipBlanks text with
    | '"' :: rest => do
      let (name, rest) ← scanString? rest
      match skipBlanks rest with
      | ':' :: rest =>
        let (value, rest) ← scanValue? fuel rest
        match skipBlanks rest with
        | ',' :: rest =>
          let (members, rest) ← scanMembers? fuel rest
          return ((name, value) :: members, rest)
        | '}' :: rest => return ([(name, value)], rest)
        | _ => none
      | _ => none
    | _ => none

end

/-- The value that a text spells; `none` if it is not strict JSON. -/
def parse? (text : List Char) : Option JsonValue := do
  let (value, rest) ← scanValue? (2 * text.length + 1) text
  if (skipBlanks rest).isEmpty then some value else none

end RiscvMachine.JsonValue
