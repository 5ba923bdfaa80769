set_option autoImplicit false

/-! # JSON values

A JSON text taken apart but not yet understood: numbers and strings keep their spelling, and
objects keep their members in order, repeated names included. What a spelling means is asked
only where the value is used, so a value that nobody uses need only be well-formed.
-/

namespace RiscvMachine

/-- A JSON value in its spelling. Strings are spelled without their quotes. -/
inductive JsonValue
  | null
  | bool (b : Bool)
  | number (spelling : List Char)
  | string (spelling : List Char)
  | array (items : List JsonValue)
  | object (members : List (List Char × JsonValue))
  deriving Inhabited

namespace JsonValue

/-! ## Strings -/

def hexDigit? (c : Char) : Option Nat :=
  if '0' ≤ c ∧ c ≤ '9' then some (c.toNat - 48)
  else if 'a' ≤ c ∧ c ≤ 'f' then some (c.toNat - 87)
  else if 'A' ≤ c ∧ c ≤ 'F' then some (c.toNat - 55)
  else none

def hexQuad? (a b c d : Char) : Option Nat := do
  let a ← hexDigit? a
  let b ← hexDigit? b
  let c ← hexDigit? c
  let d ← hexDigit? d
  return ((a * 16 + b) * 16 + c) * 16 + d

/-- The character that a one-letter escape stands for. -/
def simpleEscape? : Char → Option Char
  | '"' => some '"'
  | '\\' => some '\\'
  | '/' => some '/'
  | 'b' => some '\x08'
  | 'f' => some '\x0c'
  | 'n' => some '\n'
  | 'r' => some '\r'
  | 't' => some '\t'
  | _ => none

/-- The codes that a spelling stands for: one for each character and each escape. -/
def spelledCodes : List Char → Option (List Nat)
  | [] => some []
  | '\\' :: 'u' :: a :: b :: c :: d :: rest => do
    return (← hexQuad? a b c d) :: (← spelledCodes rest)
  | '\\' :: c :: rest => do
    return (← simpleEscape? c).toNat :: (← spelledCodes rest)
  | c :: rest => do
    return c.toNat :: (← spelledCodes rest)

/-- Whether a code is the first half of a surrogate pair. -/
def isHighSurrogate (code : Nat) : Bool := 0xD800 ≤ code && code < 0xDC00

/-- Whether a code is the second half of a surrogate pair. -/
def isLowSurrogate (code : Nat) : Bool := 0xDC00 ≤ code && code < 0xE000

/-- The characters with the given codes. Two halves of a surrogate pair make one character, and
a half without its partner is refused. -/
def joinCodes : List Nat → Option (List Char)
  | [] => some []
  | [code] =>
    if isHighSurrogate code || isLowSurrogate code then none else some [Char.ofNat code]
  | high :: low :: rest =>
    if isHighSurrogate high then
      if isLowSurrogate low then do
        let code := 0x10000 + (high - 0xD800) * 0x400 + (low - 0xDC00)
        return Char.ofNat code :: (← joinCodes rest)
      else none
    else if isLowSurrogate high then none
    else do return Char.ofNat high :: (← joinCodes (low :: rest))

def decodeSpelling (spelling : List Char) : Option (List Char) := do
  joinCodes (← spelledCodes spelling)

/-- The text of a string, if it is one and stands for one. -/
def text? : JsonValue → Option String
  | string spelling => (decodeSpelling spelling).map String.ofList
  | _ => none

def hexDigit (n : Nat) : Char :=
  if n < 10 then Char.ofNat (48 + n) else Char.ofNat (87 + n)

/-- The escape of one letter that a character is written with, if it has one. -/
def escapeLetter? : Char → Option Char
  | '"' => some '"'
  | '\\' => some '\\'
  | '\x08' => some 'b'
  | '\x0c' => some 'f'
  | '\n' => some 'n'
  | '\r' => some 'r'
  | '\t' => some 't'
  | _ => none

/-- The spelling of one character: quotes, backslashes and control characters are escaped. -/
def encodeChar (c : Char) : List Char :=
  match escapeLetter? c with
  | some letter => ['\\', letter]
  | none =>
    if c.toNat < 0x20 then
      ['\\', 'u', '0', '0', hexDigit (c.toNat / 16), hexDigit (c.toNat % 16)]
    else [c]

def ofText (text : String) : JsonValue :=
  .string (text.toList.flatMap encodeChar)

/-! ## Numbers -/

def ofDigits (digits : List Char) : Nat :=
  digits.foldl (fun n c => 10 * n + (c.toNat - 48)) 0

/-- A number without sign, fraction and exponent. -/
def natural? : JsonValue → Option Nat
  | number spelling => if spelling.all Char.isDigit then some (ofDigits spelling) else none
  | _ => none

def naturalBelow? (bound : Nat) (v : JsonValue) : Option Nat := do
  let n ← v.natural?
  if n < bound then some n else none

def ofNat (n : Nat) : JsonValue :=
  .number (Nat.toDigits 10 n)

def bool? : JsonValue → Option Bool
  | bool b => some b
  | _ => none

/-- The parts of a number's spelling: the digits in front of the point, those behind it, and
the exponent. -/
def numberParts (spelling : List Char) : List Char × List Char × Int :=
  let unsigned := spelling.dropWhile (· == '-')
  let whole := unsigned.takeWhile Char.isDigit
  let rest := unsigned.dropWhile Char.isDigit
  let fraction := match rest with
    | '.' :: tail => tail.takeWhile Char.isDigit
    | _ => []
  let exponent : Int := match rest.dropWhile fun c => c == '.' || c.isDigit with
    | _ :: '-' :: digits => -(ofDigits digits : Int)
    | _ :: '+' :: digits => ofDigits digits
    | _ :: digits => ofDigits digits
    | [] => 0
  (whole, fraction, exponent)

/-- Appends digits to a number as long as it stays below `2 ^ 64`: the number, and how many
digits are left. -/
def appendDigits : Nat → List Char → Nat × Nat
  | n, [] => (n, 0)
  | n, c :: rest =>
    let next := 10 * n + (c.toNat - 48)
    if UInt64.size ≤ next then (n, rest.length + 1) else appendDigits next rest

/-- A number as a significand below `2 ^ 64` times a power of ten. Digits in front of the point
that do not fit count in the exponent only, those behind it not at all. -/
def significandAndExponent (spelling : List Char) : Nat × Int :=
  let (whole, fraction, exponent) := numberParts spelling
  let (significand, dropped) := appendDigits 0 whole
  let (significand, ignored) := appendDigits significand fraction
  (significand, exponent + dropped - (fraction.length - ignored : Nat))

/-- The nearest number of 53 significant bits; a tie goes to the even one. -/
def roundToDouble (n : Nat) : Nat :=
  let excess := n.log2 - 52
  let unit := 1 <<< excess
  let quotient := n / unit
  let twice := 2 * (n % unit)
  if unit < twice ∨ (unit = twice ∧ quotient % 2 = 1) then (quotient + 1) * unit
  else quotient * unit

/-- The least number that is rounded beyond the range of double precision. -/
def doubleLimit : Nat := (1 <<< 1024) - (1 <<< 970)

/-- Whether a number is within the range of double precision when its significand and its power
of ten are rounded before they are multiplied. Powers of ten have a range of their own. -/
def isRepresentable (spelling : List Char) : Bool :=
  let (significand, exponent) := significandAndExponent spelling
  if significand = 0 ∨ exponent ≤ 0 then true
  else if 308 < exponent then false
  else
    roundToDouble significand * roundToDouble (Nat.pow 10 exponent.toNat) < doubleLimit

/-! ## Writing -/

mutual

def render : JsonValue → List Char
  | null => "null".toList
  | bool true => "true".toList
  | bool false => "false".toList
  | number spelling => spelling
  | string spelling => '"' :: spelling ++ ['"']
  | array items => '[' :: renderItems items ++ [']']
  | object members => '{' :: renderMembers members ++ ['}']

def renderItems : List JsonValue → List Char
  | [] => []
  | [item] => item.render
  | item :: rest => item.render ++ ',' :: renderItems rest

def renderMembers : List (List Char × JsonValue) → List Char
  | [] => []
  | [(name, value)] => '"' :: name ++ '"' :: ':' :: value.render
  | (name, value) :: rest =>
    '"' :: name ++ '"' :: ':' :: value.render ++ ',' :: renderMembers rest

end

mutual

def depth : JsonValue → Nat
  | array items => depthItems items + 1
  | object members => depthMembers members + 1
  | _ => 0

def depthItems : List JsonValue → Nat
  | [] => 0
  | item :: rest => max item.depth (depthItems rest)

def depthMembers : List (List Char × JsonValue) → Nat
  | [] => 0
  | (_, value) :: rest => max value.depth (depthMembers rest)

end

mutual

/-- Whether every name, string and number inside has a meaning. -/
def isMeaningful : JsonValue → Bool
  | number spelling => isRepresentable spelling
  | string spelling => (decodeSpelling spelling).isSome
  | array items => itemsMeaningful items
  | object members => membersMeaningful members
  | _ => true

def itemsMeaningful : List JsonValue → Bool
  | [] => true
  | item :: rest => item.isMeaningful && itemsMeaningful rest

def membersMeaningful : List (List Char × JsonValue) → Bool
  | [] => true
  | (name, value) :: rest =>
    (decodeSpelling name).isSome && value.isMeaningful && membersMeaningful rest

end

end JsonValue

end RiscvMachine
