import RiscvMachine.Text.Numeral

set_option autoImplicit false

/-! # Numbers on the command line

Unsigned numbers as an operator writes them: digits, optionally behind a plus sign. Offsets may
also be hexadecimal. Sizes are given in MiB.
-/

namespace RiscvMachine.CommandLine

inductive NumberError
  | empty
  | invalidDigit
  | tooLarge
  deriving DecidableEq, Repr

def NumberError.message : NumberError → String
  | .empty => "cannot parse integer from empty string"
  | .invalidDigit => "invalid digit found in string"
  | .tooLarge => "number too large to fit in target type"

/-- The value of a digit in a base of at most sixteen. -/
def digitValue? (base : Nat) (c : Char) : Option Nat :=
  let value :=
    if '0' ≤ c ∧ c ≤ '9' then some (c.toNat - 48)
    else if 'a' ≤ c ∧ c ≤ 'f' then some (c.toNat - 87)
    else if 'A' ≤ c ∧ c ≤ 'F' then some (c.toNat - 55)
    else none
  value.filter (· < base)

/-- Appends digits to a number that must stay below `bound`. The first fault from the left is
the one reported. -/
def appendDigits (base bound : Nat) : List Char → Nat → Except NumberError Nat
  | [], n => .ok n
  | c :: rest, n =>
    match digitValue? base c with
    | none => .error .invalidDigit
    | some d =>
      if n * base + d < bound then appendDigits base bound rest (n * base + d)
      else .error .tooLarge

def parseNumber (base bound : Nat) (text : List Char) : Except NumberError Nat :=
  match text with
  | [] => .error .empty
  | ['+'] | ['-'] => .error .invalidDigit
  | '+' :: digits => appendDigits base bound digits 0
  | digits => appendDigits base bound digits 0

/-- An offset in bytes, hexadecimal behind `0x` or `0X` and else decimal. The error is the text
for the operator. -/
def parseOffset (text : String) : Except String UInt64 :=
  let parsed := match text.toList with
    | '0' :: 'x' :: digits | '0' :: 'X' :: digits => parseNumber 16 UInt64.size digits
    | digits => parseNumber 10 UInt64.size digits
  match parsed with
  | .ok n => .ok (UInt64.ofNat n)
  | .error e => .error s!"invalid offset '{text}': {e.message}"

/-- The bytes in `count` MiB, if they fit into 32 bits. The error names the option. -/
def mebibytes (option : String) (count : UInt32) : Except String UInt32 :=
  let bytes := count.toNat * 1048576
  if bytes < UInt32.size then .ok (UInt32.ofNat bytes)
  else .error s!"--{option} {Text.decimal count.toNat} does not fit in a 32-bit byte count"

end RiscvMachine.CommandLine
