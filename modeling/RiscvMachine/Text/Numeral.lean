set_option autoImplicit false

/-! # Written numbers

The decimal and hexadecimal spellings used in console text, state dumps and messages.
Hexadecimal digits are lower case.
-/

namespace RiscvMachine.Text

/-- The decimal spelling, without leading zeros. -/
def decimal (n : Nat) : String :=
  String.ofList (Nat.toDigits 10 n)

/-- The decimal spelling of an integer, with a minus sign if it is negative. -/
def signedDecimal : Int → String
  | .ofNat n => decimal n
  | .negSucc n => "-" ++ decimal (n + 1)

/-- The hexadecimal spelling, with leading zeros up to `width` digits. -/
def hex (width n : Nat) : String :=
  let digits := Nat.toDigits 16 n
  String.ofList (List.replicate (width - digits.length) '0' ++ digits)

/-- `text` with blanks in front up to `width` characters. -/
def alignRight (width : Nat) (text : String) : String :=
  String.ofList (List.replicate (width - text.length) ' ') ++ text

end RiscvMachine.Text
