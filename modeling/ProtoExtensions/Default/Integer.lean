import ProtoExtensions.Text.Blank

/-!
Integer defaults. After trimming, an integer is an optional sign followed by hexadecimal digits
behind `0x`, by octal digits behind a further `0`, or by decimal digits. Its magnitude must stay
below `2 ^ 127`; the range of the field's own type is checked elsewhere.
-/

namespace ProtoExtensions

/-- The value of a digit in some base up to sixteen. -/
def digitValue? (c : Char) : Option Nat :=
  if '0' ≤ c ∧ c ≤ '9' then some (c.toNat - '0'.toNat)
  else if 'a' ≤ c ∧ c ≤ 'f' then some (c.toNat - 'a'.toNat + 10)
  else if 'A' ≤ c ∧ c ≤ 'F' then some (c.toNat - 'A'.toNat + 10)
  else none

/-- A digit of a given base put behind a number. -/
def appendDigit? (base value : Nat) (c : Char) : Option Nat :=
  match digitValue? c with
  | some digit => if digit < base then some (base * value + digit) else none
  | none => none

/-- The value of a run of digits that continues a number. -/
def digitsFrom? (base : Nat) : Nat → List Char → Option Nat
  | value, [] => some value
  | value, c :: rest => (appendDigit? base value c).bind fun value => digitsFrom? base value rest

/-- The largest magnitude an integer text may have. -/
def integerBound : Nat := 0x7FFFFFFFFFFFFFFFFFFFFFFFFFFFFFFF

/-- The base that an unsigned integer text announces, and its digits. -/
def integerBody : List Char → Nat × List Char
  | '0' :: 'x' :: rest => (16, rest)
  | '0' :: 'X' :: rest => (16, rest)
  | '0' :: c :: rest => (8, c :: rest)
  | rest => (10, rest)

/-- The value of an unsigned integer text. -/
def readUnsigned? (text : List Char) : Option Nat :=
  match integerBody text with
  | (_, []) => none
  | (base, digits) => (digitsFrom? base 0 digits).filter (· ≤ integerBound)

/-- The value of an integer text. -/
def readInteger? (text : String) : Option Int :=
  match trim text.toList with
  | '-' :: rest => (readUnsigned? rest).map fun n => -(n : Int)
  | '+' :: rest => (readUnsigned? rest).map fun n => (n : Int)
  | rest => (readUnsigned? rest).map fun n => (n : Int)

example : readInteger? "-0x10" = some (-16) := by decide +kernel
example : readInteger? " 017 " = some 15 := by decide +kernel
example : readInteger? "--5" = none := by decide +kernel

end ProtoExtensions
