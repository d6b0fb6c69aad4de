import ProtoExtensions.Float.Format

/-!
Reading a floating-point number from text: an optional sign, then digits with an optional point and
an optional exponent, or one of the words for infinity and for what is not a number, in any letter
case. At least one digit stands on some side of the point, and an exponent has a digit of its own.
The exact decimal value is rounded once, directly to the format asked for.
-/

namespace ProtoExtensions

/-- The value of a run of decimal digits. -/
def digitsValue (digits : List Char) : Nat :=
  digits.foldl (fun value c => 10 * value + (c.toNat - '0'.toNat)) 0

/-- An unsigned decimal numeral taken apart: the digits on both sides of the point and the
exponent. -/
structure Numeral where
  whole : List Char
  fraction : List Char
  exponent : Int
  deriving DecidableEq, Repr

namespace Numeral

/-- An exponent's text after its letter: an optional sign and at least one digit. -/
def readExponent? (text : List Char) : Option Int :=
  let (negative, digits) := match text with
    | '-' :: rest => (true, rest)
    | '+' :: rest => (false, rest)
    | rest => (false, rest)
  if digits.isEmpty || !digits.all Char.isDigit then none
  else some (if negative then -(digitsValue digits : Int) else digitsValue digits)

/-- An unsigned numeral from the whole text. -/
def read? (text : List Char) : Option Numeral :=
  let whole := text.takeWhile Char.isDigit
  let afterWhole := text.dropWhile Char.isDigit
  let (fraction, rest) := match afterWhole with
    | '.' :: more => (more.takeWhile Char.isDigit, more.dropWhile Char.isDigit)
    | more => ([], more)
  if whole.isEmpty && fraction.isEmpty then none
  else match rest with
    | [] => some ⟨whole, fraction, 0⟩
    | c :: more =>
      if c = 'e' || c = 'E' then
        (readExponent? more).map fun exponent => ⟨whole, fraction, exponent⟩
      else none

/-- All digits as one number. -/
def digits (n : Numeral) : Nat :=
  digitsValue (n.whole ++ n.fraction)

/-- The power of ten that the digits are scaled by. -/
def power (n : Numeral) : Int :=
  n.exponent - n.fraction.length

end Numeral

/-- Decimal exponents beyond this bound leave every format's range, so powers need not be raised. -/
def decimalReach : Int := 400

namespace FloatFormat

/-- The magnitude nearest to `digits * 10 ^ exponent`. -/
def ofDecimal (f : FloatFormat) (digits : Nat) (exponent : Int) : Nat :=
  let point := (Nat.toDigits 10 digits).length + exponent
  if digits = 0 ∨ point < -decimalReach then 0
  else if decimalReach < point then f.infinity
  else f.roundQuotient (digits * Nat.pow 10 exponent.toNat) (Nat.pow 10 (-exponent).toNat)

/-- The magnitude that an unsigned text stands for. -/
def readMagnitude? (f : FloatFormat) (text : List Char) : Option Nat :=
  let word := String.ofList (text.map Char.toLower)
  if word = "inf" ∨ word = "infinity" then some f.infinity
  else if word = "nan" then some f.notANumber
  else (Numeral.read? text).map fun n => f.ofDecimal n.digits n.power

/-- The pattern that a text stands for. -/
def read? (f : FloatFormat) (text : List Char) : Option Nat :=
  match text with
  | '-' :: rest => (f.readMagnitude? rest).map (f.withSign true)
  | '+' :: rest => f.readMagnitude? rest
  | rest => f.readMagnitude? rest

end FloatFormat

end ProtoExtensions
