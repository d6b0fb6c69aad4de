import ProtoExtensions.Float.Shortest

/-!
How a decimal is written: with its point in place, or with an exponent. A `FloatStyle` says for
which numbers the point stays in place, whether a positive exponent shows its sign, and how ties
between two shortest decimals end. Written with the point in place a number always has digits on
both sides of it.
-/

namespace ProtoExtensions

/-- The choices that the text of a floating-point number leaves open. A number in
`[10 ^ (p - 1), 10 ^ p)` is written with its point in place when `pointFrom ≤ p ≤ pointTo`. -/
structure FloatStyle where
  pointFrom : Int
  pointTo : Int
  signedExponent : Bool
  tie : Tie

namespace Decimal

/-- The digits of a decimal. -/
def digitChars (d : Decimal) : List Char :=
  Nat.toDigits 10 d.digits

/-- The place of the point, counted from the first digit. -/
def point (d : Decimal) : Int :=
  d.digitChars.length + d.exponent

/-- A decimal with its point in place. -/
def positional (d : Decimal) : List Char :=
  let digits := d.digitChars
  let point := d.point
  if point ≤ 0 then
    '0' :: '.' :: (List.replicate (-point).toNat '0' ++ digits)
  else if digits.length ≤ point then
    digits ++ List.replicate (point - digits.length).toNat '0' ++ ['.', '0']
  else
    digits.take point.toNat ++ '.' :: digits.drop point.toNat

/-- A decimal with one digit before the point and an exponent. -/
def scientific (d : Decimal) (signedExponent : Bool) : List Char :=
  let exponent := d.point - 1
  let mantissa := match d.digitChars with
    | [] => []
    | [digit] => [digit]
    | digit :: rest => digit :: '.' :: rest
  let sign := if exponent < 0 then ['-'] else if signedExponent then ['+'] else []
  mantissa ++ 'e' :: (sign ++ Nat.toDigits 10 exponent.natAbs)

/-- A decimal in the notation that a style asks for. -/
def write (d : Decimal) (style : FloatStyle) : List Char :=
  if style.pointFrom ≤ d.point ∧ d.point ≤ style.pointTo then d.positional
  else d.scientific style.signedExponent

end Decimal

namespace FloatFormat

/-- A finite number in the fewest digits that read back; zero has its point in place. -/
def write (f : FloatFormat) (style : FloatStyle) (negative : Bool) (magnitude : Nat) : String :=
  let text :=
    if magnitude = 0 then ['0', '.', '0'] else (f.shortest style.tie magnitude).write style
  String.ofList (if negative then '-' :: text else text)

end FloatFormat

end ProtoExtensions
