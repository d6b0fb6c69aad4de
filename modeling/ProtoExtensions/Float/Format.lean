/-!
Binary floating-point numbers as bit patterns. A format is given by the width of its fraction and of
its exponent field; the pattern of a magnitude (without the sign) is a natural number whose order is
the order of the magnitudes. Every finite magnitude is `significand * 2 ^ scale` units, where the
unit `2 ^ -fineness` is the smallest subnormal number, so that arithmetic on magnitudes stays in the
natural numbers. `roundQuotient` rounds an exact quotient to the nearest magnitude, once, with ties
to the even pattern.
-/

namespace ProtoExtensions

/-- A binary interchange format: the widths of fraction and exponent field. -/
structure FloatFormat where
  fractionBits : Nat
  exponentBits : Nat
  deriving DecidableEq, Repr

namespace FloatFormat

/-- The 32-bit format. -/
def single : FloatFormat := ⟨23, 8⟩

/-- The 64-bit format. -/
def double : FloatFormat := ⟨52, 11⟩

/-- The pattern of infinity: all exponent bits set. -/
def infinity (f : FloatFormat) : Nat :=
  ((1 <<< f.exponentBits) - 1) <<< f.fractionBits

/-- The sign bit's place in a pattern. -/
def signBit (f : FloatFormat) : Nat :=
  1 <<< (f.fractionBits + f.exponentBits)

/-- Some pattern that is not a number. -/
def notANumber (f : FloatFormat) : Nat :=
  f.infinity + (1 <<< (f.fractionBits - 1))

/-- The smallest subnormal number is `2 ^ -fineness`. -/
def fineness (f : FloatFormat) : Nat :=
  (1 <<< (f.exponentBits - 1)) - 2 + f.fractionBits

/-- Whether a pattern has its sign bit set. -/
def isNegative (f : FloatFormat) (bits : Nat) : Bool :=
  f.signBit ≤ bits

/-- A pattern without its sign bit. -/
def magnitude (f : FloatFormat) (bits : Nat) : Nat :=
  bits % f.signBit

/-- A magnitude with a sign. -/
def withSign (f : FloatFormat) (negative : Bool) (magnitude : Nat) : Nat :=
  if negative then f.signBit + magnitude else magnitude

/-- The power of two that the significand of a finite magnitude is scaled by, in units of the
smallest subnormal number. -/
def scale (f : FloatFormat) (magnitude : Nat) : Nat :=
  (magnitude >>> f.fractionBits) - 1

/-- The significand of a finite magnitude, the leading one included. -/
def significand (f : FloatFormat) (magnitude : Nat) : Nat :=
  magnitude - (f.scale magnitude <<< f.fractionBits)

/-- What a pattern stands for. -/
inductive Class where
  | notANumber
  | infinite (negative : Bool)
  | finite (negative : Bool) (magnitude : Nat)
  deriving DecidableEq, Repr

/-- The class of a pattern. -/
def classify (f : FloatFormat) (bits : Nat) : Class :=
  let magnitude := f.magnitude bits
  if magnitude < f.infinity then .finite (f.isNegative bits) magnitude
  else if magnitude = f.infinity then .infinite (f.isNegative bits)
  else .notANumber

/-- A quotient rounded to the nearest integer, a half to the even neighbour. -/
def roundHalfEven (numerator denominator : Nat) : Nat :=
  let floor := numerator / denominator
  let twice := 2 * (numerator % denominator)
  if twice < denominator || (twice = denominator && floor % 2 = 0) then floor else floor + 1

/-- The magnitude nearest to `numerator / denominator`. The scale is the least one at which the
quotient fits the significand; a significand that rounds up to the next power of two carries into
the exponent field, and what lies beyond the largest finite magnitude is infinity. -/
def roundQuotient (f : FloatFormat) (numerator denominator : Nat) : Nat :=
  let units := numerator <<< f.fineness
  let scale := (units / denominator).log2 - f.fractionBits
  min f.infinity
    ((scale <<< f.fractionBits) + roundHalfEven units (denominator <<< scale))

/-- Equality of the numbers that two patterns stand for: what is not a number equals nothing, and
the two zeros are equal. -/
def sameNumber (f : FloatFormat) (a b : Nat) : Bool :=
  match f.classify a, f.classify b with
  | .notANumber, _ => false
  | _, .notANumber => false
  | .finite _ 0, .finite _ 0 => true
  | x, y => x == y

end FloatFormat

end ProtoExtensions
