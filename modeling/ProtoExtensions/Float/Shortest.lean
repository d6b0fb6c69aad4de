import ProtoExtensions.Float.Format

/-!
The shortest decimal that reads back as a given magnitude. A decimal reads back when it lies in the
magnitude's rounding interval, whose ends belong to it when the significand is even. The search goes
through the grids of multiples of a power of ten, coarse ones first: the first grid with a point in
the interval gives the fewest digits, and of its two points beside the magnitude the nearer one is
taken. All quantities are scaled by `4 * 10 ^ fineness`, which makes them natural numbers.
-/

namespace ProtoExtensions

/-- A decimal `digits * 10 ^ exponent`. -/
structure Decimal where
  digits : Nat
  exponent : Int
  deriving DecidableEq, Repr

/-- Which of two points a number halfway between them is rounded to: the greater one, or the one
whose last digit is even. -/
inductive Tie where
  | up
  | even
  deriving DecidableEq, Repr

/-- Whether a tie between a multiple and the next one goes to the lower one. -/
def Tie.goesDown (tie : Tie) (multiple : Nat) : Bool :=
  match tie with
  | up => false
  | even => multiple % 2 = 0

/-- A magnitude with its rounding interval: the distances to both ends, and whether the ends belong
to it, all scaled alike. -/
structure RoundingInterval where
  center : Nat
  below : Nat
  above : Nat
  closed : Bool
  deriving Repr

namespace RoundingInterval

/-- Whether a point at a distance under `reach` from the center lies in the interval. -/
def reaches (i : RoundingInterval) (distance reach : Nat) : Bool :=
  if i.closed then distance ≤ reach else distance < reach

/-- The point of the grid of multiples of `unit` that lies in the interval nearest to its center, as
a multiple. -/
def nearest? (i : RoundingInterval) (tie : Tie) (unit : Nat) : Option Nat :=
  let floor := i.center / unit
  let down := i.center - floor * unit
  let up := (floor + 1) * unit - i.center
  match i.reaches down i.below, i.reaches up i.above with
  | true, true =>
    some (if down < up || (down = up && tie.goesDown floor) then floor else floor + 1)
  | true, false => some floor
  | false, true => some (floor + 1)
  | false, false => none

/-- The first hit on the grids `4 * 10 ^ n`, `4 * 10 ^ (n - 1)`, …, with its exponent. The finest
grid always holds the center. -/
def firstHit (i : RoundingInterval) (tie : Tie) : Nat → Nat × Nat
  | 0 => (i.center / 4, 0)
  | n + 1 =>
    match i.nearest? tie (4 * Nat.pow 10 (n + 1)) with
    | some multiple => (multiple, n + 1)
    | none => i.firstHit tie n

end RoundingInterval

namespace FloatFormat

/-- The rounding interval of a finite magnitude, scaled by `4 * 10 ^ fineness`. Below a power of two
the spacing halves, so the lower end is nearer there, except at the smallest scale. -/
def roundingInterval (f : FloatFormat) (magnitude : Nat) : RoundingInterval :=
  let significand := f.significand magnitude
  let step := Nat.pow 5 f.fineness <<< f.scale magnitude
  { center := 4 * significand * step
    below := if significand = 1 <<< f.fractionBits ∧ 0 < f.scale magnitude then step else 2 * step
    above := 2 * step
    closed := significand % 2 = 0 }

/-- The shortest decimal that reads back as a finite magnitude. -/
def shortest (f : FloatFormat) (tie : Tie) (magnitude : Nat) : Decimal :=
  let interval := f.roundingInterval magnitude
  let (digits, exponent) := interval.firstHit tie (Nat.toDigits 10 interval.center).length
  ⟨digits, exponent - f.fineness⟩

end FloatFormat

end ProtoExtensions
