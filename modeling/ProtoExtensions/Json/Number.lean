import ProtoExtensions.Float.Notation
import ProtoExtensions.Float.Reading
import ProtoExtensions.Json.Cursor

/-!
Numbers in JSON texts. A number without fraction and exponent is an integer as long as it fits 64
bits. Any other number is floating-point: its leading digits, as many as fit 64 bits, are rounded to
a floating-point number, which is then multiplied with or divided by a rounded power of ten.
-/

namespace ProtoExtensions

/-- A number of a JSON text. -/
inductive JsonNumber where
  | integer (value : Int)
  | floating (bits : Nat)

namespace FloatFormat

/-- A finite magnitude in units of the smallest subnormal number. -/
def units (f : FloatFormat) (magnitude : Nat) : Nat :=
  f.significand magnitude <<< f.scale magnitude

/-- The rounded product of two finite magnitudes. -/
def mul (f : FloatFormat) (a b : Nat) : Nat :=
  f.roundQuotient (f.units a * f.units b) (1 <<< (2 * f.fineness))

/-- The rounded quotient of two finite magnitudes. -/
def div (f : FloatFormat) (a b : Nat) : Nat :=
  f.roundQuotient (f.units a) (f.units b)

/-- The magnitude of a power of ten. -/
def powerOfTen (f : FloatFormat) (exponent : Nat) : Nat :=
  f.roundQuotient (Nat.pow 10 exponent) 1

end FloatFormat

namespace JsonNumber

/-- The largest significand that is kept. -/
def significandBound : Nat := 0xFFFFFFFFFFFFFFFF

/-- The largest power of ten that a number is scaled by at once. -/
def powerStep : Nat := 308

/-- A magnitude scaled by a power of ten, or nothing where it gets too large. Far below the smallest
number it takes several steps down; the number bounds them, as two steps bring every significand to
zero. -/
def scaled? : Nat → Nat → Int → Option Nat
  | 0, magnitude, _ => some magnitude
  | steps + 1, magnitude, exponent =>
    if exponent.natAbs ≤ powerStep then
      let power := FloatFormat.double.powerOfTen exponent.natAbs
      if 0 ≤ exponent then
        let product := FloatFormat.double.mul magnitude power
        if product = FloatFormat.double.infinity then none else some product
      else some (FloatFormat.double.div magnitude power)
    else if magnitude = 0 then some magnitude
    else if 0 ≤ exponent then none
    else
      scaled? steps (FloatFormat.double.div magnitude (FloatFormat.double.powerOfTen powerStep))
        (exponent + powerStep)

/-- The floating-point number with a significand and a power of ten. -/
def ofParts? (negative : Bool) (significand : Nat) (exponent : Int) : Option JsonNumber :=
  (scaled? 4 (FloatFormat.double.roundQuotient significand 1) exponent).map fun magnitude =>
    floating (FloatFormat.double.withSign negative magnitude)

/-- Digits put behind a significand while it fits, and the number of digits that did not. -/
def wholeDigits : Nat → List Char → Nat × Nat
  | significand, [] => (significand, 0)
  | significand, c :: rest =>
    let longer := 10 * significand + (c.toNat - '0'.toNat)
    if longer ≤ significandBound then wholeDigits longer rest
    else (significand, rest.length + 1)

/-- Digits of a fraction put behind a significand while it fits, and the number of those. -/
def fractionDigits : Nat → List Char → Nat × Nat
  | significand, [] => (significand, 0)
  | significand, c :: rest =>
    let longer := 10 * significand + (c.toNat - '0'.toNat)
    if longer ≤ significandBound then
      let (final, count) := fractionDigits longer rest
      (final, count + 1)
    else (significand, 0)

/-- The value of a digit run as long as it fits 32 bits with a sign; otherwise the number of digits
up to the one that no longer does. -/
def exponentDigits : Nat → Nat → List Char → Except Nat Nat
  | _, value, [] => .ok value
  | count, value, c :: rest =>
    let longer := 10 * value + (c.toNat - '0'.toNat)
    if longer < 0x80000000 then exponentDigits (count + 1) longer rest else .error (count + 1)

/-- An exponent kept inside 32 bits with a sign. -/
def clampExponent (exponent : Int) : Int :=
  if exponent < -0x80000000 then -0x80000000
  else if 0x7FFFFFFF < exponent then 0x7FFFFFFF
  else exponent

/-- The notation of floating-point numbers in messages. -/
def shownStyle : FloatStyle := ⟨-4, 16, true, .even⟩

/-- How a message shows a number. -/
def shown : JsonNumber → String
  | integer value => "integer `" ++ toString value ++ "`"
  | floating bits =>
    "floating point `" ++
      FloatFormat.double.write shownStyle (FloatFormat.double.isNegative bits)
        (FloatFormat.double.magnitude bits) ++ "`"

end JsonNumber

namespace Reader

/-- The number with the given parts, or a stop behind it. -/
def numberOfParts (negative : Bool) (significand : Nat) (exponent : Int) : Reader JsonNumber :=
  match JsonNumber.ofParts? negative significand exponent with
  | some number => pure number
  | none => failHere .numberOutOfRange

/-- A number from its exponent's letter on. -/
def numberExponent (negative : Bool) (significand : Nat) (exponent : Int) :
    Reader JsonNumber := do
  skip
  let down ← match ← peek with
    | some '+' => do skip; pure false
    | some '-' => do skip; pure true
    | _ => pure false
  match ← peek with
  | none => failHere .endInValue
  | some c =>
    if !c.isDigit then failAhead .invalidNumber
    else do
      let start ← get
      match JsonNumber.exponentDigits 0 0 (← digits) with
      | .ok value =>
        numberOfParts negative significand
          (JsonNumber.clampExponent (if down then exponent - value else exponent + value))
      | .error count =>
        if significand ≠ 0 ∧ !down then
          fun _ => .error ⟨.numberOutOfRange, start.offset + count⟩
        else pure (.floating (FloatFormat.double.withSign negative 0))

/-- A number from its point on. -/
def numberFraction (negative : Bool) (significand : Nat) (exponent : Int) :
    Reader JsonNumber := do
  skip
  let fraction ← digits
  if fraction.isEmpty then
    match ← peek with
    | some _ => failAhead .invalidNumber
    | none => failAhead .endInValue
  else do
    let (significand, count) := JsonNumber.fractionDigits significand fraction
    match ← peek with
    | some 'e' | some 'E' => numberExponent negative significand (exponent - count)
    | _ => numberOfParts negative significand (exponent - count)

/-- The integer of a significand, where it is one; minus zero and what does not fit 64 bits with a
sign are floating-point numbers. -/
def integerNumber (negative : Bool) (significand : Nat) : Reader JsonNumber :=
  if !negative then pure (.integer significand)
  else if 0 < significand ∧ significand ≤ 0x8000000000000000 then
    pure (.integer (-(significand : Int)))
  else numberOfParts true significand 0

/-- A number, from behind its minus sign if it has one. -/
def number (negative : Bool) : Reader JsonNumber := do
  match ← peek with
  | none => failHere .endInValue
  | some c =>
    if !c.isDigit then failAhead .invalidNumber
    else do
      let whole ← (if c = '0' then do skip; pure ['0'] else digits)
      let following ← peek
      if c = '0' ∧ following.any Char.isDigit then failAhead .invalidNumber
      else
        let (significand, dropped) := JsonNumber.wholeDigits 0 whole
        match following with
        | some '.' => numberFraction negative significand dropped
        | some 'e' | some 'E' => numberExponent negative significand dropped
        | _ =>
          if dropped = 0 then integerNumber negative significand
          else numberOfParts negative significand dropped

/-- The rest of a number whose value does not matter, from its exponent's letter on. -/
def ignoredExponent : Reader Unit := do
  skip
  match ← peek with
  | some '+' | some '-' => skip
  | _ => pure ()
  match ← peek with
  | none => failHere .invalidNumber
  | some c => if c.isDigit then do let _ ← digits else failAhead .invalidNumber

/-- A number whose value does not matter, from behind its minus sign if it has one. -/
def ignoredNumber : Reader Unit := do
  match ← peek with
  | none => failHere .invalidNumber
  | some c =>
    if !c.isDigit then failAhead .invalidNumber
    else if c = '0' then do
      skip
      if (← peek).any Char.isDigit then failAhead .invalidNumber
    else do let _ ← digits
    match ← peek with
    | some '.' => do
      skip
      if (← digits).isEmpty then failAhead .invalidNumber
      match ← peek with
      | some 'e' | some 'E' => ignoredExponent
      | _ => pure ()
    | some 'e' | some 'E' => ignoredExponent
    | _ => pure ()

end Reader

end ProtoExtensions
