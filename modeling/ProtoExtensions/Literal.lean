import ProtoExtensions.Float.Notation
import ProtoExtensions.Text.Utf8

/-!
Literals of C and Objective-C. An integer whose value or absolute value does not fit the signed type
of its width is written as a cast hexadecimal pattern, since a minus sign is an operator and no part
of a literal. Floating-point literals have the fewest digits that read back. In strings, question
marks are escaped so that no trigraph arises, and octal escapes always have three digits so that a
following digit cannot join them.
-/

namespace ProtoExtensions

namespace Literal

/-- A number in lower-case hexadecimal with at least `width` digits. -/
def hexPadded (width n : Nat) : String :=
  let digits := Nat.toDigits 16 n
  String.ofList (List.replicate (width - digits.length) '0' ++ digits)

/-- A signed 32-bit integer. -/
def int32 (value : Int32) : String :=
  if value.toInt = -0x80000000 then "(jint) 0x80000000" else toString value.toInt

/-- An unsigned 32-bit integer. -/
def uint32 (value : UInt32) : String :=
  if 0x80000000 ≤ value.toNat then "(jint) 0x" ++ hexPadded 8 value.toNat else toString value.toNat

/-- A signed 64-bit integer. -/
def int64 (value : Int64) : String :=
  if value.toInt = -0x8000000000000000 then "(jlong) 0x8000000000000000LL"
  else toString value.toInt ++ "LL"

/-- An unsigned 64-bit integer. -/
def uint64 (value : UInt64) : String :=
  if 0x8000000000000000 ≤ value.toNat then "(jlong) 0x" ++ hexPadded 16 value.toNat ++ "ULL"
  else toString value.toNat ++ "LL"

/-- Numbers from a ten-thousandth up to, but not including, ten to the sixteenth have their point in
place; positive exponents have no sign, and ties go up. -/
def floatStyle : FloatStyle := ⟨-3, 16, false, .up⟩

/-- A floating-point number, with a suffix behind a finite one. -/
def floating (format : FloatFormat) (suffix : String) (bits : Nat) : String :=
  match format.classify bits with
  | .notANumber => "NAN"
  | .infinite negative => if negative then "-INFINITY" else "INFINITY"
  | .finite negative magnitude => format.write floatStyle negative magnitude ++ suffix

/-- A 32-bit floating-point number. -/
def float (bits : UInt32) : String :=
  floating .single "f" bits.toNat

/-- A 64-bit floating-point number. -/
def double (bits : UInt64) : String :=
  floating .double "" bits.toNat

/-- A truth value. -/
def bool (value : Bool) : String :=
  if value then "true" else "false"

/-- The character of an octal digit. -/
def octalDigit (n : Nat) : Char :=
  Char.ofNat ('0'.toNat + n % 8)

/-- An octal escape for a code below `8 ^ 3`. -/
def octalEscape (code : Nat) : List Char :=
  ['\\', octalDigit (code / 64), octalDigit (code / 8), octalDigit code]

/-- One character inside a string literal. Text beyond ASCII stays as it is. -/
def stringChar (c : Char) : List Char :=
  match c with
  | '"' => ['\\', '"']
  | '\\' => ['\\', '\\']
  | '\n' => ['\\', 'n']
  | '\r' => ['\\', 'r']
  | '\t' => ['\\', 't']
  | '?' => ['\\', '?']
  | c => if c.toNat < 0x20 ∨ c.toNat = 0x7F then octalEscape c.toNat else [c]

/-- The text between the quotes of a string literal. -/
def stringBody (text : String) : List Char :=
  text.toList.flatMap stringChar

/-- An Objective-C string. -/
def string (text : String) : String :=
  "@\"" ++ String.ofList (stringBody text) ++ "\""

/-- One byte inside a bytes literal. -/
def byteChars (byte : UInt8) : List Char :=
  if byte = 0x22 then ['\\', '"']
  else if byte = 0x5C then ['\\', '\\']
  else if byte = 0x3F then ['\\', '?']
  else if 0x20 ≤ byte ∧ byte ≤ 0x7E then [Char.ofNat byte.toNat]
  else octalEscape byte.toNat

/-- The text between the quotes of a bytes literal. -/
def bytesBody (value : List UInt8) : List Char :=
  value.flatMap byteChars

/-- A bytes record: the bytes as a C string, and their number. -/
def bytes (value : List UInt8) : String :=
  "\x7b .data = \"" ++ String.ofList (bytesBody value) ++ "\", .length = " ++
    toString value.length ++ " \x7d"

end Literal

end ProtoExtensions
