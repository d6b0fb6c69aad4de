import ProtoExtensions.Text.Unprintable

/-!
Quoted text, as messages show a string: between double quotes, with a backslash before a quote or a
backslash, short escapes for the common controls, and the code in hexadecimal for every other
character that has no visible form of its own.
-/

namespace ProtoExtensions

/-- A number in lower-case hexadecimal, without leading zeros. -/
def hexText (n : Nat) : String :=
  String.ofList (Nat.toDigits 16 n)

/-- How quoted text shows one character. -/
def quotedChar (c : Char) : String :=
  match c with
  | '"' => "\\\""
  | '\\' => "\\\\"
  | '\n' => "\\n"
  | '\r' => "\\r"
  | '\t' => "\\t"
  | c =>
    if c.toNat = 0 then "\\0"
    else if isUnprintable c then "\\u\x7b" ++ hexText c.toNat ++ "\x7d"
    else c.toString

/-- A string as a message shows it. -/
def quoted (text : String) : String :=
  "\"" ++ String.join (text.toList.map quotedChar) ++ "\""

end ProtoExtensions
