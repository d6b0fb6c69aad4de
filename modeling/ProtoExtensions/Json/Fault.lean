import ProtoExtensions.Text.Quoted

/-!
Faults in JSON texts: what is wrong, and where. A place is given by line and column, where a column
counts the bytes since the last line feed.
-/

namespace ProtoExtensions

/-- What is wrong with a JSON text. -/
inductive JsonProblem where
  | endInValue
  | endInString
  | endInList
  | endInObject
  | expectedValue
  | expectedIdent
  | expectedColon
  | expectedListEnd
  | expectedObjectEnd
  | keyMustBeString
  | trailingComma
  | trailingCharacters
  | tooDeep
  | controlCharacter
  | invalidEscape
  | unexpectedSurrogate
  | missingSurrogate
  | invalidNumber
  | numberOutOfRange
  | wrongType (found expected : String)
  | wrongValue (found expected : String)
  | unknownVariant (found : String) (variants : List String)
  | duplicateField (key : String)
  | missingField (key : String)
  | wrongLength (length : Nat) (record : String) (size : Nat)
  deriving DecidableEq, Repr

namespace JsonProblem

/-- A name between backticks. -/
def ticked (name : String) : String :=
  "`" ++ name ++ "`"

/-- The names that could stand at a place: two are joined by a word, more are listed. -/
def expectedVariants (variants : List String) : String :=
  match variants with
  | [a, b] => ticked a ++ " or " ++ ticked b
  | _ => "one of " ++ ", ".intercalate (variants.map ticked)

/-- The text that reports a problem. -/
def message : JsonProblem → String
  | endInValue => "EOF while parsing a value"
  | endInString => "EOF while parsing a string"
  | endInList => "EOF while parsing a list"
  | endInObject => "EOF while parsing an object"
  | expectedValue => "expected value"
  | expectedIdent => "expected ident"
  | expectedColon => "expected `:`"
  | expectedListEnd => "expected `,` or `]`"
  | expectedObjectEnd => "expected `,` or `\x7d`"
  | keyMustBeString => "key must be a string"
  | trailingComma => "trailing comma"
  | trailingCharacters => "trailing characters"
  | tooDeep => "recursion limit exceeded"
  | controlCharacter => "control character (\\u0000-\\u001F) found while parsing a string"
  | invalidEscape => "invalid escape"
  | unexpectedSurrogate => "lone leading surrogate in hex escape"
  | missingSurrogate => "unexpected end of hex escape"
  | invalidNumber => "invalid number"
  | numberOutOfRange => "number out of range"
  | wrongType found expected => "invalid type: " ++ found ++ ", expected " ++ expected
  | wrongValue found expected => "invalid value: " ++ found ++ ", expected " ++ expected
  | unknownVariant found variants =>
    "unknown variant " ++ ticked found ++ ", expected " ++ expectedVariants variants
  | duplicateField key => "duplicate field " ++ ticked key
  | missingField key => "missing field " ++ ticked key
  | wrongLength length record size =>
    "invalid length " ++ toString length ++ ", expected struct " ++ record ++ " with " ++
      toString size ++ (if size = 1 then " element" else " elements")

end JsonProblem

/-- A problem at a line and column of a text. -/
structure JsonFault where
  problem : JsonProblem
  line : Nat
  column : Nat
  deriving DecidableEq, Repr

namespace JsonFault

/-- The text that reports a fault. -/
def message (fault : JsonFault) : String :=
  fault.problem.message ++ " at line " ++ toString fault.line ++ " column " ++
    toString fault.column

/-- The line of a byte offset and the offset at which that line starts, when `offset` bytes come
before the given text on lines up to `line`, the last of which starts at `start`. -/
def lineStart (target : Nat) : Nat → Nat → Nat → List Char → Nat × Nat
  | _, line, start, [] => (line, start)
  | offset, line, start, c :: rest =>
    if target ≤ offset then (line, start)
    else if c = '\n' then lineStart target (offset + 1) (line + 1) (offset + 1) rest
    else lineStart target (offset + c.utf8Size) line start rest

/-- A problem at a byte offset of a text. -/
def atOffset (text : List Char) (problem : JsonProblem) (offset : Nat) : JsonFault :=
  let (line, start) := lineStart offset 0 1 0 text
  ⟨problem, line, offset - start⟩

end JsonFault

end ProtoExtensions
