import ProtoExtensions.Json.Fault

/-!
A cursor over a JSON text: the characters that are left and the number of bytes behind. A reader
moves the cursor on or stops with a problem at a byte offset. A problem is put at the byte behind
which reading stopped, or one byte further where it concerns the byte to come.
-/

namespace ProtoExtensions

/-- A place in a text: what is left of it, and how many bytes have been read. -/
structure Cursor where
  rest : List Char
  offset : Nat

/-- A problem at a byte offset. -/
structure Stop where
  problem : JsonProblem
  offset : Nat

/-- A step through a text. -/
abbrev Reader := StateT Cursor (Except Stop)

namespace Cursor

/-- The offset of the byte to come, or of the end. -/
def ahead (cursor : Cursor) : Nat :=
  if cursor.rest.isEmpty then cursor.offset else cursor.offset + 1

/-- The cursor behind the next character. -/
def next (cursor : Cursor) : Cursor :=
  match cursor.rest with
  | [] => cursor
  | c :: rest => ⟨rest, cursor.offset + c.utf8Size⟩

/-- Whether a character may stand between tokens. -/
def isGap (c : Char) : Bool :=
  c == ' ' || c == '\n' || c == '\t' || c == '\r'

/-- The cursor behind the gap to come. Gap characters are one byte each. -/
def skipGap (cursor : Cursor) : Cursor :=
  let gap := cursor.rest.takeWhile isGap
  ⟨cursor.rest.drop gap.length, cursor.offset + gap.length⟩

end Cursor

namespace Reader

/-- Stops behind what has been read. -/
def failHere (problem : JsonProblem) : Reader α :=
  fun cursor => .error ⟨problem, cursor.offset⟩

/-- Stops at the byte to come. -/
def failAhead (problem : JsonProblem) : Reader α :=
  fun cursor => .error ⟨problem, cursor.ahead⟩

/-- The character to come. -/
def peek : Reader (Option Char) :=
  fun cursor => .ok (cursor.rest.head?, cursor)

/-- Moves behind the next character. -/
def skip : Reader Unit :=
  fun cursor => .ok ((), cursor.next)

/-- Moves behind the gap and gives the character to come. -/
def peekToken : Reader (Option Char) :=
  fun cursor => .ok (cursor.skipGap.rest.head?, cursor.skipGap)

/-- The character that starts a value. -/
def peekValue : Reader Char := do
  match ← peekToken with
  | some c => pure c
  | none => failAhead .endInValue

/-- The digits to come. -/
def digits : Reader (List Char) :=
  fun cursor =>
    let digits := cursor.rest.takeWhile Char.isDigit
    .ok (digits, ⟨cursor.rest.drop digits.length, cursor.offset + digits.length⟩)

/-- The rest of a literal after its first letter. -/
def literal : List Char → Reader Unit
  | [] => pure ()
  | expected :: more => do
    match ← peek with
    | none => failHere .endInValue
    | some c => if c = expected then do skip; literal more else failAhead .expectedIdent

end Reader

end ProtoExtensions
