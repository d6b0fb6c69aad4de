import ProtoExtensions.Default.Integer
import ProtoExtensions.Json.Cursor

/-!
Strings in JSON texts, read from behind their opening quote. Code points beyond the basic plane are
written as two escapes, which have to come in the right order. A string whose content does not
matter is read with a simpler rule that leaves surrogates alone.
-/

namespace ProtoExtensions

namespace Reader

/-- The value of four hexadecimal digits. -/
def hexEscape : Reader Nat := fun cursor =>
  let digits := cursor.rest.take 4
  match digitsFrom? 16 0 digits with
  | some value =>
    if digits.length = 4 then .ok (value, ⟨cursor.rest.drop 4, cursor.offset + 4⟩)
    else .error ⟨.endInString, cursor.offset + digits.length⟩
  | none =>
    let size := (String.ofList digits).utf8ByteSize
    if size < 4 then .error ⟨.endInString, cursor.offset + size⟩
    else .error ⟨.invalidEscape, cursor.offset + 4⟩

/-- Whether a code is the first half of a pair. -/
def isLeading (code : Nat) : Bool :=
  0xD800 ≤ code && code ≤ 0xDBFF

/-- Whether a code is the second half of a pair. -/
def isTrailing (code : Nat) : Bool :=
  0xDC00 ≤ code && code ≤ 0xDFFF

/-- One character that the second escape of a pair has to bring. -/
def pairMark (mark : Char) : Reader Unit := do
  match ← peek with
  | none => failHere .endInString
  | some c => if c = mark then skip else failAhead .missingSurrogate

/-- The character of an escape by code. -/
def codeEscape : Reader Char := do
  let code ← hexEscape
  if isTrailing code then failHere .unexpectedSurrogate
  else if isLeading code then do
    pairMark '\\'
    pairMark 'u'
    let second ← hexEscape
    if isTrailing second then
      pure (Char.ofNat (0x10000 + (code - 0xD800) * 0x400 + (second - 0xDC00)))
    else failHere .unexpectedSurrogate
  else pure (Char.ofNat code)

/-- What a letter behind a backslash stands for. -/
def shortEscape? : Char → Option Char
  | '"' => some '"'
  | '\\' => some '\\'
  | '/' => some '/'
  | 'b' => some '\x08'
  | 'f' => some '\x0c'
  | 'n' => some '\n'
  | 'r' => some '\r'
  | 't' => some '\t'
  | _ => none

/-- An escape, behind its backslash. -/
def escape (byCode : Reader Char) : Reader Char := do
  match ← peek with
  | none => failHere .endInString
  | some 'u' => do skip; byCode
  | some c =>
    match shortEscape? c with
    | some meant => do skip; pure meant
    | none => failAhead .invalidEscape

/-- The characters up to the closing quote, in reverse behind those already read. The number bounds
the characters that are left. -/
def stringTail (byCode : Reader Char) (control : Reader (List Char)) :
    Nat → List Char → Reader (List Char)
  | 0, _ => failHere .endInString
  | bound + 1, done => do
    match ← peek with
    | none => failHere .endInString
    | some '"' => do skip; pure done.reverse
    | some '\\' => do
      skip
      let c ← escape byCode
      stringTail byCode control bound (c :: done)
    | some c =>
      if c.toNat < 0x20 then control
      else do
        skip
        stringTail byCode control bound (c :: done)

/-- A string, from behind its opening quote. -/
def string : Reader String := do
  let bound := (← get).rest.length + 1
  let chars ← stringTail codeEscape (failAhead .controlCharacter) bound []
  pure (String.ofList chars)

/-- A string whose content does not matter, from behind its opening quote. -/
def ignoredString : Reader Unit := do
  let bound := (← get).rest.length + 1
  let _ ← stringTail (do let _ ← hexEscape; pure 'u') (failHere .controlCharacter) bound []

end Reader

end ProtoExtensions
