import ProtoExtensions.Json.Text

/-!
The brackets of lists and objects: what opens and closes them, what stands between their items, and
the problems that a missing comma or end brings.
-/

namespace ProtoExtensions

/-- What encloses items: a list or an object. -/
inductive Bracket where
  | list
  | object
  deriving DecidableEq, Repr

namespace Bracket

/-- The character behind the last item. -/
def closer : Bracket → Char
  | list => ']'
  | object => '\x7d'

/-- The text ends inside. -/
def endProblem : Bracket → JsonProblem
  | list => .endInList
  | object => .endInObject

/-- Something other than a comma or the end stands behind an item. -/
def separatorProblem : Bracket → JsonProblem
  | list => .expectedListEnd
  | object => .expectedObjectEnd

end Bracket

namespace Reader

/-- The colon behind a key. -/
def colon : Reader Unit := do
  match ← peekToken with
  | some ':' => skip
  | some _ => failAhead .expectedColon
  | none => failAhead .endInObject

/-- Whether another item comes, given whether it would be the first one. It begins at the cursor
then; in an object it begins with a quote. -/
def hasItem (bracket : Bracket) (first : Bool) : Reader Bool := do
  match ← peekToken with
  | none => failAhead bracket.endProblem
  | some c =>
    if c = bracket.closer then pure false
    else if first then startsItem c
    else if c = ',' then do
      skip
      let c ← peekValue
      if c = bracket.closer then failAhead .trailingComma else startsItem c
    else failAhead bracket.separatorProblem
where
  /-- A key has to be a string; a list's item may be anything. -/
  startsItem (c : Char) : Reader Bool :=
    if bracket = .object ∧ c ≠ '"' then failAhead .keyMustBeString else pure true

/-- Moves behind the end of a bracket, or says what is wrong with it: the problem then concerns the
byte to come. -/
def close (bracket : Bracket) : Reader (Option JsonProblem) := do
  match ← peekToken with
  | none => pure (some bracket.endProblem)
  | some c =>
    if c = bracket.closer then do
      skip
      pure none
    else if c = ',' then
      match bracket with
      | .object => pure (some .trailingComma)
      | .list => do
        skip
        if (← peekToken) = some ']' then pure (some .trailingComma)
        else pure (some .trailingCharacters)
    else pure (some .trailingCharacters)

/-- What is inside a bracket, up to and with its end. A problem that has been found inside, but not
tied to a place, is put behind the attempt to reach the end, and hides what is wrong with the end.
-/
def enclosed (bracket : Bracket) (inside : Reader (Except JsonProblem α)) : Reader α := do
  let found ← inside
  let problem? ← close bracket
  match found, problem? with
  | .error problem, _ => failHere problem
  | .ok _, some problem => failAhead problem
  | .ok value, none => pure value

end Reader

end ProtoExtensions
