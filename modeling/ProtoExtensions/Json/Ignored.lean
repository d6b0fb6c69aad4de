import ProtoExtensions.Json.Bracket
import ProtoExtensions.Json.Number

/-!
Values that do not matter. They are checked for their form only and may be nested to any depth: the
brackets that are open are kept in a list.
-/

namespace ProtoExtensions

namespace Reader

/-- The key of an item with its colon; a list's item has none. -/
def ignoredKey : Bracket → Reader Unit
  | .list => pure ()
  | .object => do
    match ← peekToken with
    | some '"' => do
      skip
      ignoredString
      colon
    | some _ => failAhead .keyMustBeString
    | none => failAhead .endInObject

mutual

/-- A value inside open brackets, innermost first, and all that follows up to the end of the
outermost one. The number bounds the steps. -/
def ignoredInside : Nat → List Bracket → Reader Unit
  | 0, _ => failAhead .endInValue
  | bound + 1, outer => do
    match ← peekValue with
    | 'n' => do
      skip
      literal ['u', 'l', 'l']
      ignoredAfter bound outer true
    | 't' => do
      skip
      literal ['r', 'u', 'e']
      ignoredAfter bound outer true
    | 'f' => do
      skip
      literal ['a', 'l', 's', 'e']
      ignoredAfter bound outer true
    | '"' => do
      skip
      ignoredString
      ignoredAfter bound outer true
    | '-' => do
      skip
      ignoredNumber
      ignoredAfter bound outer true
    | '[' => do
      skip
      ignoredAfter bound (.list :: outer) false
    | '\x7b' => do
      skip
      ignoredAfter bound (.object :: outer) false
    | c =>
      if c.isDigit then do
        ignoredNumber
        ignoredAfter bound outer true
      else failAhead .expectedValue

/-- What follows an item of the innermost open bracket, or the bracket itself where it has no item
yet. -/
def ignoredAfter : Nat → List Bracket → Bool → Reader Unit
  | 0, _, _ => failAhead .endInValue
  | _ + 1, [], _ => pure ()
  | bound + 1, bracket :: outer, hasItems => do
    match ← peekToken with
    | none => failAhead bracket.endProblem
    | some c =>
      if c = bracket.closer then do
        skip
        ignoredAfter bound outer true
      else if hasItems && c ≠ ',' then failAhead bracket.separatorProblem
      else do
        if hasItems then skip
        ignoredKey bracket
        ignoredInside bound (bracket :: outer)

end

/-- A value that does not matter. Each two steps read at least one character. -/
def ignored : Reader Unit := do
  ignoredInside (2 * (← get).rest.length + 2) []

end Reader

end ProtoExtensions
