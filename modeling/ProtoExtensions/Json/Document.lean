import ProtoExtensions.Json
import ProtoExtensions.Json.Ignored
import ProtoExtensions.Json.Shape

/-!
Reading JSON texts by shape. The value read has the form its shape asks for: records come back as
objects that hold the known fields only, each at most once. Lists, records and choices may be nested
to a depth of 127; values of unknown fields are not counted.
-/

namespace ProtoExtensions

namespace Shape

/-- How a message names what a shape expects. -/
def expected (schema : Schema κ) : Shape κ → String
  | text => "a string"
  | path => "path string"
  | flag => "a boolean"
  | int32 => "i32"
  | choice variants => JsonProblem.expectedVariants variants
  | optional shape => shape.expected schema
  | list _ => "a sequence"
  | record kind => "struct " ++ (schema kind).name

end Shape

namespace RecordShape

/-- The first field that is not there but has to be in an object. -/
def missing? (record : RecordShape κ) (members : List (String × Json)) : Option (FieldShape κ) :=
  record.fields.find? fun field =>
    field.presence = .required && (members.lookup field.key).isNone

end RecordShape

namespace Reader

/-! ## Scalars -/

/-- Stops at a value of another type than expected. A scalar is read first, so that the message can
show it; a list or an object is not. -/
def wrongType (expected : String) : Reader α := do
  match ← peekValue with
  | 'n' => do
    skip
    literal ['u', 'l', 'l']
    failHere (.wrongType "null" expected)
  | 't' => do
    skip
    literal ['r', 'u', 'e']
    failHere (.wrongType "boolean `true`" expected)
  | 'f' => do
    skip
    literal ['a', 'l', 's', 'e']
    failHere (.wrongType "boolean `false`" expected)
  | '"' => do
    skip
    let value ← string
    failHere (.wrongType ("string " ++ quoted value) expected)
  | '-' => do
    skip
    let value ← number true
    failHere (.wrongType value.shown expected)
  | '[' => failHereAt "sequence"
  | '\x7b' => failHereAt "map"
  | c =>
    if c.isDigit then do
      let value ← number false
      failHere (.wrongType value.shown expected)
    else failAhead .expectedValue
where
  /-- Stops in front of a bracket. -/
  failHereAt (found : String) : Reader α :=
    failHere (.wrongType found expected)

/-- A string, from its gap on. -/
def text (expected : String) : Reader Json := do
  match ← peekValue with
  | '"' => do
    skip
    pure (.string (← string))
  | _ => wrongType expected

/-- A truth value. -/
def flag (expected : String) : Reader Json := do
  match ← peekValue with
  | 't' => do
    skip
    literal ['r', 'u', 'e']
    pure (.bool true)
  | 'f' => do
    skip
    literal ['a', 'l', 's', 'e']
    pure (.bool false)
  | _ => wrongType expected

/-- A number that has to be an integer of 32 bits. -/
def boundedNumber (expected : String) (negative : Bool) : Reader Json := do
  match ← number negative with
  | .floating bits => failHere (.wrongType (JsonNumber.floating bits).shown expected)
  | .integer value =>
    if (Json.int value).int32?.isSome then pure (.int value)
    else failHere (.wrongValue (JsonNumber.integer value).shown expected)

/-- An integer of 32 bits. -/
def int32 (expected : String) : Reader Json := do
  match ← peekValue with
  | '-' => do
    skip
    boundedNumber expected true
  | c => if c.isDigit then boundedNumber expected false else wrongType expected

/-- The null that stands for the content of a choice. -/
def emptyContent : Reader Unit := do
  match ← peekValue with
  | 'n' => do
    skip
    literal ['u', 'l', 'l']
  | _ => wrongType "unit"

/-- The name of a variant, from behind its opening quote. -/
def variant (variants : List String) : Reader Json := do
  let name ← string
  if variants.contains name then pure (.string name)
  else failHere (.unknownVariant name variants)

/-- A choice: the name of a variant, or an object with that name as its only key. -/
def choice (variants : List String) (deeper : Bool) : Reader Json := do
  match ← peekValue with
  | '"' => do
    skip
    variant variants
  | '\x7b' =>
    if !deeper then failAhead .tooDeep
    else do
      skip
      match ← peekToken with
      | none => failAhead .endInObject
      | some '"' => do
        skip
        let value ← variant variants
        colon
        emptyContent
        match ← peekToken with
        | some '\x7d' => do
          skip
          pure value
        | some _ => failHere .expectedValue
        | none => failHere .endInObject
      | some '\x7d' => failAhead .expectedValue
      | some _ => failAhead .keyMustBeString
  | _ => failAhead .expectedValue

/-! ## Lists and records -/

/-- The items of a list behind those already read, which are in reverse. The number bounds the
characters that are left. -/
def items (item : Reader Json) : Nat → List Json → Reader (Except JsonProblem Json)
  | 0, _ => failAhead .endInList
  | bound + 1, done => do
    if ← hasItem .list done.isEmpty then do
      let value ← item
      items item bound (value :: done)
    else pure (.ok (.list done.reverse))

/-- The members of a record that is written as an object, behind those already read. The number
bounds the characters that are left. -/
def members (record : RecordShape κ) (value : Shape κ → Reader Json) :
    Nat → Bool → List (String × Json) → Reader (Except JsonProblem Json)
  | 0, _, _ => failAhead .endInObject
  | bound + 1, first, done => do
    if ← hasItem .object first then do
      skip
      let key ← string
      match record.fields.find? (·.key = key) with
      | none => do
        colon
        ignored
        members record value bound false done
      | some field =>
        if (done.lookup key).isSome then pure (.error (.duplicateField key))
        else do
          colon
          let member ← value field.shape
          members record value bound false (done ++ [(key, member)])
    else
      match record.missing? done with
      | some field => pure (.error (.missingField field.key))
      | none => pure (.ok (.object done))

/-- The fields of a record that is written as a list, in order, behind those already read. -/
def positioned (record : RecordShape κ) (value : Shape κ → Reader Json) :
    List (FieldShape κ) → Nat → List (String × Json) → Reader (Except JsonProblem Json)
  | [], _, done => pure (.ok (.object done))
  | field :: fields, count, done => do
    if ← hasItem .list (count = 0) then do
      let member ← value field.shape
      positioned record value fields (count + 1) (done ++ [(field.key, member)])
    else if field.presence = .defaulted then positioned record value fields (count + 1) done
    else pure (.error (.wrongLength count record.name record.fields.length))

/-- A value of a shape, given how values one level deeper are read, if there may be any. -/
def valueWithin (schema : Schema κ) (deeper : Option (Shape κ → Reader Json)) :
    Shape κ → Reader Json
  | .text => text (Shape.text.expected schema)
  | .path => text (Shape.path.expected schema)
  | .flag => flag (Shape.flag.expected schema)
  | .int32 => int32 (Shape.int32.expected schema)
  | .choice variants => choice variants deeper.isSome
  | .optional shape => do
    match ← peekToken with
    | some 'n' => do
      skip
      literal ['u', 'l', 'l']
      pure .null
    | _ => valueWithin schema deeper shape
  | .list item => do
    match ← peekValue with
    | '[' =>
      match deeper with
      | none => failAhead .tooDeep
      | some value => do
        skip
        enclosed .list (do items (value item) ((← get).rest.length + 1) [])
    | _ => wrongType ((Shape.list item).expected schema)
  | .record kind => do
    match ← peekValue with
    | '\x7b' =>
      match deeper with
      | none => failAhead .tooDeep
      | some value => do
        skip
        enclosed .object (do members (schema kind) value ((← get).rest.length + 1) true [])
    | '[' =>
      match deeper with
      | none => failAhead .tooDeep
      | some value => do
        skip
        enclosed .list (positioned (schema kind) value (schema kind).fields 0 [])
    | _ => wrongType ((Shape.record kind).expected schema)

/-- A value of a shape with at most the given number of levels inside. -/
def value (schema : Schema κ) : Nat → Shape κ → Reader Json
  | 0 => valueWithin schema none
  | levels + 1 => valueWithin schema (some (value schema levels))

/-- The end of a text behind its value. -/
def endOfText : Reader Unit := do
  if (← peekToken).isSome then failAhead .trailingCharacters

end Reader

/-- The greatest depth of a value. -/
def Json.maxDepth : Nat := 127

/-- Reads a text that holds a value of a shape. -/
def Json.read (schema : Schema κ) (shape : Shape κ) (text : String) : Except JsonFault Json :=
  let chars := text.toList
  match (do let value ← Reader.value schema maxDepth shape; Reader.endOfText; pure value :
      Reader Json) ⟨chars, 0⟩ with
  | .ok (value, _) => .ok value
  | .error stop => .error (JsonFault.atOffset chars stop.problem stop.offset)

end ProtoExtensions
