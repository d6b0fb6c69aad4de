import ProtoExtensions.Default
import ProtoExtensions.TypeIndex

/-!
Resolving extension declarations against an index. A relative type name is tried in the innermost
scope first and then in each enclosing one; the first type found counts, whatever its kind. A
declaration that breaks a rule is reported with the first rule it breaks.
-/

namespace ProtoExtensions

/-! ## Looking up names -/

/-- The parts of a name before each of its dots, shortest first. -/
def partsBeforeDots : List Char → List (List Char)
  | [] => []
  | c :: rest =>
    let longer := (partsBeforeDots rest).map (c :: ·)
    if c = '.' then [] :: longer else longer

/-- A scope and the scopes around it, innermost first. -/
def enclosingScopes (scope : String) : List String :=
  scope :: (partsBeforeDots scope.toList).reverse.map String.ofList

/-- The full names that a name used in a scope may stand for, in the order they are tried. A name
with a leading dot is a full name. -/
def candidateNames (name scope : String) : List String :=
  match name.toList with
  | '.' :: _ => [name]
  | _ => (enclosingScopes scope).map (· ++ "." ++ name)

namespace TypeIndex

/-- The type that a name used in a scope refers to. -/
def find? (index : TypeIndex) (name scope : String) : Option TypeEntry :=
  (candidateNames name scope).findSome? index.lookup?

end TypeIndex

/-- What a name that should refer to a type of some kind refers to. -/
inductive Reference where
  | found (entry : TypeEntry)
  | notFound
  | mismatch (entry : TypeEntry)
  deriving DecidableEq, Repr

/-- What a name used in a scope refers to, where a type of some kind is expected. -/
def TypeIndex.reference (index : TypeIndex) (name scope : String) (kind : TypeKind) : Reference :=
  match index.find? name scope with
  | none => .notFound
  | some entry => if entry.kind = kind then .found entry else .mismatch entry

/-! ## Broken rules -/

/-- The largest field number. -/
def maxFieldNumber : Int32 := 536870911

/-- Whether a field number is kept for the implementation of protocol buffers. -/
def isReservedNumber (number : Int32) : Bool :=
  19000 ≤ number && number ≤ 19999

/-- Why an extension declaration is refused. -/
inductive Refusal where
  | numberOutOfRange
  | numberReserved
  | required
  | noExtendee
  | notFound (kind : TypeKind) (name scope : String)
  | mismatch (kind : TypeKind) (name : String) (found : TypeEntry)
  | noTypeName
  | emptyEnum (type : TypeRef)
  | notPackable
  | repeatedDefault
  | invalidDefault (fault : DefaultFault)

namespace Refusal

/-- The code a refusal is reported with. -/
def code : Refusal → String
  | notFound .. => Diagnostic.referenceNotFound
  | mismatch .. => Diagnostic.referenceMismatch
  | noExtendee | noTypeName => Diagnostic.missingField
  | invalidDefault _ => Diagnostic.invalidDefault
  | _ => Diagnostic.invalidField

/-- The text that reports a refusal of a field. -/
def message (field : FieldSpec) : Refusal → String
  | numberOutOfRange =>
    "Extension '" ++ field.name ++ "' has number " ++ toString field.number.toInt ++
      " outside 1..=" ++ toString maxFieldNumber.toInt
  | numberReserved =>
    "Extension '" ++ field.name ++ "' uses number " ++ toString field.number.toInt ++
      ", which is reserved for the protocol buffer implementation"
  | required => "Extension '" ++ field.name ++ "' cannot be required"
  | noExtendee => "Extension '" ++ field.name ++ "' does not name the message it extends"
  | notFound kind name scope =>
    kind.name ++ " '" ++ name ++ "' not found from scope '" ++ scope ++ "'"
  | mismatch kind name found =>
    "'" ++ name ++ "' resolves to " ++ found.kind.name ++ " " ++ found.fullName ++
      ", expected a " ++ kind.name
  | noTypeName =>
    "Extension '" ++ field.name ++ "' of type " ++ field.type.protoName ++ " needs a typeName"
  | emptyEnum type =>
    "Enum " ++ type.fullName ++ " used by extension '" ++ field.name ++ "' declares no values"
  | notPackable =>
    "Extension '" ++ field.name ++
      "' is packed but is not a repeated numeric, bool, or enum field"
  | repeatedDefault =>
    "Repeated extension '" ++ field.name ++ "' cannot declare a default"
  | invalidDefault fault =>
    "Invalid default for extension '" ++ field.name ++ "': " ++ fault.message

/-- What to do about a refusal. -/
def suggestion : Refusal → Option String
  | numberReserved => some "Pick a number outside 19000..=19999"
  | notFound .. => some "Check the package name and that the defining file is loaded"
  | _ => none

/-- The place a refusal of the field at a path is about. -/
def path (fieldPath : String) : Refusal → String
  | invalidDefault _ => fieldPath ++ ".defaultValue"
  | _ => fieldPath

/-- A refusal of a field as a diagnostic. -/
def diagnostic (refusal : Refusal) (field : FieldSpec) (file fieldPath : String) : Diagnostic where
  code := refusal.code
  message := refusal.message field
  file := file
  path := refusal.path fieldPath
  suggestion := refusal.suggestion

end Refusal

/-! ## Resolving declarations -/

namespace TypeIndex

/-- The type of some kind that a name used in a scope refers to. -/
def expect (index : TypeIndex) (name scope : String) (kind : TypeKind) :
    Except Refusal TypeEntry :=
  match index.reference name scope kind with
  | .found entry => .ok entry
  | .notFound => .error (.notFound kind name scope)
  | .mismatch entry => .error (.mismatch kind name entry)

/-- The message that a field extends. -/
def extendee (index : TypeIndex) (scope : String) (field : FieldSpec) :
    Except Refusal TypeRef :=
  match field.extendee with
  | none => .error .noExtendee
  | some name => (index.expect name scope .message).map (·.type)

/-- The kind of values a field holds. -/
def valueKind (index : TypeIndex) (scope : String) (field : FieldSpec) :
    Except Refusal ValueKind :=
  if !field.type.isReference then .ok .scalar
  else
    match field.typeName with
    | none => .error .noTypeName
    | some name =>
      if field.type = .enum then do
        let entry ← index.expect name scope .enum
        if entry.values.isEmpty then .error (.emptyEnum entry.type)
        else .ok (.enum ⟨entry.type, entry.values⟩)
      else do
        let entry ← index.expect name scope .message
        .ok (.message entry.type)

end TypeIndex

namespace FieldSpec

/-- The first rule that a field's number and label break. -/
def numberOrLabelRefusal? (field : FieldSpec) : Option Refusal :=
  if field.number < 1 ∨ maxFieldNumber < field.number then some .numberOutOfRange
  else if isReservedNumber field.number then some .numberReserved
  else if field.label = .required then some .required
  else none

/-- The default of a field that holds values of some kind. -/
def readDefault (field : FieldSpec) (value : ValueKind) : Except Refusal (Option DefaultValue) :=
  match field.defaultValue with
  | none => .ok none
  | some text =>
    if field.label = .repeated then .error .repeatedDefault
    else
      match DefaultValue.read field.type text value with
      | .ok default => .ok (some default)
      | .error fault => .error (.invalidDefault fault)

/-- Whether a field is packed but must not be. -/
def isWronglyPacked (field : FieldSpec) : Bool :=
  field.options.packed && !(field.label = .repeated && field.type.isPackable)

end FieldSpec

namespace TypeIndex

/-- The extension that a field declared in a scope describes, or the first rule it breaks. -/
def resolve (index : TypeIndex) (scope : Scope) (field : FieldSpec) :
    Except Refusal ExtensionField := do
  if let some refusal := field.numberOrLabelRefusal? then .error refusal
  let extendee ← index.extendee scope.fullName field
  let value ← index.valueKind scope.fullName field
  if field.isWronglyPacked then .error .notPackable
  let defaultValue ← field.readDefault value
  .ok {
    name := field.name
    number := field.number.toUInt32
    type := field.type
    value
    extendee
    scope
    cardinality := field.label
    defaultValue
    packed := field.options.packed
    deprecated := field.options.deprecated }

/-- The identity of a described file; the index knows it by its proto name. -/
def fileOf (index : TypeIndex) (spec : FileSpec) : ProtoFile :=
  (index.file? spec.name).getD spec.file

/-- A declared extension of a descriptor file, or what is wrong with it. -/
def resolveDeclared (index : TypeIndex) (path : String) (file : ProtoFile)
    (declared : DeclaredExtension) : Except Diagnostic ExtensionField :=
  match index.resolve (declared.scope file) declared.field with
  | .ok field => .ok field
  | .error refusal => .error (refusal.diagnostic declared.field path declared.place.text)

/-- The results of resolving the extensions of a descriptor file, in order of declaration. -/
def resolutions (index : TypeIndex) (file : DescriptorFile) :
    List (Except Diagnostic ExtensionField) :=
  file.spec.declaredExtensions.map (index.resolveDeclared file.path (index.fileOf file.spec))

/-- The fields of a file so far with the report on it, after one more result. -/
def settle (state : List ExtensionField × Report) :
    Except Diagnostic ExtensionField → List ExtensionField × Report
  | .ok field => (state.1 ++ [field], state.2)
  | .error diagnostic => (state.1, state.2.push diagnostic)

/-- A descriptor file with its extensions resolved, and a report of those that are refused. -/
def resolveFile (index : TypeIndex) (file : DescriptorFile) : ResolvedFile × Report :=
  let (fields, report) := (index.resolutions file).foldl settle ([], .empty)
  (⟨file.path, index.fileOf file.spec, fields⟩, report)

/-- Resolved files with the report on all so far, after one more file. -/
def resolveNext (index : TypeIndex) (state : List ResolvedFile × Report) (file : DescriptorFile) :
    List ResolvedFile × Report :=
  let (resolved, report) := index.resolveFile file
  (state.1 ++ [resolved], state.2.merge report)

end TypeIndex

/-- Indexes and resolves descriptor files. The report has what the index found first. -/
def resolveFiles (files : List DescriptorFile) : List ResolvedFile × Report :=
  let (index, report) := TypeIndex.ofFiles files
  files.foldl index.resolveNext ([], report)

end ProtoExtensions
