import ProtoExtensions.Json
import ProtoExtensions.Spec

/-!
The JSON form of descriptors. Absent options, empty lists and false flags are left out; a file's
package and options, a field's label and an enum's values are always there.
-/

namespace ProtoExtensions

/-! ## Writing -/

/-- A member that is left out when it is absent. -/
def Json.ifSome (name : String) (value : Option String) : List (String × Json) :=
  value.toList.map fun text => (name, .string text)

/-- A member that is left out when it is false. -/
def Json.ifTrue (name : String) (value : Bool) : List (String × Json) :=
  if value then [(name, .bool true)] else []

/-- A member that is left out when it has no items. -/
def Json.ifItems (name : String) (items : List Json) : List (String × Json) :=
  if items.isEmpty then [] else [(name, .list items)]

/-- Field options as JSON. -/
def FieldOptions.toJson (options : FieldOptions) : Json :=
  .object (Json.ifTrue "packed" options.packed ++ Json.ifTrue "deprecated" options.deprecated)

/-- A field as JSON. -/
def FieldSpec.toJson (field : FieldSpec) : Json :=
  .object ([("name", .string field.name), ("number", .int field.number.toInt),
      ("label", .string field.label.protoName), ("type", .string field.type.protoName)] ++
    Json.ifSome "typeName" field.typeName ++ Json.ifSome "extendee" field.extendee ++
    Json.ifSome "defaultValue" field.defaultValue ++
    (if field.options.isEmpty then [] else [("options", field.options.toJson)]))

/-- An enum value as JSON. -/
def EnumValue.toJson (value : EnumValue) : Json :=
  .object [("name", .string value.name), ("number", .int value.number.toInt)]

/-- An enum as JSON. -/
def EnumSpec.toJson (spec : EnumSpec) : Json :=
  .object [("name", .string spec.name), ("values", .list (spec.values.map EnumValue.toJson))]

mutual

/-- A message as JSON. -/
def MessageSpec.toJson : MessageSpec → Json
  | ⟨name, nestedTypes, enumTypes, extensions⟩ =>
    .object ([("name", .string name)] ++
      Json.ifItems "nestedTypes" (messagesToJson nestedTypes) ++
      Json.ifItems "enumTypes" (enumTypes.map EnumSpec.toJson) ++
      Json.ifItems "extensions" (extensions.map FieldSpec.toJson))

/-- Messages as JSON. -/
def messagesToJson : List MessageSpec → List Json
  | [] => []
  | message :: messages => message.toJson :: messagesToJson messages

end

/-- File options as JSON. -/
def FileOptions.toJson (options : FileOptions) : Json :=
  .object (Json.ifSome "javaPackage" options.javaPackage ++
    Json.ifSome "javaOuterClassname" options.outerClassname ++
    Json.ifTrue "javaMultipleFiles" options.multipleFiles)

/-- A file as JSON. -/
def FileSpec.toJson (spec : FileSpec) : Json :=
  .object ([("name", .string spec.name), ("package", .string spec.package),
      ("options", spec.options.toJson)] ++
    Json.ifItems "messageTypes" (messagesToJson spec.messageTypes) ++
    Json.ifItems "enumTypes" (spec.enumTypes.map EnumSpec.toJson) ++
    Json.ifItems "extensions" (spec.extensions.map FieldSpec.toJson))

/-! ## Reading -/

namespace Json

/-- A list whose items are all read. -/
def listOf? (read : Json → Option α) (json : Json) : Option (List α) :=
  json.items?.bind (·.mapM read)

/-- A cardinality, by its name. -/
def cardinality? (json : Json) : Option Cardinality :=
  json.string?.bind Cardinality.ofProtoName?

/-- A field type, by its name. -/
def fieldType? (json : Json) : Option FieldType :=
  json.string?.bind FieldType.ofProtoName?

end Json

/-- Field options from JSON. -/
def FieldOptions.ofJson? (json : Json) : Option FieldOptions := do
  let packed ← json.defaulted "packed" false Json.bool?
  let deprecated ← json.defaulted "deprecated" false Json.bool?
  pure { packed, deprecated }

/-- A field from JSON. -/
def FieldSpec.ofJson? (json : Json) : Option FieldSpec := do
  let name ← json.required "name" Json.string?
  let number ← json.required "number" Json.int32?
  let label ← json.defaulted "label" .optional Json.cardinality?
  let type ← json.required "type" Json.fieldType?
  let typeName ← json.optional "typeName" Json.string?
  let extendee ← json.optional "extendee" Json.string?
  let defaultValue ← json.optional "defaultValue" Json.string?
  let options ← json.defaulted "options" {} FieldOptions.ofJson?
  pure { name, number, label, type, typeName, extendee, defaultValue, options }

/-- An enum value from JSON. -/
def EnumValue.ofJson? (json : Json) : Option EnumValue := do
  let name ← json.required "name" Json.string?
  let number ← json.required "number" Json.int32?
  pure { name, number }

/-- An enum from JSON. -/
def EnumSpec.ofJson? (json : Json) : Option EnumSpec := do
  let name ← json.required "name" Json.string?
  let values ← json.defaulted "values" [] (Json.listOf? EnumValue.ofJson?)
  pure { name, values }

mutual

/-- A message from JSON. -/
def MessageSpec.ofJson? : Json → Option MessageSpec
  | .object members => do
    let json := Json.object members
    let name ← json.required "name" Json.string?
    let nestedTypes ← nestedMessages? members
    let enumTypes ← json.defaulted "enumTypes" [] (Json.listOf? EnumSpec.ofJson?)
    let extensions ← json.defaulted "extensions" [] (Json.listOf? FieldSpec.ofJson?)
    pure { name, nestedTypes, enumTypes, extensions }
  | _ => none

/-- The messages nested in a message with the given members. -/
def nestedMessages? : List (String × Json) → Option (List MessageSpec)
  | [] => some []
  | (key, value) :: members =>
    if key = "nestedTypes" then messageList? value else nestedMessages? members

/-- A list of messages. -/
def messageList? : Json → Option (List MessageSpec)
  | .list items => messages? items
  | _ => none

/-- Messages from the items of a list. -/
def messages? : List Json → Option (List MessageSpec)
  | [] => some []
  | item :: items => do
    let message ← MessageSpec.ofJson? item
    let messages ← messages? items
    pure (message :: messages)

end

/-- File options from JSON. -/
def FileOptions.ofJson? (json : Json) : Option FileOptions := do
  let javaPackage ← json.optional "javaPackage" Json.string?
  let outerClassname ← json.optional "javaOuterClassname" Json.string?
  let multipleFiles ← json.defaulted "javaMultipleFiles" false Json.bool?
  pure { javaPackage, outerClassname, multipleFiles }

/-- A file from JSON. -/
def FileSpec.ofJson? (json : Json) : Option FileSpec := do
  let name ← json.required "name" Json.string?
  let package ← json.defaulted "package" "" Json.string?
  let options ← json.defaulted "options" {} FileOptions.ofJson?
  let messageTypes ← json.defaulted "messageTypes" [] messageList?
  let enumTypes ← json.defaulted "enumTypes" [] (Json.listOf? EnumSpec.ofJson?)
  let extensions ← json.defaulted "extensions" [] (Json.listOf? FieldSpec.ofJson?)
  pure { name, package, options, messageTypes, enumTypes, extensions }

end ProtoExtensions
