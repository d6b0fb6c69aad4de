import ProtoExtensions.Lowering.Contract

/-!
Parts of the record that describes an extension to the runtime: its type tag, its flags, and its
serialized options.
-/

namespace ProtoExtensions

/-- What the names of the runtime's type tags start with. -/
def typeTagStem : String := "ComGoogleProtobufDescriptors_FieldDescriptor_Type_Enum_"

/-- The runtime's tag for a field type. -/
def FieldType.tag (type : FieldType) : String :=
  typeTagStem ++ String.ofList (type.protoName.toList.map Char.toUpper)

namespace ExtensionField

/-- The flags of an extension's record. -/
def flagNames (field : ExtensionField) : List String :=
  ["CGPFieldFlagExtension"] ++
    (if field.isRepeated then ["CGPFieldFlagRepeated"] else []) ++
    (if field.packed then ["CGPFieldFlagPacked"] else [])

/-- The flags as one expression. -/
def flags (field : ExtensionField) : String :=
  " | ".intercalate field.flagNames

/-- The serialized field options as a C string: packed is option 2 and deprecated option 3, each a
varint. There is none when neither is set. -/
def optionsData? (field : ExtensionField) : Option String :=
  let packed := if field.packed then "\\x10\\x01" else ""
  let deprecated := if field.deprecated then "\\x18\\x01" else ""
  if field.packed || field.deprecated then some ("\"" ++ packed ++ deprecated ++ "\"") else none

end ExtensionField

end ProtoExtensions
