import ProtoExtensions.Json.Document
import ProtoExtensions.Spec.Json

/-!
Reading descriptor texts. The schema says which fields a record has, in the order in which they may
also be listed without their names.
-/

namespace ProtoExtensions

/-- The kinds of records in a descriptor. -/
inductive RecordKind where
  | file
  | fileOptions
  | message
  | enum
  | enumValue
  | field
  | fieldOptions
  deriving DecidableEq, Repr

/-- The records of a descriptor. -/
def descriptorSchema : Schema RecordKind
  | .file =>
    ⟨"FileSpec",
      [⟨"name", .text, .required⟩, ⟨"package", .text, .defaulted⟩,
        ⟨"options", .record .fileOptions, .defaulted⟩,
        ⟨"messageTypes", .list (.record .message), .defaulted⟩,
        ⟨"enumTypes", .list (.record .enum), .defaulted⟩,
        ⟨"extensions", .list (.record .field), .defaulted⟩]⟩
  | .fileOptions =>
    ⟨"FileOptionsSpec",
      [⟨"javaPackage", .optional .text, .optional⟩,
        ⟨"javaOuterClassname", .optional .text, .optional⟩,
        ⟨"javaMultipleFiles", .flag, .defaulted⟩]⟩
  | .message =>
    ⟨"MessageSpec",
      [⟨"name", .text, .required⟩, ⟨"nestedTypes", .list (.record .message), .defaulted⟩,
        ⟨"enumTypes", .list (.record .enum), .defaulted⟩,
        ⟨"extensions", .list (.record .field), .defaulted⟩]⟩
  | .enum =>
    ⟨"EnumSpec",
      [⟨"name", .text, .required⟩, ⟨"values", .list (.record .enumValue), .defaulted⟩]⟩
  | .enumValue =>
    ⟨"EnumValueSpec", [⟨"name", .text, .required⟩, ⟨"number", .int32, .required⟩]⟩
  | .field =>
    ⟨"FieldSpec",
      [⟨"name", .text, .required⟩, ⟨"number", .int32, .required⟩,
        ⟨"label", .choice (Cardinality.all.map (·.protoName)), .defaulted⟩,
        ⟨"type", .choice (FieldType.all.map (·.protoName)), .required⟩,
        ⟨"typeName", .optional .text, .optional⟩, ⟨"extendee", .optional .text, .optional⟩,
        ⟨"defaultValue", .optional .text, .optional⟩,
        ⟨"options", .record .fieldOptions, .defaulted⟩]⟩
  | .fieldOptions =>
    ⟨"FieldOptionsSpec", [⟨"packed", .flag, .defaulted⟩, ⟨"deprecated", .flag, .defaulted⟩]⟩

/-- Reads the text of a descriptor. A value of the schema's form always describes a file, so the
last case does not arise. -/
def FileSpec.read (text : String) : Except JsonFault FileSpec :=
  match Json.read descriptorSchema (.record .file) text with
  | .error fault => .error fault
  | .ok json =>
    match FileSpec.ofJson? json with
    | some spec => .ok spec
    | none => .error ⟨.expectedValue, 1, 0⟩

end ProtoExtensions
