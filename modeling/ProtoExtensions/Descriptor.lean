import ProtoExtensions.FieldType

/-!
Resolved descriptors: the identity of a proto file, the message and enum types it declares, and the
extension fields that have been resolved against them. Two type references are the same type when
their full names agree; the file and the nesting path of a type only decide how it is named in
generated code.
-/

namespace ProtoExtensions

/-- What a proto file is called and how its classes are laid out. -/
structure ProtoFile where
  name : String
  package : String
  javaPackage : Option String := none
  outerClassname : Option String := none
  multipleFiles : Bool := false
  topLevelTypes : List String := []
  deriving DecidableEq, Repr

/-- The package with a leading dot, or nothing for the empty package. -/
def ProtoFile.dottedPackage (file : ProtoFile) : String :=
  if file.package = "" then "" else "." ++ file.package

/-- A message or enum type: the file that declares it and the names on the way down to it. -/
structure TypeRef where
  file : ProtoFile
  path : List String
  deriving DecidableEq, Repr

namespace TypeRef

/-- The fully qualified name, with a leading dot. -/
def fullName (type : TypeRef) : String :=
  type.file.dottedPackage ++ "." ++ ".".intercalate type.path

/-- The name of the type itself. -/
def simpleName (type : TypeRef) : String :=
  type.path.getLast?.getD ""

/-- The name of the outermost type around it. -/
def topLevelName (type : TypeRef) : String :=
  type.path.head?.getD ""

/-- Whether two references name the same type. -/
def same (a b : TypeRef) : Bool :=
  a.fullName == b.fullName

end TypeRef

/-- A named number of an enum. -/
structure EnumValue where
  name : String
  number : Int32
  deriving DecidableEq, Repr

/-- An enum type with its values in declaration order. -/
structure EnumRef where
  type : TypeRef
  values : List EnumValue
  deriving DecidableEq, Repr

namespace EnumRef

/-- The first declared value. -/
def firstValue? (enum : EnumRef) : Option EnumValue :=
  enum.values.head?

/-- The first declared value of a given name. -/
def findValue? (enum : EnumRef) (name : String) : Option EnumValue :=
  enum.values.find? (·.name == name)

/-- Whether two references name the same enum with the same values. -/
def same (a b : EnumRef) : Bool :=
  a.type.same b.type && a.values == b.values

end EnumRef

/-- What kind of values a field holds. -/
inductive ValueKind where
  | scalar
  | message (type : TypeRef)
  | enum (enum : EnumRef)
  deriving DecidableEq, Repr

namespace ValueKind

/-- The type that the values refer to. -/
def typeRef? : ValueKind → Option TypeRef
  | scalar => none
  | message type => some type
  | enum e => some e.type

/-- Whether two kinds hold the same values. -/
def same : ValueKind → ValueKind → Bool
  | scalar, scalar => true
  | message a, message b => a.same b
  | enum a, enum b => a.same b
  | _, _ => false

end ValueKind

/-- How often a field may occur. -/
inductive Cardinality where
  | optional
  | required
  | repeated
  deriving DecidableEq, Repr

namespace Cardinality

/-- The name of a cardinality in proto files. -/
def protoName : Cardinality → String
  | optional => "optional"
  | required => "required"
  | repeated => "repeated"

/-- All cardinalities. -/
def all : List Cardinality :=
  [optional, required, repeated]

/-- The cardinality of a given proto name. -/
def ofProtoName? (name : String) : Option Cardinality :=
  all.find? (·.protoName == name)

theorem mem_all (cardinality : Cardinality) : cardinality ∈ all := by
  cases cardinality <;> decide

@[simp] theorem ofProtoName?_protoName (cardinality : Cardinality) :
    ofProtoName? cardinality.protoName = some cardinality := by
  cases cardinality <;> decide

end Cardinality

/-- Where an extension is declared. -/
inductive Scope where
  | file (file : ProtoFile)
  | message (type : TypeRef)
  deriving DecidableEq, Repr

namespace Scope

/-- The file that holds the scope. -/
def declaringFile : Scope → ProtoFile
  | file f => f
  | message type => type.file

/-- The name that relative references inside the scope start from. -/
def fullName : Scope → String
  | file f => f.dottedPackage
  | message type => type.fullName

/-- Whether two scopes are the same place. -/
def same : Scope → Scope → Bool
  | file a, file b => a == b
  | message a, message b => a.same b
  | _, _ => false

end Scope

/-- A default value. Floating-point values are kept as bit patterns. -/
inductive DefaultValue where
  | int32 (value : Int32)
  | int64 (value : Int64)
  | uint32 (value : UInt32)
  | uint64 (value : UInt64)
  | float (bits : UInt32)
  | double (bits : UInt64)
  | bool (value : Bool)
  | string (value : String)
  | bytes (value : List UInt8)
  | enum (name : String) (number : Int32)
  deriving DecidableEq, Repr

/-- A resolved extension field. -/
structure ExtensionField where
  name : String
  number : UInt32
  type : FieldType
  value : ValueKind
  extendee : TypeRef
  scope : Scope
  cardinality : Cardinality := .optional
  defaultValue : Option DefaultValue := none
  packed : Bool := false
  deprecated : Bool := false
  deriving DecidableEq, Repr

namespace ExtensionField

/-- The fully qualified name of an extension: its name inside its scope. -/
def fullName (field : ExtensionField) : String :=
  field.scope.fullName ++ "." ++ field.name

/-- The file that declares the extension. -/
def file (field : ExtensionField) : ProtoFile :=
  field.scope.declaringFile

/-- Whether the extension may occur several times. -/
def isRepeated (field : ExtensionField) : Bool :=
  field.cardinality == .repeated

end ExtensionField

/-- A descriptor file with its extensions resolved. -/
structure ResolvedFile where
  path : String
  file : ProtoFile
  extensions : List ExtensionField
  deriving DecidableEq, Repr

end ProtoExtensions
