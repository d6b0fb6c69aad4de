import ProtoExtensions.Descriptor

/-!
Descriptors as they are written: a file's messages, enums and extension declarations before any name
in them has been looked up.
-/

namespace ProtoExtensions

/-- The options of a declared field. -/
structure FieldOptions where
  packed : Bool := false
  deprecated : Bool := false
  deriving DecidableEq, Repr

/-- Whether no option is set. -/
def FieldOptions.isEmpty (options : FieldOptions) : Bool :=
  !options.packed && !options.deprecated

/-- A declared extension field. Types are still names. -/
structure FieldSpec where
  name : String
  number : Int32
  label : Cardinality := .optional
  type : FieldType
  typeName : Option String := none
  extendee : Option String := none
  defaultValue : Option String := none
  options : FieldOptions := {}
  deriving DecidableEq, Repr

/-- A declared enum. -/
structure EnumSpec where
  name : String
  values : List EnumValue := []
  deriving DecidableEq, Repr

/-- A declared message with all that is declared inside it. -/
structure MessageSpec where
  name : String
  nestedTypes : List MessageSpec := []
  enumTypes : List EnumSpec := []
  extensions : List FieldSpec := []
  deriving Repr

/-- The options of a file. -/
structure FileOptions where
  javaPackage : Option String := none
  outerClassname : Option String := none
  multipleFiles : Bool := false
  deriving DecidableEq, Repr

/-- A proto file as a descriptor describes it. -/
structure FileSpec where
  name : String
  package : String := ""
  options : FileOptions := {}
  messageTypes : List MessageSpec := []
  enumTypes : List EnumSpec := []
  extensions : List FieldSpec := []
  deriving Repr

/-- A descriptor file: where it was found and what it describes. -/
structure DescriptorFile where
  path : String
  spec : FileSpec
  deriving Repr

mutual

/-- The number of extensions declared inside a message, at any depth. -/
def MessageSpec.extensionCount : MessageSpec → Nat
  | ⟨_, nestedTypes, _, extensions⟩ => extensions.length + nestedExtensionCount nestedTypes

/-- The number of extensions declared inside some messages. -/
def nestedExtensionCount : List MessageSpec → Nat
  | [] => 0
  | message :: messages => message.extensionCount + nestedExtensionCount messages

end

namespace FileSpec

/-- The names of the types declared directly in the file, messages first. -/
def topLevelTypeNames (spec : FileSpec) : List String :=
  spec.messageTypes.map (·.name) ++ spec.enumTypes.map (·.name)

/-- The number of extensions declared in the file, at any depth. -/
def extensionCount (spec : FileSpec) : Nat :=
  spec.extensions.length + nestedExtensionCount spec.messageTypes

/-- The identity of the file described. -/
def file (spec : FileSpec) : ProtoFile where
  name := spec.name
  package := spec.package
  javaPackage := spec.options.javaPackage
  outerClassname := spec.options.outerClassname
  multipleFiles := spec.options.multipleFiles
  topLevelTypes := spec.topLevelTypeNames

end FileSpec

end ProtoExtensions
