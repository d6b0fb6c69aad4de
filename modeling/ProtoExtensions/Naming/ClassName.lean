import ProtoExtensions.Descriptor
import ProtoExtensions.Naming.CamelCase
import ProtoExtensions.Text.Capital
import ProtoExtensions.Text.Lines

/-!
Objective-C names of proto elements. Every name follows the Java class that the element would
produce: the package becomes a capitalized class prefix, nesting is joined with underscores, and
unless the file asks for multiple files its types live inside one outer class. The unit of a type or
scope is the top-level class whose header declares it.
-/

namespace ProtoExtensions

/-- Words that cannot stand alone as the member part of a generated name: the keywords of C and
Objective-C and the names that every object already has. -/
def reservedWords : List String :=
  ["auto", "break", "case", "char", "const", "continue", "default", "do", "double", "else",
   "enum", "extern", "float", "for", "goto", "if", "inline", "int", "long", "register",
   "restrict", "return", "short", "signed", "sizeof", "static", "struct", "switch", "typedef",
   "union", "unsigned", "void", "volatile", "while",
   "BOOL", "Class", "IMP", "NO", "NULL", "Nil", "Protocol", "SEL", "YES", "bycopy", "byref",
   "id", "in", "inout", "nil", "oneway", "out", "self", "super",
   "alloc", "class", "copy", "dealloc", "description", "hash", "init", "isa", "new", "release",
   "retain", "retainCount", "zone"]

/-- Whether a word is reserved. -/
def isReservedWord (word : String) : Bool :=
  reservedWords.contains word

/-- A package segment with its first character in upper case. -/
def capitalize : List Char → List Char
  | [] => []
  | c :: rest => capitals c ++ rest

/-- The class prefix of a package: its segments, capitalized and run together. -/
def classPrefix (package : String) : String :=
  String.ofList ((split '.' package.toList).flatMap capitalize)

namespace ProtoFile

/-- The package of the file's classes: its own option, else the proto package. -/
def classPackage (file : ProtoFile) : String :=
  file.javaPackage.getD file.package

/-- The file name without its directories and without the suffix of proto files. -/
def baseName (file : ProtoFile) : String :=
  let base := ((split '/' file.name.toList).getLast?).getD []
  let suffix := ".proto".toList
  String.ofList (if suffix.isSuffixOf base then base.take (base.length - suffix.length) else base)

/-- The outer class inferred from the file name, kept apart from the file's own top-level types. -/
def inferredOuterClass (file : ProtoFile) : String :=
  let name := camelCase file.baseName true
  if file.topLevelTypes.contains name then name ++ "OuterClass" else name

/-- The simple name of the file's outer class. -/
def outerClass (file : ProtoFile) : String :=
  file.outerClassname.getD file.inferredOuterClass

/-- The Objective-C name of the file's outer class. -/
def outerClassName (file : ProtoFile) : String :=
  classPrefix file.classPackage ++ file.outerClass

end ProtoFile

namespace TypeRef

/-- The Objective-C class of a message or enum type. -/
def className (type : TypeRef) : String :=
  let nested := "_".intercalate type.path
  if type.file.multipleFiles then classPrefix type.file.classPackage ++ nested
  else type.file.outerClassName ++ "_" ++ nested

/-- The top-level class that contains the type. -/
def unitName (type : TypeRef) : String :=
  if type.file.multipleFiles then type.topLevelName else type.file.outerClass

end TypeRef

namespace Scope

/-- The Objective-C class that holds the extensions declared in the scope. -/
def className : Scope → String
  | file f => f.outerClassName
  | message type => type.className

/-- The top-level class that contains the scope. -/
def unitName : Scope → String
  | file f => f.outerClass
  | message type => type.unitName

end Scope

namespace ExtensionField

/-- The member part of an extension's name: camel case, with an underscore after a reserved word. -/
def memberName (field : ExtensionField) : String :=
  let name := camelCase field.name false
  if isReservedWord name then name ++ "_" else name

/-- The global variable that holds the extension. -/
def variableName (field : ExtensionField) : String :=
  field.scope.className ++ "_" ++ field.memberName

/-- The capitalized name of the field. -/
def javaName (field : ExtensionField) : String :=
  camelCase field.name true

end ExtensionField

/-- The class that boxes the values of a scalar type; types that refer to a message or an enum are
not scalar. -/
def FieldType.boxClass? : FieldType → Option String
  | .int32 | .uint32 | .sint32 | .fixed32 | .sfixed32 => some "JavaLangInteger"
  | .int64 | .uint64 | .sint64 | .fixed64 | .sfixed64 => some "JavaLangLong"
  | .float => some "JavaLangFloat"
  | .double => some "JavaLangDouble"
  | .bool => some "JavaLangBoolean"
  | .string => some "NSString"
  | .bytes => some "ComGoogleProtobufByteString"
  | .message | .group | .enum => none

/-- The class of an extension's values, where its value kind fits its type. -/
def ExtensionField.valueClass? (field : ExtensionField) : Option String :=
  match field.value with
  | .message type => some type.className
  | .enum e => some e.type.className
  | .scalar => field.type.boxClass?

end ProtoExtensions
