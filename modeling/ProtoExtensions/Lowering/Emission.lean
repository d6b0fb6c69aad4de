import ProtoExtensions.HeaderMap
import ProtoExtensions.Lowering.FieldRecord
import ProtoExtensions.NameSet
import ProtoExtensions.Printer

/-!
The pieces of code that one extension gives rise to: the public declaration of its variable, the
definition of the variable, the record that describes the extension to the runtime, the statement
that builds the extension from the record, and the statement that registers it. All pieces name the
same variable, the same record, and the same extended class. Each piece can be printed any number of
times and in any order.
-/

namespace ProtoExtensions

/-- A text without the dots it starts with. -/
def withoutLeadingDots (name : String) : String :=
  String.ofList (name.toList.dropWhile (· == '.'))

namespace LoweredField

/-- The Objective-C type of the extension variable, without its star. -/
def variableType (f : LoweredField) : String :=
  let extendee := f.field.extendee.className
  if f.field.isRepeated then
    "CGPGeneratedExtension<" ++ extendee ++ " *, NSArray<" ++ f.valueClass ++ " *> *>"
  else "CGPGeneratedExtension<" ++ extendee ++ " *, " ++ f.valueClass ++ " *>"

/-- The header of the class that the extension is declared in. -/
def scopeHeader (headers : HeaderMap) (f : LoweredField) : String :=
  headers.headerFor f.field.file.classPackage f.field.scope.unitName

/-- The header the source needs for the extension's value type: none for a scalar, and none for a
type that the extension's own header declares. -/
def sourceImport? (headers : HeaderMap) (f : LoweredField) : Option String :=
  f.field.value.typeRef?.bind fun type =>
    let header := headers.headerForType type
    if header = f.scopeHeader headers then none else some header

/-- The classes that the declaration mentions and the header therefore introduces. -/
def forwardClasses (f : LoweredField) : List String :=
  ["CGPGeneratedExtension", f.field.extendee.className] ++
    (if f.valueClass = "NSString" then [] else [f.valueClass])

/-- How the declaration's comment calls the type of the values. -/
def valueTypeName (f : LoweredField) : String :=
  match f.field.value.typeRef? with
  | none => f.field.type.protoName
  | some type => withoutLeadingDots type.fullName

/-- Prints the public declaration of the extension variable. -/
def printDeclaration (f : LoweredField) (printer : Printer) : Except Printer.Stopped Printer :=
  printer.print
    ("\n/*! extend $extendee$ \x7b $label$ $value_type$ $field$ = $number$; \x7d */\n" ++
      "FOUNDATION_EXPORT $type$ *$name$$attributes$;\n")
    [("extendee", withoutLeadingDots f.field.extendee.fullName),
     ("label", f.field.cardinality.protoName),
     ("value_type", f.valueTypeName),
     ("field", f.field.name),
     ("number", toString f.field.number.toNat),
     ("type", f.variableType),
     ("name", f.field.variableName),
     ("attributes", if f.field.deprecated then " __attribute__((deprecated))" else "")]

/-- Prints the definition of the extension variable. -/
def printDefinition (f : LoweredField) (printer : Printer) : Except Printer.Stopped Printer :=
  printer.print "$type$ *$name$;\n" [("type", f.variableType), ("name", f.field.variableName)]

/-- Prints the entry for the initial default value, where there is one. -/
def printDefault (f : LoweredField) (printer : Printer) : Except Printer.Stopped Printer :=
  match f.defaultMember? with
  | none => .ok printer
  | some default =>
    printer.print ".defaultValue.$member$ = $literal$,\n"
      [("member", default.member), ("literal", default.literal)]

/-- Prints the static record that describes the extension. -/
def printRecord (f : LoweredField) (printer : Printer) : Except Printer.Stopped Printer := do
  let className := match f.field.value with
    | .scalar => "NULL"
    | _ => "\"" ++ f.valueClass ++ "\""
  let opened ← printer.print "\nstatic CGPFieldData $name$_FieldData = \x7b\n"
    [("name", f.field.variableName)]
  let indented ← opened.indent
  let described ← indented.print
    (".name = \"$field$\",\n.javaName = \"$java_name$\",\n.number = $number$,\n" ++
      ".flags = $flags$,\n.type = $type$,\n")
    [("field", f.field.name),
     ("java_name", f.field.javaName),
     ("number", toString f.field.number.toNat),
     ("flags", f.field.flags),
     ("type", f.field.type.tag)]
  let defaulted ← f.printDefault described
  let finished ← defaulted.print
    (".className = $class_name$,\n.containingType = \"$containing$\",\n" ++
      ".optionsData = $options$,\n")
    [("class_name", className),
     ("containing", f.field.extendee.className),
     ("options", f.field.optionsData?.getD "NULL")]
  finished.outdent.print "\x7d;\n"

/-- Prints the statement that builds the extension from its record. -/
def printInitializer (f : LoweredField) (printer : Printer) : Except Printer.Stopped Printer :=
  printer.print "$name$ = CGPNewGeneratedExtension(&$name$_FieldData);\n"
    [("name", f.field.variableName)]

/-- Prints the statement that registers the extension. It runs after the initializer. -/
def printRegistration (f : LoweredField) (printer : Printer) : Except Printer.Stopped Printer :=
  printer.print
    "CGPExtensionRegistryAdd(extensionRegistry, \"$containing$\", $number$, $name$);\n"
    [("containing", f.field.extendee.className),
     ("number", toString f.field.number.toNat),
     ("name", f.field.variableName)]

end LoweredField

end ProtoExtensions
