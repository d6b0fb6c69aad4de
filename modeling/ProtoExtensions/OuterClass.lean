import ProtoExtensions.Lowering.Emission

/-!
The outer class of a proto file: a header that declares the file's extensions and a source that
defines them, builds them when the class is initialized, and registers them in one method. Both list
the extensions in the order of the file's descriptors.
-/

namespace ProtoExtensions

/-- The runtime's private declarations, which every generated source includes. -/
def runtimeHeader : String := "com/google/protobuf/GeneratedMessage_PackagePrivate.h"

/-- The method that registers all extensions of a class, up to its body. -/
def registrationMethod : String :=
  "+ (void)registerAllExtensionsWithComGoogleProtobufExtensionRegistryLite:" ++
    "(ComGoogleProtobufExtensionRegistryLite *)extensionRegistry"

/-- The outer class of a file with extensions that can be lowered. -/
structure OuterClass where
  file : ProtoFile
  extensions : List LoweredField
  headers : HeaderMap

namespace OuterClass

/-- The Objective-C name of the class. -/
def className (c : OuterClass) : String :=
  c.file.outerClassName

/-- The dotted name of the class. -/
def qualifiedName (c : OuterClass) : String :=
  ProtoExtensions.qualifiedName c.file.classPackage c.file.outerClass

/-- The path of both files, without extension. -/
def outputPath (c : OuterClass) : String :=
  c.headers.outputPath c.file.classPackage c.file.outerClass

/-- The path of the header, as other files include it. -/
def headerPath (c : OuterClass) : String :=
  c.outputPath ++ ".h"

/-- The path of the source. -/
def sourcePath (c : OuterClass) : String :=
  c.outputPath ++ ".m"

/-- Prints one piece for each extension, in order. -/
def printEach (c : OuterClass)
    (piece : LoweredField → Printer → Except Printer.Stopped Printer) (printer : Printer) :
    Except Printer.Stopped Printer :=
  c.extensions.foldlM (fun printer f => piece f printer) printer

/-- Prints one line for each value of a list, under the name that the template has for it. -/
def printLines (template name : String) (values : List String) (printer : Printer) :
    Except Printer.Stopped Printer :=
  values.foldlM (fun printer value => printer.print template [(name, value)]) printer

/-- Prints the comment that both files start with. -/
def printBanner (c : OuterClass) (printer : Printer) : Except Printer.Stopped Printer :=
  printer.print "// Generated by pbobjc.  DO NOT EDIT!\n// source: $source$\n"
    [("source", c.file.name)]

/-- The classes that the header introduces. -/
def forwardClasses (c : OuterClass) : NameSet :=
  (NameSet.empty.insert "ComGoogleProtobufExtensionRegistryLite").insertAll
    (c.extensions.flatMap LoweredField.forwardClasses)

/-- The headers that the source includes besides its own and the runtime's. -/
def sourceImports (c : OuterClass) : NameSet :=
  ((NameSet.empty.insertAll (c.extensions.filterMap (LoweredField.sourceImport? c.headers))).erase
    c.headerPath).erase runtimeHeader

/-- Prints the header. -/
def printHeader (c : OuterClass) (printer : Printer) : Except Printer.Stopped Printer := do
  let bindings := [("class", c.className)]
  let printer ← c.printBanner printer
  let printer ← printer.print
    ("\n#ifndef $class$_H\n#define $class$_H\n\n#include \"J2ObjC_header.h\"\n\n") bindings
  let printer ← printLines "@class $class$;\n" "class" c.forwardClasses.sorted printer
  let printer ← printer.print
    ("\n@interface $class$ : NSObject\n\n" ++ registrationMethod ++
      ";\n\n@end\n\nJ2OBJC_STATIC_INIT($class$)\n") bindings
  let printer ← c.printEach LoweredField.printDeclaration printer
  printer.print "\n#endif // $class$_H\n" bindings

/-- Prints the source. -/
def printSource (c : OuterClass) (printer : Printer) : Except Printer.Stopped Printer := do
  let bindings := [("class", c.className)]
  let printer ← c.printBanner printer
  let printer ← printer.print
    "\n#include \"J2ObjC_source.h\"\n#include \"$own$\"\n#include \"$runtime$\"\n"
    [("own", c.headerPath), ("runtime", runtimeHeader)]
  let printer ← printLines "#include \"$header$\"\n" "header" c.sourceImports.sorted printer
  let printer ← if c.extensions.isEmpty then .ok printer else printer.print "\n"
  let printer ← c.printEach LoweredField.printDefinition printer
  let printer ← c.printEach LoweredField.printRecord printer
  let printer ← printer.print
    ("\nJ2OBJC_INITIALIZED_DEFN($class$)\n\n@implementation $class$\n\n" ++
      "+ (void)initialize \x7b\n  if (self == [$class$ class]) \x7b\n") bindings
  let printer ← printer.indent
  let printer ← printer.indent
  let printer ← c.printEach LoweredField.printInitializer printer
  let printer ← printer.print "J2OBJC_SET_INITIALIZED($class$)\n" bindings
  let printer ← printer.outdent.print "\x7d\n"
  let printer ← printer.outdent.print ("\x7d\n\n" ++ registrationMethod ++ " \x7b\n")
  let printer ← printer.indent
  let printer ← printer.print "$class$_initialize();\n" bindings
  let printer ← c.printEach LoweredField.printRegistration printer
  printer.outdent.print "\x7d\n\n@end\n"

/-- The text of the header. -/
def headerText (c : OuterClass) : Except Printer.Stopped String :=
  (c.printHeader {}).map Printer.text

/-- The text of the source. -/
def sourceText (c : OuterClass) : Except Printer.Stopped String :=
  (c.printSource {}).map Printer.text

end OuterClass

end ProtoExtensions
