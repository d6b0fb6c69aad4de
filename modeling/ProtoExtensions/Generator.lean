import ProtoExtensions.Options
import ProtoExtensions.OuterClass

/-!
Generating code for resolved files. Each file with extensions gives a header and a source; after all
files are done, the headers are entered in the header map, so that later runs find them.
-/

namespace ProtoExtensions

/-- Why code cannot be generated. -/
inductive GenerationFault where
  | violation (field : ExtensionField) (violation : Violation)
  | print (fault : PrintFault)
  deriving DecidableEq, Repr

/-- The text that reports why code cannot be generated. -/
def GenerationFault.message : GenerationFault → String
  | violation field v => v.message field
  | print fault => fault.message

/-- A field that can be lowered, or the rule it breaks. -/
def ExtensionField.lower (field : ExtensionField) : Except GenerationFault LoweredField :=
  match LoweredField.ofField field with
  | .ok lowered => .ok lowered
  | .error v => .error (.violation field v)

/-- The text that a piece of code prints. -/
def printed (result : Except Printer.Stopped α) : Except GenerationFault α :=
  match result with
  | .ok value => .ok value
  | .error stopped => .error (.print stopped.fault)

/-- Fields that can be lowered, or the first rule that one of them breaks. -/
def lowerAll : List ExtensionField → Except GenerationFault (List LoweredField)
  | [] => .ok []
  | field :: fields => do
    let lowered ← field.lower
    let rest ← lowerAll fields
    .ok (lowered :: rest)

namespace OuterClass

/-- The outer class of a file with some extensions. -/
def ofFile (file : ProtoFile) (extensions : List ExtensionField) (headers : HeaderMap) :
    Except GenerationFault OuterClass :=
  (lowerAll extensions).map fun lowered => ⟨file, lowered, headers⟩

/-- Adds the header and the source to a set of files. -/
def addTo (c : OuterClass) (files : SortedMap String) :
    Except GenerationFault (SortedMap String) := do
  let header ← printed c.headerText
  let source ← printed c.sourceText
  .ok ((files.insert c.headerPath header).insert c.sourcePath source)

/-- The entry of the class in the header map. -/
def mapping (c : OuterClass) : String × String :=
  (c.qualifiedName, c.headerPath)

end OuterClass

/-- Options with the header map they have led to. -/
structure Generator where
  options : Options := {}
  headers : HeaderMap := {}

namespace Generator

/-- A generator with the header mappings that its options name. -/
def ofOptions (options : Options) (tree : FileTree) : Except SetupFault Generator :=
  (options.headerMap tree).map fun headers => { options, headers }

/-- The outer classes of the files that have extensions, in order. -/
def outerClasses (headers : HeaderMap) :
    List ResolvedFile → Except GenerationFault (List OuterClass)
  | [] => .ok []
  | file :: files => do
    if file.extensions.isEmpty then outerClasses headers files
    else
      let c ← OuterClass.ofFile file.file file.extensions headers
      let rest ← outerClasses headers files
      .ok (c :: rest)

/-- The files of some outer classes. Where two have one path, the later one counts. -/
def emit (files : SortedMap String) : List OuterClass → Except GenerationFault (SortedMap String)
  | [] => .ok files
  | c :: classes => do
    let more ← c.addTo files
    emit more classes

/-- The header map with the headers of some outer classes. -/
def record (headers : HeaderMap) (classes : List OuterClass) : HeaderMap :=
  classes.foldl (fun headers c => headers.put c.mapping.1 c.mapping.2) headers

/-- Generates the files of all resolved files that have extensions, by path. The generator then
knows their headers. -/
def generate (generator : Generator) (files : List ResolvedFile) :
    Except GenerationFault (Generator × SortedMap String) := do
  let classes ← outerClasses generator.headers files
  let output ← emit .empty classes
  .ok ({ generator with headers := record generator.headers classes }, output)

/-- Writes generated files under a directory. -/
def writeFiles (tree : FileTree) (directory : String) (files : SortedMap String) :
    FileTree × Except FileFault Unit :=
  tree.writeAll (files.entries.map fun (path, text) => (Path.join directory path, text))

/-- Writes the header map to the file that the options name, and tells whether they name one. -/
def writeOutputMapping (generator : Generator) (tree : FileTree) :
    FileTree × Except FileFault Bool :=
  match generator.options.outputMapping with
  | none => (tree, .ok false)
  | some path =>
    match generator.headers.writeMappings tree path with
    | (written, .ok ()) => (written, .ok true)
    | (written, .error fault) => (written, .error fault)

end Generator

end ProtoExtensions
