import ProtoExtensions.FileTree
import ProtoExtensions.HeaderMap.Properties
import ProtoExtensions.Json.Document

/-!
Generator options: the output style, the files that header mappings are read from, and the file that
the mappings of generated headers are written to. Options are kept in a JSON file; relative paths in
it start from the directory of that file.
-/

namespace ProtoExtensions

namespace OutputStyle

/-- The name of a style. -/
def name : OutputStyle → String
  | package => "package"
  | none => "none"

/-- All styles. -/
def all : List OutputStyle :=
  [package, none]

/-- The style of a given name. -/
def ofName? (name : String) : Option OutputStyle :=
  all.find? (·.name == name)

@[simp] theorem ofName?_name (style : OutputStyle) : ofName? style.name = some style := by
  cases style <;> decide

end OutputStyle

/-- Why options or header mappings cannot be used. -/
inductive SetupFault where
  | file (fault : FileFault)
  | mapping (path : String) (fault : MappingFault)
  | options (path : String) (fault : JsonFault)
  deriving DecidableEq, Repr

/-- The text that reports a setup fault. -/
def SetupFault.message : SetupFault → String
  | file fault => "IO error: " ++ fault.message
  | mapping path fault => fault.message path
  | options path fault => "invalid configuration: " ++ path ++ ": " ++ fault.message

/-- The options of a generator. -/
structure Options where
  outputStyle : OutputStyle := .package
  headerMappings : List String := []
  outputMapping : Option String := none
  deriving DecidableEq, Repr

/-- The record that options are kept in. -/
def optionsSchema : Schema Unit :=
  fun _ =>
    ⟨"GeneratorOptions",
      [⟨"outputStyle", .choice (OutputStyle.all.map (·.name)), .defaulted⟩,
        ⟨"headerMappings", .list .path, .defaulted⟩,
        ⟨"outputMapping", .optional .path, .defaulted⟩]⟩

namespace Options

/-- The name of the file that options are kept in. -/
def fileName : String := "pbobjc.config.json"

/-- The file that header mappings are read from where no other is named. -/
def defaultMappingFile : String := "mappings.j2objc"

/-- Options from JSON. -/
def ofJson? (json : Json) : Option Options := do
  let outputStyle ← json.defaulted "outputStyle" .package fun style =>
    style.string?.bind OutputStyle.ofName?
  let headerMappings ← json.defaulted "headerMappings" [] fun paths =>
    paths.items?.bind (·.mapM Json.string?)
  let outputMapping ← json.optional "outputMapping" Json.string?
  pure { outputStyle, headerMappings, outputMapping }

/-- Reads the text of options. A value of the schema's form always describes options, so the last
case does not arise. -/
def read (text : String) : Except JsonFault Options :=
  match Json.read optionsSchema (.record ()) text with
  | .error fault => .error fault
  | .ok json =>
    match ofJson? json with
    | some options => .ok options
    | none => .error ⟨.expectedValue, 1, 0⟩

/-- Options whose relative paths start from a directory. -/
def relativeTo (options : Options) (directory : String) : Options :=
  { options with
    headerMappings := options.headerMappings.map (Path.join directory)
    outputMapping := options.outputMapping.map (Path.join directory) }

/-- Loads options from a file. -/
def load (tree : FileTree) (path : String) : Except SetupFault Options :=
  match tree.readText path with
  | .error fault => .error (.file fault)
  | .ok text =>
    match read text with
    | .error fault => .error (.options path fault)
    | .ok options =>
      match Path.parent? path with
      | some directory => .ok (options.relativeTo directory)
      | none => .ok options

end Options

namespace HeaderMap

/-- Adds the mappings of a file and gives their number. -/
def load (map : HeaderMap) (tree : FileTree) (path : String) :
    Except SetupFault (HeaderMap × Nat) :=
  match tree.readText path with
  | .error fault => .error (.file fault)
  | .ok text =>
    match map.readMappings text with
    | (read, .ok count) => .ok (read, count)
    | (_, .error fault) => .error (.mapping path fault)

/-- Adds the mappings of several files, where a later file counts. -/
def loadAll (map : HeaderMap) (tree : FileTree) : List String → Except SetupFault HeaderMap
  | [] => .ok map
  | path :: paths =>
    match map.load tree path with
    | .ok (read, _) => read.loadAll tree paths
    | .error fault => .error fault

/-- Writes all mappings to a file. -/
def writeMappings (map : HeaderMap) (tree : FileTree) (path : String) :
    FileTree × Except FileFault Unit :=
  tree.writeWithParents path map.mappingsText

end HeaderMap

namespace Options

/-- The files that header mappings are read from. -/
def mappingFiles (options : Options) (tree : FileTree) : List String :=
  if !options.headerMappings.isEmpty then options.headerMappings
  else if tree.isFile defaultMappingFile then [defaultMappingFile]
  else []

/-- The header map that options describe. -/
def headerMap (options : Options) (tree : FileTree) : Except SetupFault HeaderMap :=
  HeaderMap.loadAll { style := options.outputStyle } tree (options.mappingFiles tree)

end Options

end ProtoExtensions
