import ProtoExtensions.CommandLine.Arguments
import ProtoExtensions.DescriptorSet
import ProtoExtensions.Generator
import ProtoExtensions.Resolution

/-!
What the program does with a file tree. `check` loads and resolves all descriptors of a directory
and lists what it found. `generate` does the same and, where nothing is wrong, writes the generated
files. A run gives an exit code, what goes to the two outputs, and the tree as it is afterwards;
where `generate` stops before it writes, that is the tree it was given.
-/

namespace ProtoExtensions

/-- The outcome of a run. -/
structure Outcome where
  exitCode : UInt8 := 0
  output : List String := []
  errors : List String := []
  tree : FileTree

namespace Outcome

/-- Lines as one text. -/
def linesText (lines : List String) : String :=
  String.join (lines.map (· ++ "\n"))

/-- What goes to the standard output. -/
def outputText (outcome : Outcome) : String :=
  linesText outcome.output

/-- What goes to the standard error output. -/
def errorText (outcome : Outcome) : String :=
  linesText outcome.errors

end Outcome

/-- Why a run stops. -/
inductive RunFault where
  | load (path : String) (fault : LoadFault)
  | options (path : String) (fault : SetupFault)
  | mappings (fault : SetupFault)
  | generation (fault : GenerationFault)
  | write (directory : String) (fault : FileFault)
  | writeMappings (fault : FileFault)
  deriving DecidableEq, Repr

/-- A setup fault with its cause. A file fault is its own cause, so its text comes twice. -/
def SetupFault.chain (fault : SetupFault) : String :=
  match fault with
  | file cause => fault.message ++ ": " ++ cause.message
  | _ => fault.message

namespace RunFault

/-- The text that reports why a run stops. -/
def message : RunFault → String
  | load path fault => "Failed to load descriptors at '" ++ path ++ "': " ++ fault.message
  | options path fault => "Failed to read options from '" ++ path ++ "': " ++ fault.chain
  | mappings fault => "Failed to load header mappings: " ++ fault.chain
  | generation fault => fault.message
  | write directory fault =>
    "Failed to write to '" ++ directory ++ "': " ++ (SetupFault.file fault).chain
  | writeMappings fault => "Failed to write header mappings: " ++ (SetupFault.file fault).chain

end RunFault

/-! ## Loading -/

/-- The resolved descriptors of a directory, with everything that was found wrong. -/
def loadAndResolve (tree : FileTree) (path : String) :
    Except RunFault (List ResolvedFile × Report) :=
  match tree.loadDescriptors path with
  | .error fault => .error (.load path fault)
  | .ok loaded =>
    let (files, report) := resolveFiles loaded.files
    .ok (files, loaded.report.merge report)

/-- The lines that show a diagnostic. -/
def Diagnostic.outputLines (d : Diagnostic) : List String :=
  ("  " ++ d.severity.name ++ " [" ++ d.code ++ "] " ++ d.message ++ " (" ++ d.file ++ ":" ++
    d.path ++ ")") ::
    d.suggestion.toList.map fun suggestion => "    hint: " ++ suggestion

/-- The lines that show a report. -/
def Report.outputLines (report : Report) : List String :=
  report.entries.flatMap Diagnostic.outputLines

/-! ## Checking -/

/-- The line that shows a resolved file. -/
def ResolvedFile.outputLine (file : ResolvedFile) : String :=
  "  " ++ file.file.name ++ " " ++ file.path ++ " (" ++ toString file.extensions.length ++
    " extension(s))"

/-- The line that sums up a check. -/
def verdict (files : List ResolvedFile) (report : Report) : String :=
  let errors := report.count .error
  let warnings := report.count .warning
  if errors = 0 ∧ warnings = 0 then
    "✓ " ++ toString files.length ++ " file(s), " ++
      toString (files.flatMap (·.extensions)).length ++ " extension(s)"
  else if errors = 0 then "⚠ Valid with " ++ toString warnings ++ " warning(s)"
  else "✗ " ++ toString errors ++ " error(s), " ++ toString warnings ++ " warning(s)"

/-- Checks the descriptors of a directory. -/
def runCheck (tree : FileTree) (path : String) : Outcome :=
  let title := "Checking " ++ tree.canonical path
  match loadAndResolve tree path with
  | .error fault =>
    { exitCode := 1, output := [title], errors := ["error: " ++ fault.message], tree }
  | .ok (files, report) =>
    { exitCode := if report.count .error = 0 then 0 else 1
      output := [title] ++ report.outputLines ++ ["", "Descriptor Files"] ++
        files.map ResolvedFile.outputLine ++ ["", verdict files report]
      tree }

/-! ## Generating -/

namespace GenerateRequest

/-- The directory of the descriptors. -/
def directory (request : GenerateRequest) : String :=
  request.path.getD Command.defaultPath

/-- The directory that generated files go to. -/
def outputDirectory (request : GenerateRequest) : String :=
  request.output.getD (Path.join request.directory ".pbobjc/generated")

/-- The options file: the one that is named, else the one in the directory, if there is one. -/
def optionsFile? (request : GenerateRequest) (tree : FileTree) : Option String :=
  match request.config with
  | some path => some path
  | none =>
    let path := Path.join request.directory Options.fileName
    if tree.isFile path then some path else none

/-- Options with what the request says in their place. -/
def override (request : GenerateRequest) (options : Options) : Options where
  outputStyle := request.outputStyle.getD options.outputStyle
  headerMappings :=
    if request.mappings.isEmpty then options.headerMappings else request.mappings
  outputMapping := request.outputMapping <|> options.outputMapping

/-- The options that apply to a request. -/
def options (request : GenerateRequest) (tree : FileTree) : Except RunFault Options :=
  match request.optionsFile? tree with
  | none => .ok (request.override {})
  | some path =>
    match Options.load tree path with
    | .ok options => .ok (request.override options)
    | .error fault => .error (.options path fault)

end GenerateRequest

/-- Generates the files of resolved descriptors, without writing them. -/
def generateFor (tree : FileTree) (request : GenerateRequest) (files : List ResolvedFile) :
    Except RunFault (Generator × SortedMap String) := do
  let options ← request.options tree
  match Generator.ofOptions options tree with
  | .error fault => .error (.mappings fault)
  | .ok generator =>
    match generator.generate files with
    | .error fault => .error (.generation fault)
    | .ok result => .ok result

/-- Writes generated files and header mappings, and gives the lines that tell about them. -/
def writeGenerated (tree : FileTree) (directory : String) (generator : Generator)
    (files : SortedMap String) : FileTree × List String × Option RunFault :=
  match Generator.writeFiles tree directory files with
  | (written, .error fault) => (written, [], some (.write directory fault))
  | (written, .ok ()) =>
    let lines :=
      ("✓ Generated " ++ toString files.size ++ " file(s) → " ++ directory) ::
        files.keys.map ("  → " ++ ·)
    match generator.writeOutputMapping written with
    | (final, .error fault) => (final, lines, some (.writeMappings fault))
    | (final, .ok false) => (final, lines, none)
    | (final, .ok true) =>
      (final, lines ++ ["  → " ++ toString generator.headers.size ++ " header mapping(s)"], none)

/-- Generates code for the descriptors of a directory. -/
def runGenerate (tree : FileTree) (request : GenerateRequest) : Outcome :=
  let title := "Generating code from " ++ tree.canonical request.directory
  match loadAndResolve tree request.directory with
  | .error fault =>
    { exitCode := 1, output := [title], errors := ["error: " ++ fault.message], tree }
  | .ok (files, report) =>
    let shown := title :: report.outputLines
    let errors := report.count .error
    if errors ≠ 0 then
      { exitCode := 1
        output := shown
        errors := ["✗ " ++ toString errors ++ " error(s), fix them before generating code"]
        tree }
    else
      match generateFor tree request files with
      | .error fault =>
        { exitCode := 1, output := shown, errors := ["error: " ++ fault.message], tree }
      | .ok (generator, generated) =>
        match writeGenerated tree request.outputDirectory generator generated with
        | (written, lines, none) => { output := shown ++ lines, tree := written }
        | (written, lines, some fault) =>
          { exitCode := 1
            output := shown ++ lines
            errors := ["error: " ++ fault.message]
            tree := written }

/-! ## Running -/

/-- The program's version. -/
def programVersion : String := "0.1.0"

/-- Runs a command. -/
def Command.run (tree : FileTree) : Command → Outcome
  | version name => { output := [name ++ " " ++ programVersion], tree }
  | check path => runCheck tree path
  | generate request => runGenerate tree request

/-- Runs the program with some arguments. -/
def runProgram (tree : FileTree) (arguments : List String) : Outcome :=
  match Command.ofTexts arguments with
  | .ok command => command.run tree
  | .error fault => { exitCode := 2, errors := ["error: " ++ fault.message], tree }

end ProtoExtensions
