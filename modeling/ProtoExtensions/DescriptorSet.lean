import ProtoExtensions.Diagnostic
import ProtoExtensions.FileTree
import ProtoExtensions.Spec.Reading

/-!
Loading descriptor files. Every file under a directory whose name ends in `.pb.json` is read, in the
order of a walk through the tree. A file that cannot be read as a descriptor, or that describes a
proto file another one has described before, is reported and left out. Directories that cannot be
listed and files whose names are no texts are passed over.
-/

namespace ProtoExtensions

/-- What the names of descriptor files end with. -/
def descriptorSuffix : String := ".pb.json"

/-- Whether a text names a descriptor file. The suffix alone does not. -/
def isDescriptorText (name : String) : Bool :=
  descriptorSuffix.toList.isSuffixOf name.toList && name != descriptorSuffix

/-- Whether a name is that of a descriptor file. A name that is no text is none. -/
def isDescriptorName (name : FileName) : Bool :=
  name.text?.any isDescriptorText

/-- Whether a path leads to a descriptor file, going by its last name. -/
def isDescriptorPath (path : String) : Bool :=
  (Path.fileName? path).any isDescriptorText

/-- A fault in the text of a descriptor file. -/
def JsonFault.diagnostic (fault : JsonFault) (file : String) : Diagnostic where
  code := Diagnostic.parseError
  message := "JSON parse error: " ++ fault.message
  file := file
  path := "$.line:" ++ toString fault.line ++ ":col:" ++ toString fault.column
  suggestion := some "Check JSON syntax and field types"

/-- Reads the text of a descriptor file. -/
def FileSpec.ofText (text file : String) : Except Diagnostic FileSpec :=
  match FileSpec.read text with
  | .ok spec => .ok spec
  | .error fault => .error (fault.diagnostic file)

/-- Why descriptors cannot be loaded at all. -/
inductive LoadFault where
  | noDirectory (path : String)
  | unreadable (path : String) (fault : FileFault)
  | refused (diagnostic : Diagnostic)
  deriving DecidableEq, Repr

/-- The text that reports why descriptors cannot be loaded. -/
def LoadFault.message : LoadFault → String
  | noDirectory path => "Descriptor directory not found: " ++ path
  | unreadable path fault => "I/O error reading " ++ path ++ ": " ++ fault.message
  | refused diagnostic => "Failed to parse descriptor: " ++ diagnostic.text

namespace DescriptorFile

/-- A file that could not be read as text. -/
def unreadable (path : String) (fault : FileFault) : Diagnostic where
  code := Diagnostic.parseError
  message := "Failed to read file: " ++ fault.message
  file := path
  path := "$"

/-- A descriptor file whose proto file another one has described before. -/
def duplicate (file first : DescriptorFile) : Diagnostic where
  code := Diagnostic.duplicateFile
  message := "Proto file '" ++ file.spec.name ++ "' is also described by " ++ first.path
  file := file.path
  path := "$.name"
  suggestion := some "Remove one of the duplicate descriptor files"

/-- A descriptor file from what reading it gives. -/
def ofRead (path : String) : Except FileFault String → Except Diagnostic DescriptorFile
  | .error fault => .error (unreadable path fault)
  | .ok text => (FileSpec.ofText text path).map fun spec => ⟨path, spec⟩

end DescriptorFile

/-- Descriptor files in the order they were found, and what was found wrong on the way. -/
structure Loaded where
  files : List DescriptorFile := []
  report : Report := {}
  deriving Repr

namespace Loaded

/-- Takes in one more descriptor file, by its path and what reading it gives. -/
def add (loaded : Loaded) (path : String) (read : Except FileFault String) : Loaded :=
  match DescriptorFile.ofRead path read with
  | .error diagnostic => { loaded with report := loaded.report.push diagnostic }
  | .ok file =>
    match loaded.files.find? (·.spec.name == file.spec.name) with
    | some first => { loaded with report := loaded.report.push (file.duplicate first) }
    | none => { loaded with files := loaded.files ++ [file] }

end Loaded

namespace FileTree

/-- How reports call a file that some names lead to. A backslash in a name shows as a slash. -/
def relativePath (row : List FileName) : String :=
  String.ofList
    (("/".intercalate (row.map FileName.shown)).toList.map fun c => if c = '\\' then '/' else c)

/-- The descriptor files under the directory that a path leads to, in the order of a walk. -/
def descriptorFiles (tree : FileTree) (path : String) :
    List (String × Except FileFault String) :=
  (tree.filesUnder path).filterMap fun (row, read) =>
    if row.getLast?.any isDescriptorName then some (relativePath row, read) else none

/-- Loads all descriptor files under a directory. -/
def loadDescriptors (tree : FileTree) (path : String) : Except LoadFault Loaded :=
  if tree.isDirectory path then
    .ok ((tree.descriptorFiles path).foldl
      (fun loaded (file : String × Except FileFault String) => loaded.add file.1 file.2) {})
  else .error (.noDirectory path)

/-- Loads a single descriptor file. Reports call it by its last name. -/
def loadDescriptor (tree : FileTree) (path : String) : Except LoadFault FileSpec :=
  match tree.readText path with
  | .error fault => .error (.unreadable path fault)
  | .ok text =>
    match FileSpec.ofText text ((Path.fileName? path).getD "") with
    | .ok spec => .ok spec
    | .error diagnostic => .error (.refused diagnostic)

end FileTree

end ProtoExtensions
