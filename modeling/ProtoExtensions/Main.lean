import ProtoExtensions.CommandLine

/-!
The program as it runs. It takes a picture of the part of the disk that a command looks at, runs the
command on the picture, and then saves on the disk what the outcome's tree has that the picture had
not. What the command does is decided in the pure part; here it meets the disk and the terminal.
-/

namespace ProtoExtensions

namespace Disk

/-- The absolute path of a place. -/
def pathOf (place : List FileName) : String :=
  "/" ++ "/".intercalate (place.map FileName.shown)

/-- What stands for the content of a file that is listed and not read. No text has these bytes, so a
file that has been written always differs from it. -/
def unread : ByteArray :=
  ⟨#[0xFF]⟩

/-- The directory at a place with all that is below it, and the places of what is closed there.
Links are left out, and of the files only descriptors are read. -/
partial def directoryAt (place : List FileName) : StateT (List (List FileName)) IO FileNode := do
  match ← (IO.FS.realPath (pathOf place)).toBaseIO with
  | .error _ => close
  | .ok path =>
    match ← path.readDir.toBaseIO with
    | .error _ => close
    | .ok found =>
      let mut entries := []
      for entry in found do
        let name : FileName := entry.fileName
        match (← entry.path.symlinkMetadata).type with
        | .dir => entries := (name, ← directoryAt (place ++ [name])) :: entries
        | .file =>
          if isDescriptorName name then
            match ← (IO.FS.readBinFile entry.path).toBaseIO with
            | .ok content => entries := (name, .file content) :: entries
            | .error _ =>
              modify ((place ++ [name]) :: ·)
              entries := (name, .file unread) :: entries
          else entries := (name, .file unread) :: entries
        | _ => pure ()
      return .directory (entries.mergeSort fun a b => decide ¬b.1 < a.1)
where
  /-- A directory that cannot be listed. -/
  close : StateT (List (List FileName)) IO FileNode := do
    modify (place :: ·)
    return .directory []

/-- What is at a path: a file with its content, or a directory without its entries. -/
def nodeAt? (path : String) : IO (Option FileNode) := do
  match ← (IO.FS.realPath path).toBaseIO with
  | .error _ => return none
  | .ok found =>
    if ← found.isDir then return some (.directory [])
    else return some (.file (← IO.FS.readBinFile path))

/-- Takes in what stands along some names, up to the first one that leads nowhere. -/
def takeAlong (tree : FileTree) (place : List FileName) : List String → IO FileTree
  | [] => return tree
  | name :: rest => do
    if name = "" ∨ name = "." then takeAlong tree place rest
    else if name = ".." then takeAlong tree place.dropLast rest
    else
      let next := place ++ [FileName.ofText name]
      match ← nodeAt? (pathOf next), tree.node? next with
      | none, _ => return tree
      | some (.directory _), some (.directory _) => takeAlong tree next rest
      | some node, _ => takeAlong { tree with root := tree.root.place next node } next rest

/-- Takes in what a path leads to, a directory without its entries. -/
def takePath (tree : FileTree) (path : String) : IO FileTree :=
  takeAlong tree (tree.origin path) (Path.pieces path)

/-- Takes in what a path leads to, a directory with all that is below it. -/
def takeAll (tree : FileTree) (path : String) : IO FileTree := do
  let tree ← takePath tree path
  match tree.locate path with
  | .error _ => return tree
  | .ok place =>
    if tree.isDirectory path then
      let (node, closed) ← (directoryAt place).run []
      return { tree with root := tree.root.place place node, closed := closed ++ tree.closed }
    else return tree

/-- The picture that holds nothing but the way to the working directory. -/
def workingDirectory : IO FileTree := do
  let place := Path.names (← IO.FS.realPath ".").toString
  takeAlong { root := .directory [], workingDirectory := place.map FileName.ofText } [] place

/-- The picture that a command needs. Only the options tell which other files they name, so they are
read from the picture while it is taken. -/
def pictureFor : Command → IO FileTree
  | .version _ => workingDirectory
  | .check path => do takeAll (← workingDirectory) path
  | .generate request => do
    let tree ← takeAll (← workingDirectory) request.outputDirectory
    let tree ← takeAll tree request.directory
    let optionsFile := request.config.getD (Path.join request.directory Options.fileName)
    let tree ← takePath (← takePath tree optionsFile) Options.defaultMappingFile
    match request.options tree with
    | .error _ => return tree
    | .ok options =>
      (options.mappingFiles tree ++ options.outputMapping.toList).foldlM takePath tree

/-- Saves at a path what a node has that the old one had not. -/
partial def save (path : String) : Option FileNode → FileNode → IO Unit
  | some (.file old), .file new => unless old == new do IO.FS.writeBinFile path new
  | _, .file new => IO.FS.writeBinFile path new
  | old, .directory entries => do
    if old.isNone then IO.FS.createDirAll path
    for (name, node) in entries do
      save (Path.join path name.shown) (old.bind (·.find? [name])) node

end Disk

/-- Runs the program on the disk and tells about it. -/
def runOnDisk (arguments : List String) : IO UInt32 := do
  let before ←
    match Command.ofTexts arguments with
    | .ok command => Disk.pictureFor command
    | .error _ => Disk.workingDirectory
  let outcome := runProgram before arguments
  Disk.save "/" (some before.root) outcome.tree.root
  IO.print outcome.outputText
  IO.eprint outcome.errorText
  return outcome.exitCode.toUInt32

end ProtoExtensions

/-- Runs the program. A fault of the disk itself ends it with a report. -/
def main (arguments : List String) : IO UInt32 := do
  try ProtoExtensions.runOnDisk arguments
  catch fault =>
    IO.eprintln ("error: " ++ toString fault)
    return 1
