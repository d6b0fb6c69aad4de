import ProtoExtensions.FileTree.Name
import ProtoExtensions.FileTree.Path
import ProtoExtensions.SortedMap

/-!
A tree of files and directories as a value, with a working directory that relative paths start from.
Reading never changes the tree; a write or the making of directories gives the tree as it is then,
with the reason where it fails. The entries of a directory are kept in the order of their names,
which is the order a walk through the tree visits them in.

The tree is a picture of a file system. It holds regular files and directories and nothing else:
there are no links, so a place has one row of names, and a walk meets nothing that is neither file
nor directory. Names are bytes; a path is a text, so it leads to names that are texts. Some files
and directories may be closed to the program (`FileTree.closed`), which then can neither read the
file nor list the directory; nothing else depends on permissions. What is written is there at once,
and nobody else changes the tree.
-/

namespace ProtoExtensions

/-- Why an operation on a path fails. -/
inductive FileFault where
  | notFound
  | alreadyExists
  | notDirectory
  | isDirectory
  | denied
  | notText
  deriving DecidableEq, Repr

/-- The text that reports a failed operation. -/
def FileFault.message : FileFault → String
  | notFound => "No such file or directory (os error 2)"
  | alreadyExists => "File exists (os error 17)"
  | notDirectory => "Not a directory (os error 20)"
  | isDirectory => "Is a directory (os error 21)"
  | denied => "Permission denied (os error 13)"
  | notText => "stream did not contain valid UTF-8"

/-- A file or a directory. -/
inductive FileNode where
  | file (content : ByteArray)
  | directory (entries : List (FileName × FileNode))

namespace FileNode

/-- The node under a row of names. -/
def find? : FileNode → List FileName → Option FileNode
  | node, [] => some node
  | directory entries, name :: rest => (entries.lookup name).bind fun node => node.find? rest
  | file _, _ :: _ => none

/-- The node with another one placed under a row of names. -/
def place : FileNode → List FileName → FileNode → FileNode
  | _, [], new => new
  | directory entries, name :: rest, new =>
    let below := (entries.lookup name).getD (directory [])
    directory (SortedMap.insertEntry name (below.place rest new) entries)
  | file content, _ :: _, _ => file content

mutual

/-- A walk through the node under a row of names. It comes by the node itself and then by all below
it, or by a fault in place of the entries of a directory that is closed. -/
def walk (closed : List FileName → Bool) (row : List FileName) :
    FileNode → List (Except FileFault (List FileName × FileNode))
  | file content => [.ok (row, file content)]
  | directory entries =>
    .ok (row, directory entries) ::
      if closed row then [.error .denied] else walkEntries closed row entries

/-- A walk through the entries of the directory under a row of names. -/
def walkEntries (closed : List FileName → Bool) (row : List FileName) :
    List (FileName × FileNode) → List (Except FileFault (List FileName × FileNode))
  | [] => []
  | (name, node) :: rest => node.walk closed (row ++ [name]) ++ walkEntries closed row rest

end

/-- The file that a step of a walk comes by, if it comes by one. -/
def visitedFile? : Except FileFault (List FileName × FileNode) → Option (List FileName × ByteArray)
  | .ok (row, file content) => some (row, content)
  | .ok (_, directory _) | .error _ => none

end FileNode

/-- A tree with a working directory and the places of what cannot be read, given by the names that
lead there from the root. -/
structure FileTree where
  root : FileNode
  workingDirectory : List FileName
  closed : List (List FileName) := []

namespace FileTree

/-- The node at a place. -/
def node? (tree : FileTree) (place : List FileName) : Option FileNode :=
  tree.root.find? place

/-- The place that a path starts from. -/
def origin (tree : FileTree) (path : String) : List FileName :=
  if Path.isAbsolute path then [] else tree.workingDirectory

/-- Follows names from a place. Every name, even an empty one, needs a directory to start from. -/
def follow (tree : FileTree) :
    List FileName → List String → Except FileFault (List FileName)
  | place, [] => .ok place
  | place, name :: rest =>
    match tree.node? place with
    | some (.directory entries) =>
      if name = "" ∨ name = "." then tree.follow place rest
      else if name = ".." then tree.follow place.dropLast rest
      else if (entries.lookup (FileName.ofText name)).isSome then
        tree.follow (place ++ [FileName.ofText name]) rest
      else .error .notFound
    | some (.file _) => .error .notDirectory
    | none => .error .notFound

/-- The place of an existing file or directory. -/
def locate (tree : FileTree) (path : String) : Except FileFault (List FileName) :=
  if path = "" then .error .notFound
  else tree.follow (tree.origin path) (Path.pieces path)

/-- The node that a path leads to. -/
def lookup (tree : FileTree) (path : String) : Except FileFault FileNode :=
  (tree.locate path).bind fun place =>
    match tree.node? place with
    | some node => .ok node
    | none => .error .notFound

/-- Whether a path leads to a directory. -/
def isDirectory (tree : FileTree) (path : String) : Bool :=
  match tree.lookup path with
  | .ok (.directory _) => true
  | _ => false

/-- Whether a path leads to a file. -/
def isFile (tree : FileTree) (path : String) : Bool :=
  match tree.lookup path with
  | .ok (.file _) => true
  | _ => false

/-- The text in some bytes. -/
def textOf (content : ByteArray) : Except FileFault String :=
  match String.fromUTF8? content with
  | some text => .ok text
  | none => .error .notText

/-- What reading a node at a place gives. -/
def readAt (tree : FileTree) (place : List FileName) (node : FileNode) : Except FileFault String :=
  if tree.closed.contains place then .error .denied
  else match node with
    | .file content => textOf content
    | .directory _ => .error .isDirectory

/-- The text of the file that a path leads to. -/
def readText (tree : FileTree) (path : String) : Except FileFault String :=
  (tree.locate path).bind fun place =>
    match tree.node? place with
    | some node => tree.readAt place node
    | none => .error .notFound

/-- The absolute path of what exists, with dots resolved; any other path as it is. -/
def canonical (tree : FileTree) (path : String) : String :=
  match tree.locate path with
  | .ok place => "/" ++ "/".intercalate (place.map FileName.shown)
  | .error _ => path

/-- Whether some names lead from a place to a directory. -/
def leadsToDirectory (tree : FileTree) (place : List FileName) (names : List String) : Bool :=
  match (tree.follow place names).toOption.bind tree.node? with
  | some (.directory _) => true
  | _ => false

/-- Makes one directory at a place. -/
def makeDirectory (tree : FileTree) (place : List FileName) (name : String) :
    Except FileFault FileTree :=
  match tree.node? place with
  | some (.directory entries) =>
    if name = ".." ∨ (entries.lookup (FileName.ofText name)).isSome then .error .alreadyExists
    else .ok { tree with
      root := tree.root.place (place ++ [FileName.ofText name]) (.directory []) }
  | some (.file _) => .error .notDirectory
  | none => .error .notFound

/-- Makes the directory that some names, the last one first, lead to, after the missing directories
around it. What has been made stays where a later step fails. -/
def makeDirectories (tree : FileTree) (origin : List FileName) :
    List String → FileTree × Except FileFault Unit
  | [] => (tree, .ok ())
  | name :: outer =>
    let make (tree : FileTree) : Except FileFault FileTree :=
      (tree.follow origin outer.reverse).bind fun place => tree.makeDirectory place name
    let settle (tree : FileTree) (fault : FileFault) : FileTree × Except FileFault Unit :=
      if tree.leadsToDirectory origin (name :: outer).reverse then (tree, .ok ())
      else (tree, .error fault)
    match make tree with
    | .ok made => (made, .ok ())
    | .error .notFound =>
      match tree.makeDirectories origin outer with
      | (around, .error fault) => (around, .error fault)
      | (around, .ok ()) =>
        match make around with
        | .ok made => (made, .ok ())
        | .error fault => settle around fault
    | .error fault => settle tree fault

/-- The tree with the directory of a path and all directories around it. -/
def createDirectories (tree : FileTree) (path : String) : FileTree × Except FileFault Unit :=
  tree.makeDirectories (tree.origin path) (Path.names path).reverse

/-- The names, last one first, that have to lead to a directory before a path that ends with a slash
is refused for naming a directory: those in front of its last name, or all where that is a dot. -/
def walkedBefore : List String → List String
  | [] => []
  | name :: outer => if name = "." ∨ name = ".." then name :: outer else outer

/-- The place that a write to a path goes to. Its directory has to exist. -/
def target (tree : FileTree) (path : String) : Except FileFault (List FileName) :=
  match (Path.pieces path).reverse with
  | [] => .error .notFound
  | name :: outer =>
    if path = "" then .error .notFound
    else if name = "" ∨ name = "." ∨ name = ".." then
      let walked := walkedBefore ((name :: outer).dropWhile (· == ""))
      (tree.follow (tree.origin path) (walked.reverse ++ ["."])).bind fun _ =>
        .error .isDirectory
    else
      (tree.follow (tree.origin path) outer.reverse).bind fun place =>
        match tree.node? place with
        | some (.directory entries) =>
          match entries.lookup (FileName.ofText name) with
          | some (.directory _) => .error .isDirectory
          | _ => .ok (place ++ [FileName.ofText name])
        | some (.file _) => .error .notDirectory
        | none => .error .notFound

/-- The tree after a file has been written. -/
def writeText (tree : FileTree) (path text : String) : Except FileFault FileTree :=
  (tree.target path).map fun place =>
    { tree with root := tree.root.place place (.file text.toUTF8) }

/-- Writes a file after making the directories around it. What has been made of these stays where a
later step fails. -/
def writeWithParents (tree : FileTree) (path text : String) : FileTree × Except FileFault Unit :=
  match (Path.parent? path).elim (tree, .ok ()) tree.createDirectories with
  | (prepared, .error fault) => (prepared, .error fault)
  | (prepared, .ok ()) =>
    match prepared.writeText path text with
    | .error fault => (prepared, .error fault)
    | .ok written => (written, .ok ())

/-- Writes files in turn, up to the first failure. What was written before it stays. -/
def writeAll (tree : FileTree) : List (String × String) → FileTree × Except FileFault Unit
  | [] => (tree, .ok ())
  | (path, text) :: rest =>
    match tree.writeWithParents path text with
    | (changed, .ok ()) => changed.writeAll rest
    | (changed, .error fault) => (changed, .error fault)

/-- The files that a walk through what a path leads to comes by, each with the names that lead to it
and what reading it gives. Faults of the walk are passed over. -/
def filesUnder (tree : FileTree) (path : String) :
    List (List FileName × Except FileFault String) :=
  match tree.locate path with
  | .ok place =>
    let visits := (tree.node? place).elim [] fun node =>
      node.walk (fun row => tree.closed.contains (place ++ row)) []
    (visits.filterMap FileNode.visitedFile?).map fun (row, content) =>
      (row, tree.readAt (place ++ row) (.file content))
  | .error _ => []

end FileTree

end ProtoExtensions
