import ProtoExtensions.Text.Lines

/-!
Paths as texts. A path is a row of names between slashes; it is absolute when it starts with a
slash. Empty names and single dots, other than a dot in front, do not count, so slashes and `/.` at
the end of a path make no difference to its file name and its parent.
-/

namespace ProtoExtensions

namespace Path

/-- Whether a path starts from the root. -/
def isAbsolute (path : String) : Bool :=
  path.toList.head? == some '/'

/-- A path taken relative to a base. An absolute path stays as it is. -/
def join (base path : String) : String :=
  if isAbsolute path || base = "" then path
  else if base.toList.getLast? = some '/' then base ++ path
  else base ++ "/" ++ path

/-- A reversed path without the slashes and `/.` that its text ends with, the root's slash apart. -/
def trimReversed : List Char → List Char
  | ['/'] => ['/']
  | '/' :: rest => trimReversed rest
  | '.' :: '/' :: rest => trimReversed ('/' :: rest)
  | rest => rest
termination_by reversed => reversed.length

/-- The last name of a path and the path before it, both reversed; the root and the empty path have
neither. -/
def lastName? (path : String) : Option (List Char × List Char) :=
  match trimReversed path.toList.reverse with
  | [] | ['/'] => none
  | reversed => some (reversed.takeWhile (· != '/'), reversed.dropWhile (· != '/'))

/-- The path without its last name. -/
def parent? (path : String) : Option String :=
  (lastName? path).map fun (_, before) => String.ofList (trimReversed before).reverse

/-- The last name of a path, unless it is a single or a double dot. -/
def fileName? (path : String) : Option String :=
  (lastName? path).bind fun (name, _) =>
    if name = ['.'] ∨ name = ['.', '.'] then none else some (String.ofList name.reverse)

/-- The names between the slashes of a path, as they stand. -/
def pieces (path : String) : List String :=
  (split '/' path.toList).map String.ofList

/-- The names of a path that count. -/
def names (path : String) : List String :=
  (pieces path).filter fun name => name != "" && name != "."

example : parent? "a/./b" = some "a" := by decide +kernel
example : parent? "/" = none := by decide +kernel
example : fileName? "a/b/." = some "b" := by decide +kernel

end Path

end ProtoExtensions
