import ProtoExtensions.HeaderMap.Platform
import ProtoExtensions.Naming.ClassName
import ProtoExtensions.SortedMap

/-!
The header map: which header declares a top-level class. A class with an explicit mapping has the
header it is mapped to. Any other class has a header named after it, in a directory that follows its
package or, under the flat style, directly in the output directory; platform packages keep their
directories under every style.
-/

namespace ProtoExtensions

/-- Where generated files are placed inside the output directory: in one directory per package
segment, or flat. -/
inductive OutputStyle where
  | package
  | none
  deriving DecidableEq, Repr

/-- The dotted name of a top-level class. -/
def qualifiedName (package unit : String) : String :=
  if package = "" then unit else package ++ "." ++ unit

/-- Explicit mappings from qualified class names to headers, and the style of all other headers. -/
structure HeaderMap where
  style : OutputStyle := .package
  mappings : SortedMap String := .empty

namespace HeaderMap

/-- The map with an explicit header for a qualified class name. -/
def put (map : HeaderMap) (name header : String) : HeaderMap :=
  { map with mappings := map.mappings.insert name header }

/-- The map with several entries put in, one after the other. -/
def putAll (map : HeaderMap) (entries : List (String × String)) : HeaderMap :=
  entries.foldl (fun map entry => map.put entry.1 entry.2) map

/-- The explicit header of a qualified class name. -/
def mapped? (map : HeaderMap) (name : String) : Option String :=
  map.mappings.get? name

/-- The number of explicit mappings. -/
def size (map : HeaderMap) : Nat :=
  map.mappings.size

/-- The style that applies to a package. -/
def styleFor (map : HeaderMap) (package : String) : OutputStyle :=
  if isPlatformPackage package then .package else map.style

/-- The directory of a package's headers, with a slash at its end unless it is empty. -/
def outputDirectory (map : HeaderMap) (package : String) : String :=
  if package = "" then ""
  else match map.styleFor package with
    | .package => String.ofList (package.toList.map fun c => if c = '.' then '/' else c) ++ "/"
    | .none => ""

/-- The path of a top-level class's files, without extension. -/
def outputPath (map : HeaderMap) (package unit : String) : String :=
  map.outputDirectory package ++ unit

/-- The header that declares a top-level class. -/
def headerFor (map : HeaderMap) (package unit : String) : String :=
  (map.mapped? (qualifiedName package unit)).getD (map.outputPath package unit ++ ".h")

/-- The header that declares a message or enum type. -/
def headerForType (map : HeaderMap) (type : TypeRef) : String :=
  map.headerFor type.file.classPackage type.unitName

@[simp] theorem mapped?_put_self (map : HeaderMap) (name header : String) :
    (map.put name header).mapped? name = some header :=
  map.mappings.get?_insert_self name header

theorem mapped?_put_other {name other : String} (h : other ≠ name) (map : HeaderMap)
    (header : String) : (map.put name header).mapped? other = map.mapped? other :=
  SortedMap.get?_insert_other h map.mappings header

@[simp] theorem outputPath_put (map : HeaderMap) (name header package unit : String) :
    (map.put name header).outputPath package unit = map.outputPath package unit := rfl

theorem putAll_eq (map : HeaderMap) (entries : List (String × String)) :
    map.putAll entries = { map with mappings := map.mappings.insertAll entries } := by
  induction entries generalizing map with
  | nil => rfl
  | cons entry rest ih => exact ih (map.put entry.1 entry.2)

@[simp] theorem outputPath_putAll (map : HeaderMap) (entries : List (String × String))
    (package unit : String) :
    (map.putAll entries).outputPath package unit = map.outputPath package unit := by
  rw [putAll_eq]
  rfl

/-- The last entry for a name counts, and without one the name keeps its mapping. -/
theorem mapped?_putAll (map : HeaderMap) (entries : List (String × String)) (name : String) :
    (map.putAll entries).mapped? name = (entries.reverse.lookup name).or (map.mapped? name) := by
  rw [putAll_eq]
  exact map.mappings.get?_insertAll entries name

theorem mapped?_putAll_of_not_mem {name : String} {entries : List (String × String)}
    (h : name ∉ entries.map Prod.fst) (map : HeaderMap) :
    (map.putAll entries).mapped? name = map.mapped? name := by
  rw [putAll_eq]
  exact SortedMap.get?_insertAll_of_not_mem h map.mappings

theorem putAll_putAll_self (map : HeaderMap) (entries : List (String × String)) :
    (map.putAll entries).putAll entries = map.putAll entries := by
  rw [putAll_eq, putAll_eq, SortedMap.insertAll_insertAll_self]

theorem putAll_perm {entries entries' : List (String × String)} (h : entries.Perm entries')
    (hnames : (entries.map Prod.fst).Nodup) (map : HeaderMap) :
    map.putAll entries = map.putAll entries' := by
  rw [putAll_eq, putAll_eq, SortedMap.insertAll_perm h hnames]

end HeaderMap

end ProtoExtensions
