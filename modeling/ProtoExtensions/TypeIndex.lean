import ProtoExtensions.Diagnostic
import ProtoExtensions.Spec.Declared

/-!
The index of all message and enum types of a set of descriptor files by full name. The first
declaration of a name stays; each further one is reported. The index also knows the identity of each
described file by its proto name, where the last description counts.
-/

namespace ProtoExtensions

/-- An indexed type, with the descriptor file and the place of its declaration. -/
structure TypeEntry where
  kind : TypeKind
  type : TypeRef
  values : List EnumValue := []
  declaredIn : String
  path : String
  deriving DecidableEq, Repr

namespace TypeEntry

/-- The full name of an indexed type. -/
def fullName (entry : TypeEntry) : String :=
  entry.type.fullName

/-- An entry as an enum type. -/
def enumRef? (entry : TypeEntry) : Option EnumRef :=
  match entry.kind with
  | .enum => some ⟨entry.type, entry.values⟩
  | .message => none

/-- The entry of a type that a descriptor file declares. -/
def ofDeclared (path : String) (file : ProtoFile) (declared : DeclaredType) : TypeEntry where
  kind := declared.kind
  type := ⟨file, declared.names⟩
  values := declared.values
  declaredIn := path
  path := declared.place.text

/-- Says that the full name of an entry is taken by another one. -/
def duplicate (entry existing : TypeEntry) : Diagnostic where
  code := Diagnostic.duplicateSymbol
  message := "Duplicate " ++ entry.kind.name ++ " '" ++ entry.fullName ++ "' (also defined in " ++
    existing.declaredIn ++ ")"
  file := entry.declaredIn
  path := entry.path
  suggestion := some ("Rename one of the '" ++ entry.type.simpleName ++
    "' definitions to avoid conflict")

end TypeEntry

/-- Types under their names in the order they were registered, and files with the latest one
first. -/
structure TypeIndex where
  types : List (String × TypeEntry) := []
  files : List ProtoFile := []
  deriving DecidableEq, Repr

namespace TypeIndex

/-- The index without types and files. -/
def empty : TypeIndex := {}

/-- The types in the order they were registered. -/
def entries (index : TypeIndex) : List TypeEntry :=
  index.types.map Prod.snd

/-- The entry under a full name. -/
def lookup? (index : TypeIndex) (fullName : String) : Option TypeEntry :=
  index.types.lookup fullName

/-- The file of a proto name. -/
def file? (index : TypeIndex) (name : String) : Option ProtoFile :=
  index.files.find? (·.name == name)

/-- The number of types. -/
def size (index : TypeIndex) : Nat :=
  index.types.length

/-- Adds an entry under its full name, unless the name is taken; that is reported then. -/
def register (index : TypeIndex) (entry : TypeEntry) : TypeIndex × Option Diagnostic :=
  match index.lookup? entry.fullName with
  | some existing => (index, some (entry.duplicate existing))
  | none => ({ index with types := index.types ++ [(entry.fullName, entry)] }, none)

/-- Adds one more entry to an index with a report of those whose names are taken. -/
def registerNext (state : TypeIndex × Report) (entry : TypeEntry) : TypeIndex × Report :=
  match state.1.register entry with
  | (index, none) => (index, state.2)
  | (index, some problem) => (index, state.2.push problem)

/-- Adds entries in order, with a report of those whose names are taken. -/
def registerAll (index : TypeIndex) (entries : List TypeEntry) : TypeIndex × Report :=
  entries.foldl registerNext (index, .empty)

/-- Adds a file without its types. -/
def addFile (index : TypeIndex) (file : ProtoFile) : TypeIndex :=
  { index with files := file :: index.files }

/-- The entries of all types that some descriptor files declare. -/
def declaredEntries (files : List DescriptorFile) : List TypeEntry :=
  files.flatMap fun file =>
    file.spec.declaredTypes.map (TypeEntry.ofDeclared file.path file.spec.file)

/-- The index of some descriptor files, with a report of the types whose names are taken. -/
def ofFiles (files : List DescriptorFile) : TypeIndex × Report :=
  (files.foldl (fun index file => index.addFile file.spec.file) empty).registerAll
    (declaredEntries files)

theorem register_of_lookup?_eq_none {index : TypeIndex} {entry : TypeEntry}
    (h : index.lookup? entry.fullName = none) :
    index.register entry =
      ({ index with types := index.types ++ [(entry.fullName, entry)] }, none) := by
  simp [register, h]

theorem register_of_lookup?_eq_some {index : TypeIndex} {entry existing : TypeEntry}
    (h : index.lookup? entry.fullName = some existing) :
    index.register entry = (index, some (entry.duplicate existing)) := by
  simp [register, h]

theorem registerNext_eq (index : TypeIndex) (report : Report) (entry : TypeEntry) :
    registerNext (index, report) entry =
      ((index.register entry).1, report.pushAll (index.register entry).2.toList) := by
  unfold registerNext
  cases index.register entry with
  | mk next problem => cases problem <;> rfl

/-- What has been reported before stands in front of what the entries give. -/
theorem foldl_registerNext (entries : List TypeEntry) (index : TypeIndex) (report : Report) :
    entries.foldl registerNext (index, report) =
      ((index.registerAll entries).1, report.merge (index.registerAll entries).2) := by
  induction entries generalizing index report with
  | nil => rfl
  | cons entry entries ih =>
    rw [registerAll, List.foldl_cons, List.foldl_cons, registerNext_eq, registerNext_eq, ih, ih]
    simp [Report.merge, Report.empty, Report.pushAll_append]

@[simp] theorem registerAll_nil (index : TypeIndex) : index.registerAll [] = (index, .empty) := rfl

theorem registerAll_cons (index : TypeIndex) (entry : TypeEntry) (entries : List TypeEntry) :
    index.registerAll (entry :: entries) =
      (((index.register entry).1.registerAll entries).1,
        (Report.empty.pushAll (index.register entry).2.toList).merge
          ((index.register entry).1.registerAll entries).2) := by
  rw [registerAll, List.foldl_cons, registerNext_eq, foldl_registerNext]

end TypeIndex

end ProtoExtensions
