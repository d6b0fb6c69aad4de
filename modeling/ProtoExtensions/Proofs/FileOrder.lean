import Mathlib.Data.List.Find
import ProtoExtensions.Proofs.Identities

/-!
Resolving files in another order. A declaration depends on the index only through the types that the
names in it refer to (`TypeIndex.resolve_congr`), and a file through its declarations and its
identity (`TypeIndex.Agrees.resolveFile_eq`). Where proto names and type names are distinct, the
indices of some files in two orders have the same under every name (`TypeIndex.agrees_of_perm`),
though not in the same order, and so each file resolves to the same in both.
-/

namespace ProtoExtensions

/-! ## What a declaration needs of an index -/

/-- The names in a declared field that refer to types. -/
def FieldSpec.references (field : FieldSpec) : List String :=
  field.extendee.toList ++ if field.type.isReference then field.typeName.toList else []

namespace TypeIndex

variable {a b : TypeIndex}

theorem expect_congr {name scope : String} (h : a.find? name scope = b.find? name scope)
    (kind : TypeKind) : a.expect name scope kind = b.expect name scope kind := by
  rw [expect, expect, reference, reference, h]

/-- A declaration resolves to the same, or is refused for the same reason, where its names refer to
the same types. -/
theorem resolve_congr {scope : Scope} {field : FieldSpec}
    (h : ∀ name ∈ field.references, a.find? name scope.fullName = b.find? name scope.fullName) :
    a.resolve scope field = b.resolve scope field := by
  have hextendee : a.extendee scope.fullName field = b.extendee scope.fullName field := by
    unfold extendee
    cases hname : field.extendee with
    | none => rfl
    | some name => simp only [expect_congr (h name (by simp [FieldSpec.references, hname]))]
  have hvalue : a.valueKind scope.fullName field = b.valueKind scope.fullName field := by
    unfold valueKind
    cases href : field.type.isReference with
    | false => rfl
    | true =>
      cases hname : field.typeName with
      | none => rfl
      | some name =>
        have hfind := h name (by simp [FieldSpec.references, href, hname])
        simp only [expect_congr hfind]
  rw [resolve, resolve, hextendee, hvalue]

/-! ## Indices that agree -/

/-- Two indices have the same type under every full name, and the same file under every proto
name. -/
structure Agrees (a b : TypeIndex) : Prop where
  lookup? : ∀ name, a.lookup? name = b.lookup? name
  file? : ∀ name, a.file? name = b.file? name

theorem Agrees.find?_eq (h : a.Agrees b) (name scope : String) :
    a.find? name scope = b.find? name scope := by
  rw [find?, find?, funext h.lookup?]

theorem Agrees.resolveFile_eq (h : a.Agrees b) (file : DescriptorFile) :
    a.resolveFile file = b.resolveFile file := by
  have hfile : a.fileOf file.spec = b.fileOf file.spec := by rw [fileOf, fileOf, h.file?]
  have hdeclared : a.resolveDeclared file.path = b.resolveDeclared file.path := by
    funext identity declared
    have hresolve : a.resolve (declared.scope identity) declared.field =
        b.resolve (declared.scope identity) declared.field :=
      resolve_congr fun name _ => h.find?_eq name _
    rw [resolveDeclared, resolveDeclared, hresolve]
  rw [resolveFile, resolveFile, resolutions, resolutions, hfile, hdeclared]

end TypeIndex

/-! ## Other orders -/

theorem find?_eq_of_perm_of_nodup {α : Type} (key : α → String) {items items' : List α}
    (h : items.Perm items') (hdistinct : (items.map key).Nodup) (name : String) :
    items.find? (key · == name) = items'.find? (key · == name) := by
  refine List.find?_eq_find?_of_perm h ?_
  rintro item ⟨hitem, hname⟩ other ⟨hother, hname'⟩
  have hkeys : key item = key other := by
    rw [beq_iff_eq] at hname hname'
    exact hname.trans hname'.symm
  exact List.inj_on_of_nodup_map hdistinct hitem hother hkeys

namespace TypeIndex

variable {files files' : List DescriptorFile}

theorem nodup_declaredEntries_of_perm
    (htypes : ((declaredEntries files).map TypeEntry.fullName).Nodup) (h : files.Perm files') :
    ((declaredEntries files').map TypeEntry.fullName).Nodup :=
  ((h.flatMap_right _).map _).nodup_iff.1 htypes

/-- The indices of some files in two orders agree where names are distinct: neither which type of a
name comes first nor which file of a name comes last is left to the order. -/
theorem agrees_of_perm (hnames : (files.map (·.spec.name)).Nodup)
    (htypes : ((declaredEntries files).map TypeEntry.fullName).Nodup) (h : files.Perm files') :
    (ofFiles files).1.Agrees (ofFiles files').1 where
  lookup? name := by
    rw [(holdsFirst_ofFiles files).first, (holdsFirst_ofFiles files').first]
    exact find?_eq_of_perm_of_nodup TypeEntry.fullName (h.flatMap_right _) htypes name
  file? name := by
    have hperm : (ofFiles files).1.files.Perm (ofFiles files').1.files := by
      rw [files_ofFiles, files_ofFiles]
      exact (List.reverse_perm _).trans ((h.map _).trans (List.reverse_perm _).symm)
    exact find?_eq_of_perm_of_nodup ProtoFile.name hperm (nodup_files_ofFiles hnames) name

end TypeIndex

/-- Where type names are distinct, nothing is reported but what is found in the files. -/
theorem resolveFiles_of_nodup {files : List DescriptorFile}
    (htypes : ((TypeIndex.declaredEntries files).map TypeEntry.fullName).Nodup) :
    resolveFiles files =
      (files.map fun file => ((TypeIndex.ofFiles files).1.resolveFile file).1,
        .ofEntries (files.flatMap fun file =>
          ((TypeIndex.ofFiles files).1.resolveFile file).2.entries)) := by
  have hreport := TypeIndex.report_ofFiles_eq_nil_iff.2 htypes
  refine Prod.ext (resolveFiles_fst files) ?_
  rw [(isConsistent_resolveFiles files).eq_ofEntries, resolveFiles_eq, Report.entries_pushAll,
    hreport, List.nil_append]

/-- **The order of files does not matter.** Where proto names and the full names of types are
distinct, each file has a result that does not depend on the order in which the files come: its
fields in order, and what the report says of it. -/
theorem resolveFiles_perm {files files' : List DescriptorFile}
    (hnames : (files.map (·.spec.name)).Nodup)
    (htypes : ((TypeIndex.declaredEntries files).map TypeEntry.fullName).Nodup)
    (h : files.Perm files') :
    ∃ result : DescriptorFile → ResolvedFile × Report,
      resolveFiles files = (files.map fun file => (result file).1,
        .ofEntries (files.flatMap fun file => (result file).2.entries)) ∧
      resolveFiles files' = (files'.map fun file => (result file).1,
        .ofEntries (files'.flatMap fun file => (result file).2.entries)) := by
  have hresult : (TypeIndex.ofFiles files).1.resolveFile =
      (TypeIndex.ofFiles files').1.resolveFile :=
    funext (TypeIndex.agrees_of_perm hnames htypes h).resolveFile_eq
  refine ⟨(TypeIndex.ofFiles files).1.resolveFile, resolveFiles_of_nodup htypes, ?_⟩
  rw [hresult]
  exact resolveFiles_of_nodup (TypeIndex.nodup_declaredEntries_of_perm htypes h)

theorem resolveFiles_perm_crossReferences :
    ((crossReferences.map (·.spec.name)).Nodup ∧
      ((TypeIndex.declaredEntries crossReferences).map TypeEntry.fullName).Nodup ∧
      crossReferences.Perm crossReferences.reverse) ∧
    (resolveFiles crossReferences.reverse).1 = (resolveFiles crossReferences).1.reverse ∧
    (resolveFiles crossReferences.reverse).2.entries.map (·.path) = ["$.extensions[1]"] := by
  have hnames : (crossReferences.map (·.spec.name)).Nodup := by decide +kernel
  have htypes : ((TypeIndex.declaredEntries crossReferences).map TypeEntry.fullName).Nodup := by
    decide +kernel
  have hperm : crossReferences.Perm crossReferences.reverse := (List.reverse_perm _).symm
  obtain ⟨result, hfiles, hreversed⟩ := resolveFiles_perm hnames htypes hperm
  exact ⟨⟨hnames, htypes, hperm⟩, by rw [hfiles, hreversed, List.map_reverse], by decide +kernel⟩

end ProtoExtensions
