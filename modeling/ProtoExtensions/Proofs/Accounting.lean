import ProtoExtensions.Proofs.DeclarationOrder
import ProtoExtensions.Proofs.Reports
import ProtoExtensions.Proofs.ResolvedField
import ProtoExtensions.Proofs.SymbolTable

/-!
What becomes of the extensions that files declare. Each one that is visited gives one field or one
diagnostic (`Accounts`), so none is lost and none is told of twice. The report on several files has
what the index found first, which are taken names only, and then what was found in each file, in
order; its flag, which each of these findings has been pushed through, says that there are none.
-/

namespace ProtoExtensions

/-! ## One file -/

/-- Visited declarations with the fields and the diagnostics that they give. Each declaration gives
a field in its scope or a diagnostic of its place. -/
inductive Accounts (index : TypeIndex) (path : String) (file : ProtoFile) :
    List DeclaredExtension → List ExtensionField → List Diagnostic → Prop
  | nil : Accounts index path file [] [] []
  | resolved {declared : DeclaredExtension} {rest : List DeclaredExtension}
      {field : ExtensionField} {fields : List ExtensionField} {entries : List Diagnostic}
      (hresolves : index.Resolves (declared.scope file) declared.field field)
      (hrest : Accounts index path file rest fields entries) :
      Accounts index path file (declared :: rest) (field :: fields) entries
  | refused {declared : DeclaredExtension} {rest : List DeclaredExtension} {refusal : Refusal}
      {fields : List ExtensionField} {entries : List Diagnostic}
      (hrefuses : index.resolve (declared.scope file) declared.field = .error refusal)
      (hrest : Accounts index path file rest fields entries) :
      Accounts index path file (declared :: rest) fields
        (refusal.diagnostic declared.field path declared.place.text :: entries)

namespace Accounts

variable {index : TypeIndex} {path : String} {file : ProtoFile} {visited : List DeclaredExtension}
  {fields : List ExtensionField} {entries : List Diagnostic}

theorem length_add_length (h : Accounts index path file visited fields entries) :
    fields.length + entries.length = visited.length := by
  induction h with
  | nil => rfl
  | resolved _ _ ih | refused _ _ ih =>
    simp only [List.length_cons]
    omega

theorem isError_of_mem (h : Accounts index path file visited fields entries) {d : Diagnostic}
    (hd : d ∈ entries) : d.file = path ∧ d.severity = .error := by
  induction h with
  | nil => cases hd
  | resolved _ _ ih => exact ih hd
  | refused _ _ ih =>
    rcases List.mem_cons.1 hd with rfl | hd
    · exact ⟨rfl, rfl⟩
    · exact ih hd

theorem exists_resolves_of_mem (h : Accounts index path file visited fields entries)
    {field : ExtensionField} (hfield : field ∈ fields) :
    ∃ declared ∈ visited, index.Resolves (declared.scope file) declared.field field := by
  induction h with
  | nil => cases hfield
  | resolved hresolves _ ih =>
    rcases List.mem_cons.1 hfield with rfl | hfield
    · exact ⟨_, List.mem_cons_self, hresolves⟩
    · obtain ⟨declared, hdeclared, h⟩ := ih hfield
      exact ⟨declared, List.mem_cons_of_mem _ hdeclared, h⟩
  | refused _ _ ih =>
    obtain ⟨declared, hdeclared, h⟩ := ih hfield
    exact ⟨declared, List.mem_cons_of_mem _ hdeclared, h⟩

end Accounts

/-- What resolving one file has to give: the file under its own path and identity, and one field or
one diagnostic for each of its extensions in order. -/
structure TypeIndex.AccountsFor (index : TypeIndex) (file : DescriptorFile)
    (resolved : ResolvedFile) (report : Report) : Prop where
  path_eq : resolved.path = file.path
  file_eq : resolved.file = index.fileOf file.spec
  accounts : ∃ visited, file.spec.ListsAll visited ∧
    Accounts index file.path (index.fileOf file.spec) visited resolved.extensions report.entries
  errors : ∀ d ∈ report.entries, d.file = file.path ∧ d.severity = .error
  count : resolved.extensions.length + report.entries.length = file.spec.extensionCount
  flag : report.IsConsistent

namespace TypeIndex

/-- The fields that some results have. -/
def fieldsOf (results : List (Except Diagnostic ExtensionField)) : List ExtensionField :=
  results.filterMap Except.toOption

/-- The diagnostics that some results have. -/
def findingsOf (results : List (Except Diagnostic ExtensionField)) : List Diagnostic :=
  results.filterMap fun
    | .error diagnostic => some diagnostic
    | .ok _ => none

/-- Fields and diagnostics are set apart, each in the order of the results. -/
theorem foldl_settle (results : List (Except Diagnostic ExtensionField))
    (fields : List ExtensionField) (report : Report) :
    results.foldl settle (fields, report) =
      (fields ++ fieldsOf results, report.pushAll (findingsOf results)) := by
  induction results generalizing fields report with
  | nil => simp [fieldsOf, findingsOf]
  | cons result rest ih =>
    rw [List.foldl_cons]
    cases result with
    | ok field => simp [settle, ih, fieldsOf, findingsOf, Except.toOption]
    | error diagnostic =>
      simp [settle, ih, fieldsOf, findingsOf, List.filterMap_cons, Except.toOption]

theorem resolveFile_eq (index : TypeIndex) (file : DescriptorFile) :
    index.resolveFile file =
      (⟨file.path, index.fileOf file.spec, fieldsOf (index.resolutions file)⟩,
        Report.empty.pushAll (findingsOf (index.resolutions file))) := by
  rw [resolveFile, foldl_settle]
  rfl

@[simp] theorem entries_resolveFile (index : TypeIndex) (file : DescriptorFile) :
    (index.resolveFile file).2.entries = findingsOf (index.resolutions file) := by
  simp [resolveFile_eq, Report.empty]

/-- Resolving declarations one after the other accounts for them. -/
theorem accounts_resolveDeclared (index : TypeIndex) (path : String) (file : ProtoFile)
    (visited : List DeclaredExtension) :
    Accounts index path file visited (fieldsOf (visited.map (index.resolveDeclared path file)))
      (findingsOf (visited.map (index.resolveDeclared path file))) := by
  induction visited with
  | nil => exact .nil
  | cons declared rest ih =>
    cases h : index.resolve (declared.scope file) declared.field with
    | ok field =>
      have hresult : index.resolveDeclared path file declared = .ok field := by
        simp only [resolveDeclared, h]
      simp only [List.map_cons, hresult, fieldsOf, findingsOf, List.filterMap_cons, Except.toOption]
      exact .resolved (resolve_eq_ok_iff.1 h) ih
    | error refusal =>
      have hresult : index.resolveDeclared path file declared =
          .error (refusal.diagnostic declared.field path declared.place.text) := by
        simp only [resolveDeclared, h]
      simp only [List.map_cons, hresult, fieldsOf, findingsOf, List.filterMap_cons, Except.toOption]
      exact .refused h ih

theorem accountsFor_resolveFile (index : TypeIndex) (file : DescriptorFile) :
    index.AccountsFor file (index.resolveFile file).1 (index.resolveFile file).2 := by
  have haccounts := index.accounts_resolveDeclared file.path (index.fileOf file.spec)
    file.spec.declaredExtensions
  rw [resolveFile_eq]
  refine ⟨rfl, rfl, ⟨_, file.spec.listsAll_declaredExtensions, ?_⟩, ?_, ?_,
    Report.IsConsistent.empty.pushAll _⟩
  · rw [Report.entries_pushAll]
    exact haccounts
  · intro d hd
    rw [Report.entries_pushAll] at hd
    exact haccounts.isError_of_mem hd
  · rw [Report.entries_pushAll]
    exact haccounts.length_add_length.trans file.spec.length_declaredExtensions

/-! ## Several files -/

/-- Files are resolved one by one, and their findings come in behind what is told already. -/
theorem foldl_resolveNext (index : TypeIndex) (files : List DescriptorFile)
    (resolved : List ResolvedFile) (report : Report) :
    files.foldl index.resolveNext (resolved, report) =
      (resolved ++ files.map fun file => (index.resolveFile file).1,
        report.pushAll (files.flatMap fun file => (index.resolveFile file).2.entries)) := by
  induction files generalizing resolved report with
  | nil => simp
  | cons file files ih =>
    rw [List.foldl_cons, resolveNext, ih]
    simp [Report.merge, Report.pushAll_append]

theorem isConsistent_registerAll (index : TypeIndex) (entries : List TypeEntry) :
    (index.registerAll entries).2.IsConsistent := by
  cases entries with
  | nil => exact .empty
  | cons entry entries =>
    rw [registerAll_cons]
    exact (Report.IsConsistent.empty.pushAll _).merge _

end TypeIndex

theorem resolveFiles_eq (files : List DescriptorFile) :
    resolveFiles files =
      (files.map (fun file => ((TypeIndex.ofFiles files).1.resolveFile file).1),
        (TypeIndex.ofFiles files).2.pushAll
          (files.flatMap fun file =>
            ((TypeIndex.ofFiles files).1.resolveFile file).2.entries)) := by
  have hfold : resolveFiles files =
      files.foldl (TypeIndex.ofFiles files).1.resolveNext ([], (TypeIndex.ofFiles files).2) := rfl
  rw [hfold, TypeIndex.foldl_resolveNext, List.nil_append]

theorem resolveFiles_fst (files : List DescriptorFile) :
    (resolveFiles files).1 =
      files.map fun file => ((TypeIndex.ofFiles files).1.resolveFile file).1 := by
  rw [resolveFiles_eq]

theorem isConsistent_resolveFiles (files : List DescriptorFile) :
    (resolveFiles files).2.IsConsistent := by
  rw [resolveFiles_eq]
  exact (TypeIndex.isConsistent_registerAll _ _).pushAll _

theorem exists_declares_of_mem {files : List DescriptorFile} {resolved : ResolvedFile}
    (hresolved : resolved ∈ (resolveFiles files).1) {field : ExtensionField}
    (hfield : field ∈ resolved.extensions) :
    ∃ file ∈ files, ∃ declared, file.spec.Declares declared ∧
      (TypeIndex.ofFiles files).1.Resolves
        (declared.scope ((TypeIndex.ofFiles files).1.fileOf file.spec)) declared.field field := by
  rw [resolveFiles_fst] at hresolved
  obtain ⟨file, hfile, rfl⟩ := List.mem_map.1 hresolved
  obtain ⟨visited, hlists, haccounts⟩ :=
    ((TypeIndex.ofFiles files).1.accountsFor_resolveFile file).accounts
  obtain ⟨declared, hdeclared, hresolves⟩ := haccounts.exists_resolves_of_mem hfield
  exact ⟨file, hfile, declared, (hlists.complete declared).1 hdeclared, hresolves⟩

/-- Every field of a resolved file is declared in that file, at its top level or in a message. -/
theorem exists_scope_eq_of_mem {files : List DescriptorFile} {resolved : ResolvedFile}
    (hresolved : resolved ∈ (resolveFiles files).1) {field : ExtensionField}
    (hfield : field ∈ resolved.extensions) :
    ∃ declared : DeclaredExtension, field.scope = declared.scope resolved.file := by
  rw [resolveFiles_fst] at hresolved
  obtain ⟨file, -, rfl⟩ := List.mem_map.1 hresolved
  obtain ⟨visited, -, haccounts⟩ :=
    ((TypeIndex.ofFiles files).1.accountsFor_resolveFile file).accounts
  obtain ⟨declared, -, hresolves⟩ := haccounts.exists_resolves_of_mem hfield
  exact ⟨declared, hresolves.scope_eq⟩

theorem file_eq_of_mem {files : List DescriptorFile} {resolved : ResolvedFile}
    (hresolved : resolved ∈ (resolveFiles files).1) {field : ExtensionField}
    (hfield : field ∈ resolved.extensions) : field.file = resolved.file := by
  obtain ⟨declared, hscope⟩ := exists_scope_eq_of_mem hresolved hfield
  rw [ExtensionField.file, hscope, declared.declaringFile_scope]

/-- **Every declared extension is accounted for once.** Resolution returns the files in order, each
with one field or one error for every extension that it declares. The report has the names that the
index found taken, then the errors of the files in order, and is fine unless it has an error. -/
theorem resolveFiles_accounts (files : List DescriptorFile) :
    ∃ index duplicates, TypeIndex.ofFiles files = (index, duplicates) ∧
      (∀ d ∈ duplicates.entries, d.code = Diagnostic.duplicateSymbol) ∧
      (∀ file ∈ files,
        index.AccountsFor file (index.resolveFile file).1 (index.resolveFile file).2) ∧
      (resolveFiles files).1 = files.map (fun file => (index.resolveFile file).1) ∧
      (resolveFiles files).2.entries =
        duplicates.entries ++ files.flatMap (fun file => (index.resolveFile file).2.entries) ∧
      ((resolveFiles files).2.ok = true ↔
        ∀ d ∈ (resolveFiles files).2.entries, d.severity ≠ .error) := by
  refine ⟨(TypeIndex.ofFiles files).1, (TypeIndex.ofFiles files).2, rfl, ?_, ?_,
    resolveFiles_fst files, ?_, isConsistent_resolveFiles files⟩
  · exact fun d hd => ((TypeIndex.registers_ofFiles files).code_of_mem hd).1
  · exact fun file _ => TypeIndex.accountsFor_resolveFile _ file
  · rw [resolveFiles_eq, Report.entries_pushAll]

/-- A file with an extension at its top level, one in a message, and one in a message inside that.
The second of them is required and therefore refused. The message has taken the name of an enum. -/
def nestedDeclarations : DescriptorFile :=
  ⟨"m.json", {
    name := "m.proto"
    messageTypes := [{
      name := "M"
      nestedTypes := [{
        name := "N"
        extensions := [{ name := "inner", number := 3, type := .bool, extendee := some "M" }] }]
      extensions := [{
        name := "own", number := 2, label := .required, type := .bool, extendee := some "M" }] }]
    enumTypes := [{ name := "M" }]
    extensions := [{ name := "top", number := 1, type := .bool, extendee := some "M" }] }⟩

theorem resolveFiles_accounts_nested :
    ∃ index duplicates, TypeIndex.ofFiles [nestedDeclarations] = (index, duplicates) ∧
      (∃ d ∈ duplicates.entries, d.code = Diagnostic.duplicateSymbol) ∧
      index.AccountsFor nestedDeclarations (index.resolveFile nestedDeclarations).1
        (index.resolveFile nestedDeclarations).2 ∧
      nestedDeclarations.spec.extensionCount = 3 ∧
      (resolveFiles [nestedDeclarations]).2.entries.map (·.path) =
        ["$.enumTypes[0]", "$.messageTypes[0].extensions[0]"] ∧
      (resolveFiles [nestedDeclarations]).2.ok = false := by
  obtain ⟨index, duplicates, hindex, hcode, hfiles, -⟩ :=
    resolveFiles_accounts [nestedDeclarations]
  have htaken : (TypeIndex.ofFiles [nestedDeclarations]).2.entries ≠ [] := by decide +kernel
  rw [hindex] at htaken
  obtain ⟨d, hd⟩ := List.exists_mem_of_ne_nil _ htaken
  exact ⟨index, duplicates, hindex, ⟨d, hd, hcode d hd⟩, hfiles nestedDeclarations (by simp),
    by decide +kernel, by decide +kernel, by decide +kernel⟩

end ProtoExtensions
