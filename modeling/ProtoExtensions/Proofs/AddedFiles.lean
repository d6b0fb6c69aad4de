import Mathlib.Data.List.TakeWhile
import ProtoExtensions.Proofs.FileOrder

/-!
Adding descriptor files behind others. The index keeps all that it held and reports what it reported
before (`TypeIndex.lookup?_append`, `TypeIndex.report_append`): what is added only counts where
nothing was found. So a declaration can change its meaning in one way alone, by a relative name that
was found in an outer scope and is now found in a scope further in (`TypeIndex.find?_append`).
-/

namespace ProtoExtensions

/-- Whether some file declares a type of a full name. -/
def DeclaresName (files : List DescriptorFile) (fullName : String) : Prop :=
  ∃ file ∈ files, ∃ declared, file.spec.DeclaresType declared ∧
    (TypeRef.mk file.spec.file declared.names).fullName = fullName

theorem mem_map_fullName_iff {files : List DescriptorFile} {fullName : String} :
    fullName ∈ (TypeIndex.declaredEntries files).map TypeEntry.fullName ↔
      DeclaresName files fullName := by
  simp only [TypeIndex.declaredEntries, List.mem_map, List.mem_flatMap]
  constructor
  · rintro ⟨_, ⟨file, hfile, declared, hdeclared, rfl⟩, rfl⟩
    exact ⟨file, hfile, declared, (file.spec.listsTypes_declaredTypes.complete _).1 hdeclared, rfl⟩
  · rintro ⟨file, hfile, declared, hdeclared, rfl⟩
    exact ⟨_, ⟨file, hfile, declared, (file.spec.listsTypes_declaredTypes.complete _).2 hdeclared,
      rfl⟩, rfl⟩

namespace TypeIndex

variable {files added : List DescriptorFile}

/-! ## What an index holds of more files -/

theorem declaredEntries_append (files added : List DescriptorFile) :
    declaredEntries (files ++ added) = declaredEntries files ++ declaredEntries added := by
  simp [declaredEntries]

/-- A type that is found stays; any other name is looked up in the added files. -/
theorem lookup?_append (files added : List DescriptorFile) (name : String) :
    (ofFiles (files ++ added)).1.lookup? name =
      ((ofFiles files).1.lookup? name).or
        ((declaredEntries added).find? (·.fullName == name)) := by
  rw [(holdsFirst_ofFiles _).first, (holdsFirst_ofFiles _).first, declaredEntries_append,
    List.find?_append]

theorem lookup?_append_of_eq_some {name : String} {entry : TypeEntry}
    (h : (ofFiles files).1.lookup? name = some entry) :
    (ofFiles (files ++ added)).1.lookup? name = some entry := by
  rw [lookup?_append, h, Option.some_or]

theorem lookup?_append_of_not_declaresName {name : String}
    (h : (ofFiles files).1.lookup? name = none) (hadded : ¬DeclaresName added name) :
    (ofFiles (files ++ added)).1.lookup? name = none := by
  rw [lookup?_append, h, Option.none_or, List.find?_eq_none]
  intro entry hentry hname
  obtain rfl : entry.fullName = name := by simpa using hname
  exact hadded (mem_map_fullName_iff.1 (List.mem_map_of_mem hentry))

theorem file?_append {name : String} (h : ∀ file ∈ added, file.spec.name ≠ name) :
    (ofFiles (files ++ added)).1.file? name = (ofFiles files).1.file? name := by
  have hnone : ((added.map (·.spec.file)).reverse).find? (·.name == name) = none := by
    rw [List.find?_eq_none]
    intro file hfile hname
    obtain ⟨described, hdescribed, rfl⟩ := List.mem_map.1 (List.mem_reverse.1 hfile)
    exact h described hdescribed (beq_iff_eq.1 hname)
  rw [file?, file?, files_ofFiles, files_ofFiles, List.map_append, List.reverse_append,
    List.find?_append, hnone, Option.none_or]

/-! ## What is reported of more files -/

/-- What is kept of some types, and what is reported of them, does not depend on the files. -/
theorem registerAll_congr {a b : TypeIndex} (h : a.types = b.types)
    (offered : List TypeEntry) :
    (a.registerAll offered).1.types = (b.registerAll offered).1.types ∧
      (a.registerAll offered).2 = (b.registerAll offered).2 := by
  induction offered generalizing a b with
  | nil => exact ⟨h, rfl⟩
  | cons entry rest ih =>
    rw [registerAll_cons, registerAll_cons]
    have hlookup : a.lookup? entry.fullName = b.lookup? entry.fullName := by
      rw [lookup?, lookup?, h]
    cases hfound : b.lookup? entry.fullName with
    | none =>
      rw [hfound] at hlookup
      have hkept : (a.storing [entry]).types = (b.storing [entry]).types := by
        rw [storing, storing, h]
      obtain ⟨htypes, hreport⟩ := ih hkept
      rw [register_of_lookup?_eq_none hlookup, register_of_lookup?_eq_none hfound]
      exact ⟨htypes, congrArg (Report.merge _) hreport⟩
    | some holder =>
      rw [hfound] at hlookup
      obtain ⟨htypes, hreport⟩ := ih h
      rw [register_of_lookup?_eq_some hlookup, register_of_lookup?_eq_some hfound]
      exact ⟨htypes, congrArg (Report.merge _) hreport⟩

theorem report_registerAll_append (index : TypeIndex) (offered further : List TypeEntry) :
    (index.registerAll (offered ++ further)).2.entries =
      (index.registerAll offered).2.entries ++
        ((index.registerAll offered).1.registerAll further).2.entries := by
  induction offered generalizing index with
  | nil => rfl
  | cons entry rest ih => simp [registerAll_cons, ih]

/-- All that was reported is reported first, in the same words. -/
theorem report_append (files added : List DescriptorFile) :
    (ofFiles files).2.entries <+: (ofFiles (files ++ added)).2.entries := by
  have hknowing : (knowing files).types = (knowing (files ++ added)).types := rfl
  rw [ofFiles_eq, ofFiles_eq, declaredEntries_append, report_registerAll_append,
    (registerAll_congr hknowing _).2]
  exact List.prefix_append _ _

/-! ## What names refer to with more files -/

/-- The names that are tried, without success, before the one that a name in a scope is found
under. -/
def triedBefore (index : TypeIndex) (name scope : String) : List String :=
  (candidateNames name scope).takeWhile fun candidate => (index.lookup? candidate).isNone

/-- A search that succeeds gives the same with more to find, as long as nothing is found before. -/
theorem findSome?_eq_of_le {α : Type} {f g : String → Option α} {candidates : List String} {a : α}
    (h : candidates.findSome? f = some a)
    (hle : ∀ candidate b, f candidate = some b → g candidate = some b)
    (hbefore : ∀ candidate ∈ candidates.takeWhile (fun c => (f c).isNone), g candidate = none) :
    candidates.findSome? g = some a := by
  induction candidates with
  | nil => cases h
  | cons candidate rest ih =>
    rw [List.findSome?_cons] at h ⊢
    cases hfound : f candidate with
    | some b =>
      rw [hfound] at h
      rw [hle candidate b hfound]
      exact h
    | none =>
      rw [hfound] at h
      rw [List.takeWhile_cons_of_pos (by simp [hfound])] at hbefore
      rw [hbefore candidate List.mem_cons_self]
      exact ih h fun other hother => hbefore other (List.mem_cons_of_mem _ hother)

/-- What a name refers to stays, unless the added files declare a type further in. -/
theorem find?_append {name scope : String} {entry : TypeEntry}
    (h : (ofFiles files).1.find? name scope = some entry)
    (hadded : ∀ candidate ∈ (ofFiles files).1.triedBefore name scope,
      ¬DeclaresName added candidate) :
    (ofFiles (files ++ added)).1.find? name scope = some entry := by
  refine findSome?_eq_of_le h (fun _ _ => lookup?_append_of_eq_some) fun candidate hcandidate => ?_
  have hnone : (ofFiles files).1.lookup? candidate = none := by
    simpa using List.mem_takeWhile_imp hcandidate
  exact lookup?_append_of_not_declaresName hnone (hadded candidate hcandidate)

theorem triedBefore_of_isAbsolute {index : TypeIndex} {name scope : String} {entry : TypeEntry}
    (habsolute : IsAbsolute name) (h : index.find? name scope = some entry) :
    index.triedBefore name scope = [] := by
  rw [find?_of_isAbsolute habsolute] at h
  rw [triedBefore, candidateNames_of_isAbsolute habsolute,
    List.takeWhile_cons_of_neg (by simp [h])]

theorem Resolves.exists_find?_extendee {index : TypeIndex} {scope : Scope} {spec : FieldSpec}
    {field : ExtensionField} (h : index.Resolves scope spec field) {name : String}
    (hname : spec.extendee = some name) :
    ∃ entry, index.find? name scope.fullName = some entry := by
  have hextendee := h.extendee
  simp only [TypeIndex.extendee, hname] at hextendee
  obtain ⟨entry, hentry, -⟩ := map_eq_ok_iff.1 hextendee
  exact ⟨entry, (expect_eq_ok_iff.1 hentry).1⟩

theorem Resolves.exists_find?_typeName {index : TypeIndex} {scope : Scope} {spec : FieldSpec}
    {field : ExtensionField} (h : index.Resolves scope spec field)
    (href : spec.type.isReference = true) {name : String} (hname : spec.typeName = some name) :
    ∃ entry, index.find? name scope.fullName = some entry := by
  rcases valueKind_eq_ok h.value with ⟨hscalar, -⟩ | ⟨other, entry, hother, -, hentry, -⟩ |
    ⟨other, entry, hother, -, hentry, -⟩
  · rw [href] at hscalar
    cases hscalar
  all_goals
    obtain rfl : other = name := Option.some.inj (hother.symm.trans hname)
    exact ⟨entry, (expect_eq_ok_iff.1 hentry).1⟩

theorem Resolves.exists_find? {index : TypeIndex} {scope : Scope} {spec : FieldSpec}
    {field : ExtensionField} (h : index.Resolves scope spec field) {name : String}
    (hname : name ∈ spec.references) : ∃ entry, index.find? name scope.fullName = some entry := by
  rw [FieldSpec.references, List.mem_append] at hname
  rcases hname with hextendee | hvalue
  · exact h.exists_find?_extendee (Option.mem_toList.1 hextendee)
  · cases href : spec.type.isReference with
    | true => exact h.exists_find?_typeName href (by simpa [href] using hvalue)
    | false => simp [href] at hvalue

end TypeIndex

open TypeIndex

/-- **Adding files is conservative.** Where the added files have proto names of their own, the index
keeps every type under its name and the report on taken names goes on where it ended. An extension
that resolves gives the same field with the added files, provided that each type name in it is a
full name or the added files declare no type under a name that is tried before the one found. -/
theorem ofFiles_append_conservative {files added : List DescriptorFile}
    (hnames : ∀ file ∈ files, ∀ other ∈ added, other.spec.name ≠ file.spec.name) :
    (∀ name entry, (ofFiles files).1.lookup? name = some entry →
        (ofFiles (files ++ added)).1.lookup? name = some entry) ∧
      (ofFiles files).2.entries <+: (ofFiles (files ++ added)).2.entries ∧
      ∀ file ∈ files, ∀ declared, file.spec.Declares declared → ∀ field,
        (ofFiles files).1.resolveDeclared file.path ((ofFiles files).1.fileOf file.spec) declared =
            .ok field →
          (∀ name ∈ declared.field.references, IsAbsolute name ∨
            ∀ candidate ∈ (ofFiles files).1.triedBefore name
                (declared.scope ((ofFiles files).1.fileOf file.spec)).fullName,
              ¬DeclaresName added candidate) →
            (ofFiles (files ++ added)).1.resolveDeclared file.path
              ((ofFiles (files ++ added)).1.fileOf file.spec) declared = .ok field := by
  refine ⟨fun name entry h => lookup?_append_of_eq_some h, report_append files added,
    fun file hfile declared _ field hfield hreferences => ?_⟩
  have hidentity : (ofFiles (files ++ added)).1.fileOf file.spec =
      (ofFiles files).1.fileOf file.spec := by
    rw [fileOf, fileOf, file?_append (hnames file hfile)]
  rw [hidentity]
  generalize (ofFiles files).1.fileOf file.spec = identity at hfield hreferences
  have hresolve : (ofFiles files).1.resolve (declared.scope identity) declared.field =
      .ok field := by
    rw [resolveDeclared] at hfield
    split at hfield
    · cases hfield
      assumption
    · cases hfield
  have hagree : ∀ name ∈ declared.field.references,
      (ofFiles (files ++ added)).1.find? name (declared.scope identity).fullName =
        (ofFiles files).1.find? name (declared.scope identity).fullName := by
    intro name hname
    obtain ⟨entry, hentry⟩ := (resolve_eq_ok_iff.1 hresolve).exists_find? hname
    rw [hentry]
    refine find?_append hentry fun candidate hcandidate => ?_
    rcases hreferences name hname with habsolute | hrelative
    · rw [triedBefore_of_isAbsolute habsolute hentry] at hcandidate
      cases hcandidate
    · exact hrelative candidate hcandidate
  rw [resolveDeclared, resolve_congr hagree, hresolve]

/-- A file whose message `.a.b.K` has an extension of `.a.b.M` inside, which it calls `M`. -/
def innerReference : DescriptorFile :=
  ⟨"one.json", {
    name := "one.proto"
    package := "a.b"
    messageTypes := [
      { name := "M" },
      { name := "K"
        extensions := [{
          name := "e", number := 100, type := .message, typeName := some ".a.b.K",
          extendee := some "M" }] }] }⟩

/-- A file that declares an `M` further out, `.a.M`, and `.a.b.M` once more. -/
def outerNamesakes : DescriptorFile :=
  ⟨"two.json", {
    name := "two.proto"
    package := "a"
    messageTypes := [{ name := "M" }, { name := "b", nestedTypes := [{ name := "M" }] }] }⟩

/-- The extension of the first file. -/
def innerExtension : DeclaredExtension where
  messages := ["K"]
  field := {
    name := "e", number := 100, type := .message, typeName := some ".a.b.K", extendee := some "M" }
  place := [.messageType 1, .extension 0]

theorem ofFiles_append_conservative_outerNamesakes :
    (∀ file ∈ [innerReference], ∀ other ∈ [outerNamesakes], other.spec.name ≠ file.spec.name) ∧
    innerReference.spec.Declares innerExtension ∧
    ((ofFiles [innerReference]).1.triedBefore "M" ".a.b.K" = [".a.b.K.M"] ∧
      ¬DeclaresName [outerNamesakes] ".a.b.K.M" ∧ DeclaresName [outerNamesakes] ".a.M") ∧
    (ofFiles ([innerReference] ++ [outerNamesakes])).2.entries.map (·.message) =
      ["Duplicate message '.a.b.M' (also defined in one.json)"] ∧
    ∃ field,
      (ofFiles [innerReference]).1.resolveDeclared "one.json"
        ((ofFiles [innerReference]).1.fileOf innerReference.spec) innerExtension = .ok field ∧
      (ofFiles ([innerReference] ++ [outerNamesakes])).1.resolveDeclared "one.json"
        ((ofFiles ([innerReference] ++ [outerNamesakes])).1.fileOf innerReference.spec)
        innerExtension = .ok field := by
  have hnames : ∀ file ∈ [innerReference], ∀ other ∈ [outerNamesakes],
      other.spec.name ≠ file.spec.name := by decide
  have hdeclares : innerReference.spec.Declares innerExtension :=
    (innerReference.spec.listsAll_declaredExtensions.complete _).1 (by decide +kernel)
  have htried : (ofFiles [innerReference]).1.triedBefore "M" ".a.b.K" = [".a.b.K.M"] := by
    decide +kernel
  have hfree : ¬DeclaresName [outerNamesakes] ".a.b.K.M" := by
    rw [← mem_map_fullName_iff]
    decide +kernel
  have houter : DeclaresName [outerNamesakes] ".a.M" := by
    rw [← mem_map_fullName_iff]
    decide +kernel
  have hscope : (innerExtension.scope
      ((ofFiles [innerReference]).1.fileOf innerReference.spec)).fullName = ".a.b.K" := by
    decide +kernel
  refine ⟨hnames, hdeclares, ⟨htried, hfree, houter⟩, by decide +kernel, ?_⟩
  have hok : ((ofFiles [innerReference]).1.resolveDeclared "one.json"
      ((ofFiles [innerReference]).1.fileOf innerReference.spec) innerExtension).isOk = true := by
    decide +kernel
  cases hfield : (ofFiles [innerReference]).1.resolveDeclared "one.json"
      ((ofFiles [innerReference]).1.fileOf innerReference.spec) innerExtension with
  | error d =>
    rw [hfield] at hok
    cases hok
  | ok field =>
    obtain ⟨-, -, hkeeps⟩ := ofFiles_append_conservative hnames
    refine ⟨field, rfl, hkeeps innerReference (by simp) innerExtension hdeclares field hfield ?_⟩
    intro name hname
    have hcases : name = "M" ∨ name = ".a.b.K" := by
      simpa [FieldSpec.references, innerExtension, FieldType.isReference] using hname
    rcases hcases with rfl | rfl
    · refine .inr fun candidate hcandidate => ?_
      rw [hscope, htried, List.mem_singleton] at hcandidate
      exact hcandidate ▸ hfree
    · exact .inl ⟨_, String.toList_ofList⟩

end ProtoExtensions
