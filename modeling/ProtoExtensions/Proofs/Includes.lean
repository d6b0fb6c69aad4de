import ProtoExtensions.Proofs.Generation
import ProtoExtensions.Proofs.Identities
import ProtoExtensions.Proofs.SourceLayout

/-!
Which headers a source includes. The include lines stand in one block behind the banner
(`OuterClass.sourceText_eq_includes`): the headers of every source, the source's own header, and the
imports of its extensions. An extension imports the header of its value type unless this is the
header of the scope that declares it. That header need not be the one of the outer class, whose
source this is: a message of a file with multiple files has a header of its own, and a class can be
mapped to any header. So a header that is needed can be missing (`omits_selfTyped`), but only where
it is the header of the extension's own scope and not the source's own (`resolveFiles_includes`).
-/

namespace ProtoExtensions

namespace OuterClass

variable (c : OuterClass)

/-! ## The include lines of a source -/

/-- The line that includes a header. -/
def includeLine (header : String) : String :=
  "#include \"" ++ header ++ "\"\n"

/-- The comment that a source starts with. -/
def banner : String :=
  "// Generated by pbobjc.  DO NOT EDIT!\n// source: " ++ c.file.name ++ "\n"

/-- The headers that the source includes, in the order of their lines. -/
def includedHeaders : List String :=
  "J2ObjC_source.h" :: c.headerPath :: runtimeHeader :: c.sourceImports.sorted

theorem preamble_eq : c.preamble =
    c.banner ++ "\n" ++ String.join (c.includedHeaders.map includeLine) ++
      (if c.extensions.isEmpty then "" else "\n") := by
  unfold preamble includedHeaders banner includeLine runtimeHeader
  simp only [List.map_cons, String.join_cons, ← String.toList_inj, String.toList_append,
    List.append_assoc, -String.reduceAppend]
  rfl

/-- A source with extensions consists of its banner, its include lines, an empty line, the
definitions of the extensions, and more. -/
theorem sourceText_eq_includes (h : c.extensions ≠ []) : ∃ rest, c.sourceText =
    .ok (c.banner ++ "\n" ++ String.join (c.includedHeaders.map includeLine) ++ "\n" ++
      String.join (c.extensions.map LoweredField.definitionText) ++ rest) := by
  have hnonempty : c.extensions.isEmpty = false := by simpa using h
  rw [sourceText_eq_sourceLayout, sourceLayout, preamble_eq, hnonempty]
  exact ⟨_, by simp only [String.append_assoc]; rfl⟩

theorem mem_includedHeaders_iff {header : String} : header ∈ c.includedHeaders ↔
    header ∈ ["J2ObjC_source.h", c.headerPath, runtimeHeader] ∨
      ∃ f ∈ c.extensions, f.sourceImport? c.headers = some header := by
  simp only [includedHeaders, sourceImports, List.mem_cons, NameSet.mem_sorted, NameSet.mem_erase,
    NameSet.mem_insertAll, NameSet.empty, List.mem_filterMap, List.not_mem_nil, false_or, or_false]
  -- an import that is one of the fixed headers is taken out of the imports
  constructor
  · rintro (h | h | h | ⟨⟨h, -⟩, -⟩)
    · exact .inl (.inl h)
    · exact .inl (.inr (.inl h))
    · exact .inl (.inr (.inr h))
    · exact .inr h
  · rintro ((h | h | h) | h)
    · exact .inl h
    · exact .inr (.inl h)
    · exact .inr (.inr (.inl h))
    · by_cases hown : header = c.headerPath
      · exact .inr (.inl hown)
      by_cases hruntime : header = runtimeHeader
      · exact .inr (.inr (.inl hruntime))
      exact .inr (.inr (.inr ⟨⟨h, hown⟩, hruntime⟩))

end OuterClass

/-! ## What extensions import -/

namespace LoweredField

/-- An extension imports the header of its value type, unless its scope has the same header. -/
theorem sourceImport?_eq_some_iff {headers : HeaderMap} {f : LoweredField} {header : String} :
    f.sourceImport? headers = some header ↔ ∃ type, f.field.value.typeRef? = some type ∧
      headers.headerForType type = header ∧ header ≠ f.scopeHeader headers := by
  unfold sourceImport?
  rw [Option.bind_eq_some_iff]
  refine exists_congr fun type => and_congr_right fun _ => ?_
  by_cases h : headers.headerForType type = f.scopeHeader headers
  · simp only [h, if_true, reduceCtorEq, false_iff, not_and, not_not]
    exact fun h => h.symm
  · simp only [h, if_false, Option.some.injEq]
    exact ⟨fun heq => ⟨heq, heq ▸ h⟩, fun heq => heq.1⟩

end LoweredField

/-- Where the outer class is the unit of a scope, the scope has the header of the outer class,
unless the class is mapped to another one. -/
theorem OuterClass.scopeHeader_eq_headerPath {c : OuterClass} {f : LoweredField}
    (hfile : f.field.file = c.file)
    (hunit : f.field.scope = .file c.file ∨ c.file.multipleFiles = false)
    (hmapped : c.headers.mapped? c.qualifiedName = none) :
    f.scopeHeader c.headers = c.headerPath := by
  have hname : f.field.scope.unitName = c.file.outerClass := by
    rcases hunit with hscope | hsingle
    · rw [hscope, Scope.unitName]
    · unfold ExtensionField.file at hfile
      cases hscope : f.field.scope with
      | file file =>
        rw [hscope] at hfile
        exact congrArg ProtoFile.outerClass hfile
      | message type =>
        rw [hscope] at hfile
        have htype : type.file = c.file := hfile
        simp [Scope.unitName, TypeRef.unitName, htype, hsingle]
  rw [LoweredField.scopeHeader, hfile, hname, HeaderMap.headerFor]
  unfold qualifiedName at hmapped
  rw [hmapped]
  rfl

/-- **Headers of value types are included, their own scope's apart.** Every resolved file with
extensions has a source whose include lines stand between its banner and its definitions. Among them
is the header of an extension's value type, except where that is the header of the extension's own
scope: the extension does not import this one, and it is included exactly if it is the source's own
header, a header of every source, or imported by another extension. It is the source's own, and so
included, where the outer class declares the scope and is not mapped to a header. -/
theorem resolveFiles_includes (headers : HeaderMap) {files : List DescriptorFile}
    {resolved : ResolvedFile} (hresolved : resolved ∈ (resolveFiles files).1) :
    ∃ c, OuterClass.ofFile resolved.file resolved.extensions headers = .ok c ∧
      c.extensions.map LoweredField.field = resolved.extensions ∧
      ∀ f ∈ c.extensions, ∀ type, f.field.value.typeRef? = some type →
        (∃ rest, c.sourceText = .ok (c.banner ++ "\n" ++
          String.join (c.includedHeaders.map OuterClass.includeLine) ++ "\n" ++
          String.join (c.extensions.map LoweredField.definitionText) ++ rest)) ∧
        (headers.headerForType type ∈ c.includedHeaders ↔
          headers.headerForType type ≠ f.scopeHeader headers ∨
          headers.headerForType type ∈ ["J2ObjC_source.h", c.headerPath, runtimeHeader] ∨
          ∃ other ∈ c.extensions,
            other.sourceImport? headers = some (headers.headerForType type)) ∧
        (f.field.scope = .file resolved.file ∨ resolved.file.multipleFiles = false →
          headers.mapped? c.qualifiedName = none →
          headers.headerForType type ∈ c.includedHeaders) := by
  obtain ⟨c, hc, hfile, rfl, hfields⟩ :=
    (sound_of_mem_resolveFiles hresolved).exists_outerClass headers
  refine ⟨c, hc, hfields, fun f hf type htype => ?_⟩
  have hincluded : c.headers.headerForType type ∈ c.includedHeaders ↔
      c.headers.headerForType type ≠ f.scopeHeader c.headers ∨
      c.headers.headerForType type ∈ ["J2ObjC_source.h", c.headerPath, runtimeHeader] ∨
      ∃ other ∈ c.extensions,
        other.sourceImport? c.headers = some (c.headers.headerForType type) := by
    rw [c.mem_includedHeaders_iff]
    refine ⟨.inr, fun h => h.elim (fun hother => .inr ?_) id⟩
    exact ⟨f, hf, LoweredField.sourceImport?_eq_some_iff.2 ⟨type, htype, rfl, hother⟩⟩
  refine ⟨c.sourceText_eq_includes (List.ne_nil_of_mem hf), hincluded, fun hscope hmapped => ?_⟩
  have hdeclared : f.field.file = c.file := by
    rw [hfile]
    exact file_eq_of_mem hresolved (hfields ▸ List.mem_map_of_mem hf)
  have hown : f.scopeHeader c.headers = c.headerPath :=
    OuterClass.scopeHeader_eq_headerPath hdeclared (by rwa [hfile]) hmapped
  rw [hincluded]
  by_cases h : c.headers.headerForType type = f.scopeHeader c.headers
  · exact .inr (.inl (by simp [h, hown]))
  · exact .inl h

/-- The extension with values of the message `.a.M.N` has the header of that message included. -/
theorem resolveFiles_includes_crossReferences :
    ∃ resolved ∈ (resolveFiles crossReferences).1, resolved.path = "two.json" ∧
      ∃ c, OuterClass.ofFile resolved.file resolved.extensions {} = .ok c ∧
        HeaderMap.headerForType {} innerMessage = "a/One.h" ∧ "a/One.h" ∈ c.includedHeaders := by
  have houter : ∃ resolved ∈ (resolveFiles crossReferences).1, resolved.path = "two.json" ∧
      ∃ field ∈ resolved.extensions, field.value.typeRef? = some innerMessage ∧
        field.scope = .file resolved.file := by decide +kernel
  obtain ⟨resolved, hresolved, hpath, field, hfield, htype, hscope⟩ := houter
  obtain ⟨c, hc, hfields, hincludes⟩ := resolveFiles_includes {} hresolved
  rw [← hfields] at hfield
  obtain ⟨f, hf, rfl⟩ := List.mem_map.1 hfield
  obtain ⟨-, -, hincluded⟩ := hincludes f hf innerMessage htype
  have hheader : HeaderMap.headerForType {} innerMessage = "a/One.h" := by decide +kernel
  exact ⟨resolved, hresolved, hpath, c, hc, hheader, hheader ▸ hincluded (.inl hscope) rfl⟩

/-- A file with multiple files, whose message declares an extension of itself with values of its own
type. -/
def selfTyped : List DescriptorFile :=
  [⟨"x.json", {
      name := "x.proto"
      options := { multipleFiles := true }
      messageTypes := [{
        name := "M"
        extensions := [{
          name := "own", number := 100, type := .message, typeName := some "M",
          extendee := some "M" }] }] }⟩]

/-- What that file is. -/
def selfTypedFile : ProtoFile where
  name := "x.proto"
  package := ""
  multipleFiles := true
  topLevelTypes := ["M"]

/-- The extension that it declares. -/
def selfTypedField : LoweredField where
  field := {
    name := "own"
    number := 100
    type := .message
    value := .message ⟨selfTypedFile, ["M"]⟩
    extendee := ⟨selfTypedFile, ["M"]⟩
    scope := .message ⟨selfTypedFile, ["M"]⟩ }
  sound := by decide

/-- Its outer class. -/
def selfTypedClass : OuterClass :=
  ⟨selfTypedFile, [selfTypedField], {}⟩

/-- A header that is needed can be missing: the message has a header of its own, which no include
line of the file's source names. -/
theorem omits_selfTyped :
    (resolveFiles selfTyped).2.ok = true ∧
    (resolveFiles selfTyped).1 = [⟨"x.json", selfTypedFile, [selfTypedField.field]⟩] ∧
    OuterClass.ofFile selfTypedFile [selfTypedField.field] {} = .ok selfTypedClass ∧
    selfTypedField.field.value.typeRef? = some ⟨selfTypedFile, ["M"]⟩ ∧
    HeaderMap.headerForType {} ⟨selfTypedFile, ["M"]⟩ = "M.h" ∧
    ∃ source, selfTypedClass.sourceText = .ok source ∧
      "#include \"M.h\"".toList ∉ lines source.toList := by
  refine ⟨by decide +kernel, by decide +kernel, rfl, rfl, by decide +kernel,
    selfTypedClass.sourceLayout, selfTypedClass.sourceText_eq_sourceLayout, ?_⟩
  unfold OuterClass.sourceLayout OuterClass.preamble OuterClass.initializeStart
    OuterClass.initializedMark OuterClass.registrationStart OuterClass.initializeCall
    OuterClass.sourceEnd LoweredField.definitionText LoweredField.recordText
    LoweredField.recordOpening LoweredField.recordEntries LoweredField.fieldEntries
    LoweredField.classEntries LoweredField.initializerText LoweredField.registrationText
    FieldType.tag typeTagStem registrationMethod runtimeHeader indented
  -- lists of characters are compared faster than strings
  simp only [selfTypedClass, List.map_cons, List.map_nil, String.join_cons, String.join_nil,
    String.toList_append, -String.reduceAppend]
  repeat rw [String.toList_ofList]
  decide +kernel

end ProtoExtensions
