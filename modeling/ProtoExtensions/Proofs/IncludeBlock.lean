import ProtoExtensions.Proofs.HeaderLayout
import ProtoExtensions.Proofs.Includes

/-!
The imports of a source and the classes that a header introduces stand in one block each, and a
block depends on the set of the extensions alone (`OuterClass.blocks_of_extensionSet`). Both are
collected in the order of the list, where later names that are there already do not count, and are
sorted in the end: what an extension adds is found in the block, wherever it stands in the list and
however often. It is the headers that are sorted. In a line a quotation mark stands behind the
header, so where a header has a character below it, the lines may be in another order
(`importLines_exception`).
-/

namespace ProtoExtensions

open Printer

namespace OuterClass

variable (c : OuterClass)

/-- The headers that every source includes in front of its imports. -/
def fixedHeaders : List String :=
  ["J2ObjC_source.h", c.headerPath, runtimeHeader]

theorem join_includedHeaders : String.join (c.includedHeaders.map includeLine) =
    String.join (c.fixedHeaders.map includeLine) ++
      String.join (c.sourceImports.sorted.map includeLine) := by
  have hheaders : c.includedHeaders = c.fixedHeaders ++ c.sourceImports.sorted := rfl
  rw [hheaders, List.map_append, String.join_append]

theorem initializeStart_eq : ∃ more, c.initializeStart = "\n" ++ more := by
  have hstart : "\nJ2OBJC_INITIALIZED_DEFN(" = "\n" ++ "J2OBJC_INITIALIZED_DEFN(" :=
    eq_append_of rfl rfl rfl
  unfold initializeStart
  simp only [hstart, String.append_assoc, -String.reduceAppend]
  exact ⟨_, rfl⟩

/-- A source consists of its banner, the lines for the fixed headers, those for its imports, an
empty line, and more. -/
theorem sourceText_eq_imports : ∃ rest, c.sourceText =
    .ok (c.banner ++ "\n" ++ String.join (c.fixedHeaders.map includeLine) ++
      String.join (c.sourceImports.sorted.map includeLine) ++ "\n" ++ rest) := by
  by_cases hextensions : c.extensions = []
  · -- the empty line is the one in front of the class
    obtain ⟨more, hmore⟩ := c.initializeStart_eq
    rw [sourceText_eq_sourceLayout, sourceLayout, preamble_eq, join_includedHeaders, hmore,
      hextensions]
    refine ⟨more ++ (indented (List.replicate 4 ' ') c.initializedMark ++ registrationStart ++
      indented (List.replicate 2 ' ') c.initializeCall ++ sourceEnd), ?_⟩
    simp only [List.map_nil, String.join_nil, List.isEmpty_nil, if_true, String.append_empty,
      String.append_assoc]
  · obtain ⟨rest, hrest⟩ := c.sourceText_eq_includes hextensions
    rw [hrest, join_includedHeaders]
    exact ⟨String.join (c.extensions.map LoweredField.definitionText) ++ rest, by
      simp only [String.append_assoc]⟩

/-- The imports are the headers of value types, each unless it is the header of the extension's own
scope, without the source's own header and that of the runtime. -/
theorem mem_sourceImports_iff {header : String} : header ∈ c.sourceImports.names ↔
    header ≠ c.headerPath ∧ header ≠ runtimeHeader ∧ ∃ f ∈ c.extensions, ∃ type,
      f.field.value.typeRef? = some type ∧ c.headers.headerForType type = header ∧
      header ≠ f.scopeHeader c.headers := by
  simp only [sourceImports, NameSet.mem_erase, NameSet.mem_insertAll, NameSet.empty,
    List.not_mem_nil, false_or, List.mem_filterMap, LoweredField.sourceImport?_eq_some_iff]
  rw [and_assoc, and_comm, and_assoc]

/-- **Blocks depend on the set of extensions.** The imports of a source are strictly sorted by their
bytes, as are their lines where all characters of the headers are greater than the quotation mark
behind them. Neither the source's own header nor that of the runtime is among them, and they are the
headers of value types, each unless it is the header of the extension's own scope. With any other
list of the same extensions, in another order or with repetitions, the source has the same lines for
its imports, and the header the same lines for the classes that it introduces. -/
theorem blocks_of_extensionSet : ∃ imports classes : List String,
    imports.Pairwise BytesLt ∧
    ((∀ header ∈ imports, ∀ char ∈ header.toList, '"' < char) →
      (imports.map includeLine).Pairwise BytesLt) ∧
    c.headerPath ∉ imports ∧ runtimeHeader ∉ imports ∧
    (∀ header, header ∈ imports ↔ header ≠ c.headerPath ∧ header ≠ runtimeHeader ∧
      ∃ f ∈ c.extensions, ∃ type, f.field.value.typeRef? = some type ∧
        c.headers.headerForType type = header ∧ header ≠ f.scopeHeader c.headers) ∧
    ∀ extensions : List LoweredField, (∀ f, f ∈ extensions ↔ f ∈ c.extensions) →
      (∃ rest, { c with extensions }.sourceText = .ok (c.banner ++ "\n" ++
        String.join (c.fixedHeaders.map includeLine) ++ String.join (imports.map includeLine) ++
        "\n" ++ rest)) ∧
      ∃ rest, { c with extensions }.headerText =
        .ok (textOfLines (c.openingLines ++ classes.map classLine ++ "" :: rest)) := by
  have hsorted : c.sourceImports.sorted.Pairwise BytesLt :=
    c.sourceImports.sorted_increasing.imp bytesLt_iff.2
  have hmem (header : String) : header ∈ c.sourceImports.sorted ↔ _ :=
    NameSet.mem_sorted.trans c.mem_sourceImports_iff
  refine ⟨c.sourceImports.sorted, c.forwardClasses.sorted, hsorted, fun hchars => ?_,
    fun hown => ((hmem _).1 hown).1 rfl, fun hruntime => ((hmem _).1 hruntime).2.1 rfl, hmem,
    fun extensions hsame => ?_⟩
  · refine List.pairwise_map.2 (hsorted.imp_of_mem fun _ hb hlt => ?_)
    exact BytesLt.between hlt "#include \"" rfl (hchars _ hb)
  · have himports : { c with extensions }.sourceImports.sorted = c.sourceImports.sorted :=
      NameSet.sorted_eq_of_mem_iff fun header => by
        simp only [mem_sourceImports_iff, hsame]
        rfl
    have hclasses : { c with extensions }.forwardClasses.sorted = c.forwardClasses.sorted :=
      NameSet.sorted_eq_of_mem_iff fun name => by
        rw [mem_forwardClasses_iff, mem_forwardClasses_iff]
        exact ⟨.mono fun f => (hsame f).1, .mono fun f => (hsame f).2⟩
    have hbody : ∃ rest, { c with extensions }.bodyLines = "" :: rest := ⟨_, rfl⟩
    obtain ⟨more, hmore⟩ := { c with extensions }.sourceText_eq_imports
    obtain ⟨rest, hrest⟩ := hbody
    rw [himports] at hmore
    refine ⟨⟨more, hmore⟩, rest, ?_⟩
    rw [headerText_eq_textOfLines, headerLines, hclasses, hrest]
    rfl

end OuterClass

/-- A file with multiple files, so that each message has a header of its own. -/
def pairFile : ProtoFile where
  name := "x.proto"
  package := ""
  multipleFiles := true
  topLevelTypes := ["M", "N"]

/-- An extension of the first message with values of some message. -/
def pairField (message : String) : LoweredField where
  field := {
    name := message
    number := 100
    type := .message
    value := .message ⟨pairFile, [message]⟩
    extendee := ⟨pairFile, ["M"]⟩
    scope := .file pairFile }
  sound := rfl

/-- The outer class of that file, with some of these extensions. One message is mapped to a header
whose name is the start of the other one's and goes on with a space there. -/
def pairClass (messages : List String) : OuterClass :=
  ⟨pairFile, messages.map pairField, HeaderMap.putAll {} [("M", "M"), ("N", "M 2.h")]⟩

theorem sorted_pairClass : (pairClass ["M", "N"]).sourceImports.sorted = ["M", "M 2.h"] := by
  have hnames : (pairClass ["M", "N"]).sourceImports.names = ["M", "M 2.h"] := by
    decide +kernel
  exact NameSet.sorted_eq (by decide +kernel) fun name => by rw [hnames]

/-- With the second extension first and twice, the source has the same lines. -/
theorem blocks_of_extensionSet_repeated : ∃ rest, (pairClass ["N", "M", "N"]).sourceText =
    .ok ((pairClass ["M", "N"]).banner ++ "\n" ++
      String.join ((pairClass ["M", "N"]).fixedHeaders.map OuterClass.includeLine) ++
      String.join (["M", "M 2.h"].map OuterClass.includeLine) ++ "\n" ++ rest) := by
  obtain ⟨imports, classes, hsorted, -, -, -, hmem, hblocks⟩ :=
    (pairClass ["M", "N"]).blocks_of_extensionSet
  have himports : imports = ["M", "M 2.h"] := by
    refine NameSet.eq_of_increasing (hsorted.imp bytesLt_iff.1) (by decide +kernel) fun name => ?_
    rw [hmem, ← sorted_pairClass, NameSet.mem_sorted, OuterClass.mem_sourceImports_iff]
  have hsame : ∀ f, f ∈ (pairClass ["N", "M", "N"]).extensions ↔
      f ∈ (pairClass ["M", "N"]).extensions := by
    intro f
    simp only [pairClass, List.map_cons, List.map_nil, List.mem_cons, List.not_mem_nil, or_false]
    tauto
  obtain ⟨hsource, -⟩ := hblocks _ hsame
  rwa [himports] at hsource

/-- A line can be followed by a lesser one. -/
theorem importLines_exception : ∃ source, (pairClass ["M", "N"]).sourceText = .ok source ∧
    StandsIn "#include \"M\"\n#include \"M 2.h\"\n" source ∧
    BytesLt "#include \"M 2.h\"\n" "#include \"M\"\n" := by
  obtain ⟨rest, hrest⟩ := (pairClass ["M", "N"]).sourceText_eq_imports
  rw [sorted_pairClass] at hrest
  refine ⟨_, hrest, ?_, bytesLt_iff.2 (by decide +kernel)⟩
  have hlines : String.join (["M", "M 2.h"].map OuterClass.includeLine) =
      "#include \"M\"\n#include \"M 2.h\"\n" := by decide +kernel
  rw [hlines]
  exact ((StandsIn.refl _).append_left _).append_right _ |>.append_right _

end ProtoExtensions
