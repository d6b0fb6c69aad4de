import Mathlib.Data.List.Dedup
import ProtoExtensions.Proofs.Accounting
import ProtoExtensions.Proofs.HeaderLayout
import ProtoExtensions.Proofs.Violations

/-!
Generating code for resolved files. All extensions of a resolved file can be lowered, so each file
with extensions has an outer class (`outerClasses_eq`), and the output is what the classes put into
an empty set of files, one after the other (`generate_eq`). So generation succeeds on whatever
resolution returns.
-/

namespace ProtoExtensions

namespace ResolvedFile

/-- Whether code is generated for a file. -/
def isGenerated (file : ResolvedFile) : Bool :=
  !file.extensions.isEmpty

/-- The path of the files that are generated for a file, without extension. -/
def outputPath (headers : HeaderMap) (file : ResolvedFile) : String :=
  headers.outputPath file.file.classPackage file.file.outerClass

/-- All extensions of the file can be lowered. -/
def Sound (file : ResolvedFile) : Prop :=
  ∀ field ∈ file.extensions, field.violation? = none

/-- The outer class of a file, where its extensions can be lowered. -/
def outerClass? (headers : HeaderMap) (file : ResolvedFile) : Option OuterClass :=
  (OuterClass.ofFile file.file file.extensions headers).toOption

end ResolvedFile

/-! ## Outer classes of resolved files -/

theorem exists_resolves_of_mem {files : List DescriptorFile} {file : ResolvedFile}
    (hfile : file ∈ (resolveFiles files).1) {field : ExtensionField}
    (hfield : field ∈ file.extensions) :
    ∃ scope spec, (TypeIndex.ofFiles files).1.Resolves scope spec field := by
  obtain ⟨described, -, declared, -, hresolves⟩ := exists_declares_of_mem hfile hfield
  exact ⟨_, _, hresolves⟩

theorem sound_of_mem_resolveFiles {files : List DescriptorFile} {file : ResolvedFile}
    (h : file ∈ (resolveFiles files).1) : file.Sound := by
  intro field hfield
  obtain ⟨scope, spec, hresolves⟩ := exists_resolves_of_mem h hfield
  exact hresolves.violation?_eq_none

theorem lowerAll_ok : ∀ {fields : List ExtensionField}, (∀ f ∈ fields, f.violation? = none) →
    ∃ lowered, lowerAll fields = .ok lowered
  | [], _ => ⟨[], rfl⟩
  | field :: fields, h => by
    obtain ⟨first, hfirst⟩ := LoweredField.ofField_eq_ok_iff.2 (h field (by simp))
    obtain ⟨rest, hrest⟩ := lowerAll_ok fun f hf => h f (List.mem_cons_of_mem field hf)
    refine ⟨first :: rest, bind_eq_ok_iff.2 ⟨first, ?_, bind_eq_ok_iff.2 ⟨rest, hrest, rfl⟩⟩⟩
    simp only [ExtensionField.lower, hfirst]

/-- A file whose extensions can be lowered has an outer class, which keeps the file's identity. -/
theorem ResolvedFile.Sound.ofFile_ok {file : ResolvedFile} (h : file.Sound) (headers : HeaderMap) :
    ∃ c, OuterClass.ofFile file.file file.extensions headers = .ok c ∧
      c.outputPath = file.outputPath headers := by
  obtain ⟨lowered, hlowered⟩ := lowerAll_ok h
  exact ⟨⟨file.file, lowered, headers⟩, map_eq_ok_iff.2 ⟨lowered, hlowered, rfl⟩, rfl⟩

theorem map_field_of_lowerAll : ∀ {fields : List ExtensionField} {lowered : List LoweredField},
    lowerAll fields = .ok lowered → lowered.map LoweredField.field = fields
  | [], lowered, h => by
    cases h
    rfl
  | field :: fields, lowered, h => by
    obtain ⟨first, hfirst, h⟩ := bind_eq_ok_iff.1 h
    obtain ⟨rest, hrest, h⟩ := bind_eq_ok_iff.1 h
    cases h
    have hfield : LoweredField.ofField field = .ok first := by
      unfold ExtensionField.lower at hfirst
      split at hfirst <;> cases hfirst
      assumption
    rw [List.map_cons, LoweredField.ofField_eq_ok hfield, map_field_of_lowerAll hrest]

theorem ResolvedFile.Sound.exists_outerClass {file : ResolvedFile} (h : file.Sound)
    (headers : HeaderMap) :
    ∃ c, OuterClass.ofFile file.file file.extensions headers = .ok c ∧ c.file = file.file ∧
      c.headers = headers ∧ c.extensions.map LoweredField.field = file.extensions := by
  obtain ⟨lowered, hlowered⟩ := lowerAll_ok h
  exact ⟨⟨file.file, lowered, headers⟩, map_eq_ok_iff.2 ⟨lowered, hlowered, rfl⟩, rfl, rfl,
    map_field_of_lowerAll hlowered⟩

theorem outerClasses_eq (headers : HeaderMap) :
    ∀ {files : List ResolvedFile}, (∀ file ∈ files, file.Sound) →
      Generator.outerClasses headers files =
        .ok ((files.filter ResolvedFile.isGenerated).filterMap (ResolvedFile.outerClass? headers))
  | [], _ => rfl
  | file :: files, h => by
    have ih := outerClasses_eq headers fun f hf => h f (List.mem_cons_of_mem file hf)
    unfold Generator.outerClasses
    cases he : file.extensions.isEmpty with
    | true => simp [he, ih, ResolvedFile.isGenerated]
    | false =>
      obtain ⟨c, hc, -⟩ := (h file (by simp)).ofFile_ok headers
      simp only [Bool.false_eq_true, if_false, hc, ih, ResolvedFile.isGenerated, he, Bool.not_false,
        List.filter_cons_of_pos, List.filterMap_cons, ResolvedFile.outerClass?]
      rfl

/-! ## The files of outer classes -/

namespace OuterClass

/-- The text of the class's header. -/
def header (c : OuterClass) : String :=
  match c.headerText with
  | .ok text => text
  | .error _ => ""

/-- The text of the class's source. -/
def source (c : OuterClass) : String :=
  match c.sourceText with
  | .ok text => text
  | .error _ => ""

theorem headerText_eq (c : OuterClass) : c.headerText = .ok c.header := by
  have hheader : header = fun c => match c.headerText with
      | .ok text => text
      | .error _ => "" := by
    delta header
    rfl
  simp only [hheader, headerText_eq_textOfLines]

theorem sourceText_eq (c : OuterClass) : c.sourceText = .ok c.source := by
  have hsource : source = fun c => match c.sourceText with
      | .ok text => text
      | .error _ => "" := by
    delta source
    rfl
  simp only [hsource, sourceText_eq_sourceLayout]

/-- The files of the class, header first. -/
def outputs (c : OuterClass) : List (String × String) :=
  [(c.headerPath, c.header), (c.sourcePath, c.source)]

theorem insertAll_outputs (c : OuterClass) (files : SortedMap String) :
    files.insertAll c.outputs =
      (files.insert c.headerPath c.header).insert c.sourcePath c.source := by
  rw [outputs, SortedMap.insertAll, List.foldl_cons, List.foldl_cons, List.foldl_nil]

end OuterClass

theorem emit_eq (files : SortedMap String) (classes : List OuterClass) :
    Generator.emit files classes = .ok (files.insertAll (classes.flatMap OuterClass.outputs)) := by
  induction classes generalizing files with
  | nil => rfl
  | cons c classes ih =>
    have hadd : c.addTo files =
        .ok ((files.insert c.headerPath c.header).insert c.sourcePath c.source) := by
      rw [OuterClass.addTo, c.headerText_eq, c.sourceText_eq]
      generalize c.header = header
      generalize c.source = source
      rfl
    rw [List.flatMap_cons, SortedMap.insertAll_append, c.insertAll_outputs, Generator.emit, hadd]
    exact ih _

/-- **What generation gives**: the files of the outer classes, put into an empty set in order. -/
theorem generate_eq (generator : Generator) {files : List ResolvedFile}
    (h : ∀ file ∈ files, file.Sound) :
    ∃ after, generator.generate files = .ok (after, SortedMap.empty.insertAll
      (((files.filter ResolvedFile.isGenerated).filterMap
        (ResolvedFile.outerClass? generator.headers)).flatMap OuterClass.outputs)) :=
  ⟨_, bind_eq_ok_iff.2 ⟨_, outerClasses_eq generator.headers h,
    bind_eq_ok_iff.2 ⟨_, emit_eq _ _, rfl⟩⟩⟩

/-- **Resolved files can be generated.** Whatever the descriptor files say, every field that
resolution returns breaks no rule of lowering, has a value class and an initial default that can be
told, and code is generated for all resolved files to the end. -/
theorem generate_resolveFiles (generator : Generator) (files : List DescriptorFile) :
    (∀ file ∈ (resolveFiles files).1, ∀ field ∈ file.extensions,
      field.violation? = none ∧ (∃ member, field.defaultMember = .ok member) ∧
        ∃ name, field.valueClass = .ok name) ∧
    ∃ after output, generator.generate (resolveFiles files).1 = .ok (after, output) := by
  constructor
  · intro file hfile field hfield
    obtain ⟨scope, spec, hresolves⟩ := exists_resolves_of_mem hfile hfield
    refine ⟨hresolves.violation?_eq_none, hresolves.defaultMember_ok, ?_⟩
    have hclass := field.valueClass?_isSome_of_kindFits hresolves.kindFits
    obtain ⟨name, hname⟩ := Option.isSome_iff_exists.1 hclass
    exact ⟨name, by simp only [ExtensionField.valueClass, hname]⟩
  · obtain ⟨after, h⟩ := generate_eq generator fun file hfile => sound_of_mem_resolveFiles hfile
    exact ⟨after, _, h⟩

/-- Two proto files of one base name in two directories, both without a package. The second one
extends the message of the first. -/
def namesakes : List DescriptorFile :=
  [⟨"one.json", {
      name := "a/x.proto"
      messageTypes := [{ name := "M" }]
      extensions := [{ name := "first", number := 100, type := .int32, extendee := some "M" }] }⟩,
   ⟨"two.json", {
      name := "b/x.proto"
      extensions := [{ name := "second", number := 101, type := .bool, extendee := some "M" }] }⟩]

theorem generate_resolveFiles_namesakes :
    (∃ file ∈ (resolveFiles namesakes).1, ∃ field ∈ file.extensions,
      field.name = "second" ∧ field.violation? = none) ∧
    ∃ after output, Generator.generate {} (resolveFiles namesakes).1 = .ok (after, output) := by
  have hsecond : ∃ file ∈ (resolveFiles namesakes).1, ∃ field ∈ file.extensions,
      field.name = "second" := by decide +kernel
  obtain ⟨file, hfile, field, hfield, hname⟩ := hsecond
  obtain ⟨hfields, hgenerate⟩ := generate_resolveFiles {} namesakes
  exact ⟨⟨file, hfile, field, hfield, hname, (hfields file hfile field hfield).1⟩, hgenerate⟩

end ProtoExtensions
