import ProtoExtensions.Proofs.CamelCase
import ProtoExtensions.Proofs.ClassUnits
import ProtoExtensions.Proofs.Generation
import ProtoExtensions.Proofs.SourceLayout

/-!
Which extensions of a file share a global variable. The name of the variable is the class of the
scope, an underscore, and the field's name in camel case, where reserved words get one more
underscore. Camel case has no underscores, so the class and the camel case can be read off the name
again (`ExtensionField.variableName_decomposes`), except where nothing is left of the field's name
(`ExtensionField.variableName_eq_iff`).
Resolution does not compare the names of extensions, so it is up to the names of a file whether its
source defines each variable once; `ResolvedFile.HasDistinctNames` is enough.
-/

namespace ProtoExtensions

/-! ### Underscores -/

theorem append_underscore_inj {a b m n : String} (hm : '_' ∉ m.toList) (hn : '_' ∉ n.toList) :
    a ++ "_" ++ m = b ++ "_" ++ n ↔ a = b ∧ m = n := by
  have h : a.toList ++ '_' :: m.toList = b.toList ++ '_' :: n.toList ↔ a = b ∧ m = n := by
    rw [append_separator_inj hm hn, String.toList_inj, String.toList_inj]
  rw [← String.toList_inj, ← h]
  simp

/-- Names without underscores can be read off what is put together from them with underscores. -/
theorem intercalate_underscore_inj {a b : List String} (ha : a ≠ []) (hb : b ≠ [])
    (hna : ∀ name ∈ a, '_' ∉ name.toList) (hnb : ∀ name ∈ b, '_' ∉ name.toList)
    (h : "_".intercalate a = "_".intercalate b) : a = b := by
  have hsplit : ∀ {names : List String}, names ≠ [] → (∀ name ∈ names, '_' ∉ name.toList) →
      split '_' ("_".intercalate names).toList = names.map String.toList := by
    intro names hne hnames
    rw [String.toList_intercalate, show "_".toList = ['_'] from rfl, ← joinWith_eq_intercalate]
    refine split_joinWith (by simpa using hne) fun piece hpiece => ?_
    obtain ⟨name, hname, rfl⟩ := List.mem_map.1 hpiece
    exact hnames name hname
  have hpieces : a.map String.toList = b.map String.toList := by
    rw [← hsplit ha hna, h, hsplit hb hnb]
  exact List.map_injective_iff.2 (fun _ _ => String.toList_inj.1) hpieces

/-! ### Variables -/

namespace ExtensionField

variable {a b : ExtensionField}

/-- The name of the field in camel case, reserved or not. -/
def camelName (field : ExtensionField) : String :=
  camelCase field.name false

theorem underscore_not_mem_camelName (field : ExtensionField) :
    '_' ∉ field.camelName.toList :=
  fun h => absurd (isAlphanum_of_mem_camelCase h) (by decide)

theorem camelName_eq_empty_iff {field : ExtensionField} :
    field.camelName = "" ↔ ∀ c ∈ field.name.toList, c.isAlphanum = false :=
  camelCase_eq_empty_iff

/-- What makes two fields have one variable: their scopes have one class and their names one camel
case; or nothing is left of one name, and the class of its scope reads as the class of the other
scope with the other name, a reserved word. -/
inductive Collides (a b : ExtensionField) : Prop
  | same : a.scope.className = b.scope.className → a.camelName = b.camelName → a.Collides b
  | emptyFirst :
    a.camelName = "" → isReservedWord b.camelName = true →
      a.scope.className = b.scope.className ++ "_" ++ b.camelName → a.Collides b
  | emptySecond :
    b.camelName = "" → isReservedWord a.camelName = true →
      b.scope.className = a.scope.className ++ "_" ++ a.camelName → a.Collides b

theorem memberName_of_reserved (h : isReservedWord a.camelName = true) :
    a.memberName = a.camelName ++ "_" := by
  unfold memberName
  exact if_pos h

theorem memberName_of_not_reserved (h : isReservedWord a.camelName = false) :
    a.memberName = a.camelName := by
  unfold memberName
  exact if_neg (Bool.eq_false_iff.1 h)

theorem variableName_of_reserved (h : isReservedWord a.camelName = true) :
    a.variableName = a.scope.className ++ "_" ++ a.camelName ++ "_" ++ "" := by
  rw [variableName, memberName_of_reserved h, String.append_empty, String.append_assoc,
    String.append_assoc, String.append_assoc]

theorem variableName_of_not_reserved (h : isReservedWord a.camelName = false) :
    a.variableName = a.scope.className ++ "_" ++ a.camelName := by
  rw [variableName, memberName_of_not_reserved h]

/-- A field whose name leaves nothing meets another one behind the class that reads as its name. -/
theorem variableName_eq_of_empty (hempty : a.camelName = "")
    (hreserved : isReservedWord b.camelName = true)
    (hclass : a.scope.className = b.scope.className ++ "_" ++ b.camelName) :
    a.variableName = b.variableName := by
  have hfree : isReservedWord a.camelName = false := by
    rw [hempty]
    decide
  rw [variableName_of_not_reserved hfree, variableName_of_reserved hreserved, hempty, hclass]

theorem variableName_eq_of_collides (h : a.Collides b) : a.variableName = b.variableName := by
  cases h with
  | same hclass hname =>
    have hmember : a.memberName = b.memberName := by
      unfold memberName
      rw [show camelCase a.name false = camelCase b.name false from hname]
    rw [variableName, variableName, hclass, hmember]
  | emptyFirst hempty hreserved hclass => exact variableName_eq_of_empty hempty hreserved hclass
  | emptySecond hempty hreserved hclass =>
    exact (variableName_eq_of_empty hempty hreserved hclass).symm

/-- Two fields have one variable exactly if they collide. -/
theorem variableName_eq_iff : a.variableName = b.variableName ↔ a.Collides b := by
  have hnone : '_' ∉ "".toList := by decide
  have ha := a.underscore_not_mem_camelName
  have hb := b.underscore_not_mem_camelName
  refine ⟨fun h => ?_, variableName_eq_of_collides⟩
  cases hra : isReservedWord a.camelName with
  | false =>
    cases hrb : isReservedWord b.camelName with
    | false =>
      rw [variableName_of_not_reserved hra, variableName_of_not_reserved hrb,
        append_underscore_inj ha hb] at h
      exact .same h.1 h.2
    | true =>
      rw [variableName_of_not_reserved hra, variableName_of_reserved hrb,
        append_underscore_inj ha hnone] at h
      exact .emptyFirst h.2 hrb h.1
  | true =>
    cases hrb : isReservedWord b.camelName with
    | false =>
      rw [variableName_of_reserved hra, variableName_of_not_reserved hrb,
        append_underscore_inj hnone hb] at h
      exact .emptySecond h.2.symm hra h.1.symm
    | true =>
      rw [variableName_of_reserved hra, variableName_of_reserved hrb,
        append_underscore_inj hnone hnone, append_underscore_inj ha hb] at h
      exact .same h.1.1 h.1.2

theorem camelName_ne_empty_of_exists {field : ExtensionField}
    (h : ∃ c ∈ field.name.toList, c.isAlphanum = true) : field.camelName ≠ "" := by
  obtain ⟨c, hc, halphanum⟩ := h
  intro hempty
  rw [camelName_eq_empty_iff.1 hempty c hc] at halphanum
  cases halphanum

/-- The member part of a name is not reserved: no reserved word ends in an underscore. -/
theorem isReservedWord_memberName (field : ExtensionField) :
    isReservedWord field.memberName = false := by
  have hwords : ∀ word ∈ reservedWords, '_' ∉ word.toList := by decide +kernel
  cases hreserved : isReservedWord field.camelName with
  | false => rw [memberName_of_not_reserved hreserved, hreserved]
  | true =>
    rw [memberName_of_reserved hreserved, isReservedWord, Bool.eq_false_iff, Ne,
      List.contains_iff_mem]
    exact fun hmem => hwords _ hmem (by simp [String.toList_append])

/-- **Names of variables come apart again.** Where the names of two fields have a letter or a digit
each, the fields have one variable exactly if their scopes have one class and their names one camel
case, whatever underscores the class has and whether or not one more stands behind a reserved word.
The member part of a variable is never a reserved word. -/
theorem variableName_decomposes :
    (∀ a b : ExtensionField, (∃ c ∈ a.name.toList, c.isAlphanum = true) →
      (∃ c ∈ b.name.toList, c.isAlphanum = true) →
      (a.variableName = b.variableName ↔
        a.scope.className = b.scope.className ∧ a.camelName = b.camelName)) ∧
    ∀ field : ExtensionField,
      field.variableName = field.scope.className ++ "_" ++ field.memberName ∧
      isReservedWord field.memberName = false := by
  refine ⟨fun a b ha hb => ?_, fun field => ⟨rfl, isReservedWord_memberName field⟩⟩
  rw [variableName_eq_iff]
  constructor
  · intro hcollides
    cases hcollides with
    | same hclass hname => exact ⟨hclass, hname⟩
    | emptyFirst hempty => exact absurd hempty (camelName_ne_empty_of_exists ha)
    | emptySecond hempty => exact absurd hempty (camelName_ne_empty_of_exists hb)
  · rintro ⟨hclass, hname⟩
    exact .same hclass hname

/-- A file whose outer class has the name of a message class. -/
def underscoredFile : ProtoFile where
  name := "x.proto"
  package := ""
  outerClassname := some "X_M"
  topLevelTypes := ["M"]

/-- An extension of that file with a reserved word for a name. -/
def underscoredField : ExtensionField where
  name := "in"
  number := 100
  type := .bool
  value := .scalar
  extendee := ⟨underscoredFile, ["M"]⟩
  scope := .file underscoredFile

/-- An extension in a message of another file, whose name has the same camel case. -/
def nestedField : ExtensionField where
  name := "in_"
  number := 101
  type := .bool
  value := .scalar
  extendee := ⟨underscoredFile, ["M"]⟩
  scope := .message ⟨{ name := "x.proto", package := "", topLevelTypes := ["M"] }, ["M"]⟩

/-- Different scopes and names give one variable, with one class and one camel case. -/
theorem variableName_decomposes_nestedField :
    underscoredField.scope ≠ nestedField.scope ∧ underscoredField.name ≠ nestedField.name ∧
    underscoredField.variableName = "X_M_in_" ∧ nestedField.variableName = "X_M_in_" ∧
    underscoredField.scope.className = nestedField.scope.className ∧
    underscoredField.camelName = nestedField.camelName ∧
    isReservedWord underscoredField.camelName = true ∧
    isReservedWord underscoredField.memberName = false := by
  have hfirst : underscoredField.variableName = "X_M_in_" := by decide +kernel
  have hsecond : nestedField.variableName = "X_M_in_" := by decide +kernel
  obtain ⟨hiff, hmember⟩ := variableName_decomposes
  obtain ⟨hclass, hname⟩ := (hiff underscoredField nestedField ⟨'i', by decide +kernel, by decide⟩
    ⟨'i', by decide +kernel, by decide⟩).1 (hfirst.trans hsecond.symm)
  exact ⟨by decide +kernel, by decide, hfirst, hsecond, hclass, hname, by decide +kernel,
    (hmember underscoredField).2⟩

end ExtensionField

/-! ### Classes of scopes -/

/-- The names of the messages around a declaration in the scope. -/
def Scope.messages : Scope → List String
  | .file _ => []
  | .message type => type.path

namespace DeclaredExtension

variable {a b : DeclaredExtension} {file : ProtoFile}

theorem scope_of_nil (h : a.messages = []) : a.scope file = .file file := by
  simp [scope, h]

theorem scope_of_ne_nil (h : a.messages ≠ []) : a.scope file = .message ⟨file, a.messages⟩ := by
  simp [scope, h]

theorem messages_scope (declared : DeclaredExtension) (file : ProtoFile) :
    (declared.scope file).messages = declared.messages := by
  by_cases h : declared.messages = []
  · rw [scope_of_nil h, h]
    rfl
  · rw [scope_of_ne_nil h]
    rfl

/-- A message has the class of the outer class only in a file for multiple files, where its names
read as that class. -/
theorem className_ne_of_nil (ha : a.messages = []) (hb : b.messages ≠ [])
    (houter : file.multipleFiles = true → "_".intercalate b.messages ≠ file.outerClass) :
    (a.scope file).className ≠ (b.scope file).className := by
  rw [scope_of_nil ha, scope_of_ne_nil hb, Scope.className, Scope.className]
  cases hmultiple : file.multipleFiles with
  | false => exact @TypeRef.className_ne_outerClassName ⟨file, b.messages⟩ hmultiple
  | true =>
    simp only [TypeRef.className, hmultiple, if_true]
    exact fun h => houter hmultiple ((String.append_right_inj _).1 h).symm

/-- In one file, scopes of one class are inside the same messages, where no name of a message has an
underscore, and no message reads as the outer class. -/
theorem messages_eq_of_className_eq (ha : ∀ name ∈ a.messages, '_' ∉ name.toList)
    (hb : ∀ name ∈ b.messages, '_' ∉ name.toList)
    (hoa : file.multipleFiles = true → a.messages ≠ [] →
      "_".intercalate a.messages ≠ file.outerClass)
    (hob : file.multipleFiles = true → b.messages ≠ [] →
      "_".intercalate b.messages ≠ file.outerClass)
    (h : (a.scope file).className = (b.scope file).className) : a.messages = b.messages := by
  by_cases hna : a.messages = []
  · by_cases hnb : b.messages = []
    · rw [hna, hnb]
    · exact absurd h (className_ne_of_nil hna hnb fun hm => hob hm hnb)
  · by_cases hnb : b.messages = []
    · exact absurd h.symm (className_ne_of_nil hnb hna fun hm => hoa hm hna)
    · rw [scope_of_ne_nil hna, scope_of_ne_nil hnb] at h
      refine intercalate_underscore_inj hna hnb ha hb ?_
      simp only [Scope.className, TypeRef.className] at h
      split at h
      · exact (String.append_right_inj _).1 h
      · rw [String.append_assoc, String.append_assoc] at h
        exact (String.append_right_inj _).1 ((String.append_right_inj _).1 h)

end DeclaredExtension

/-! ### Files -/

namespace ResolvedFile

/-- Names that keep the variables of a file apart. Every extension has a letter or a digit in its
name, and differs in camel case from the others in its scope. No message around an extension has an
underscore in its name, or reads as the outer class where this is possible. -/
structure HasDistinctNames (file : ResolvedFile) : Prop where
  letters : ∀ field ∈ file.extensions, ∃ c ∈ field.name.toList, c.isAlphanum = true
  members : file.extensions.Pairwise fun a b =>
    a.scope.messages = b.scope.messages → a.camelName ≠ b.camelName
  messages : ∀ field ∈ file.extensions, ∀ name ∈ field.scope.messages, '_' ∉ name.toList
  outer : file.file.multipleFiles = true → ∀ field ∈ file.extensions,
    field.scope.messages ≠ [] → "_".intercalate field.scope.messages ≠ file.file.outerClass

namespace HasDistinctNames

variable {file : ResolvedFile} (h : file.HasDistinctNames)

include h in
theorem camelName_ne_empty {field : ExtensionField} (hfield : field ∈ file.extensions) :
    field.camelName ≠ "" :=
  ExtensionField.camelName_ne_empty_of_exists (h.letters field hfield)

include h in
theorem messages_eq {a b : ExtensionField} (ha : a ∈ file.extensions) (hb : b ∈ file.extensions)
    (hscope : ∀ field ∈ file.extensions, ∃ declared : DeclaredExtension,
      field.scope = declared.scope file.file)
    (hclass : a.scope.className = b.scope.className) : a.scope.messages = b.scope.messages := by
  obtain ⟨first, hfirst⟩ := hscope a ha
  obtain ⟨second, hsecond⟩ := hscope b hb
  have hma := h.messages a ha
  have hmb := h.messages b hb
  have hoa := fun hm => h.outer hm a ha
  have hob := fun hm => h.outer hm b hb
  rw [hfirst, DeclaredExtension.messages_scope] at hma hoa
  rw [hsecond, DeclaredExtension.messages_scope] at hmb hob
  rw [hfirst, hsecond] at hclass
  rw [hfirst, hsecond, DeclaredExtension.messages_scope, DeclaredExtension.messages_scope]
  exact DeclaredExtension.messages_eq_of_className_eq hma hmb hoa hob hclass

include h in
theorem pairwise_not_collides
    (hscope : ∀ field ∈ file.extensions, ∃ declared : DeclaredExtension,
      field.scope = declared.scope file.file) :
    file.extensions.Pairwise fun a b => ¬a.Collides b := by
  refine h.members.imp_of_mem ?_
  intro a b ha hb hname hcollides
  cases hcollides with
  | same hclass hsame => exact hname (h.messages_eq ha hb hscope hclass) hsame
  | emptyFirst hempty => exact h.camelName_ne_empty ha hempty
  | emptySecond hempty => exact h.camelName_ne_empty hb hempty

end HasDistinctNames

end ResolvedFile

namespace OuterClass

/-- The variables that the source of a class defines, in order. -/
def definedVariables (c : OuterClass) : List String :=
  c.extensions.map fun f => f.field.variableName

/-- The records that the source of a class defines, in order. -/
def definedRecords (c : OuterClass) : List String :=
  c.extensions.map fun f => f.recordName

/-- The definitions of all variables, and after them those of all records. -/
def definitions (c : OuterClass) : String :=
  String.join (c.extensions.map fun f => f.variableType ++ " *" ++ f.field.variableName ++ ";\n") ++
    String.join (c.extensions.map fun f =>
      "\nstatic CGPFieldData " ++ f.recordName ++ " = \x7b\n" ++
        String.join (f.entries.map fun entry =>
          indented (IndentStyle.standard.indentation 1) (LoweredField.entryLine entry)) ++
            "\x7d;\n")

theorem definitions_eq (c : OuterClass) : c.definitions =
    String.join (c.extensions.map LoweredField.definitionText) ++
      String.join (c.extensions.map fun f => f.recordText .standard) := by
  simp only [LoweredField.recordText_eq, LoweredField.recordOpening_eq]
  rfl

theorem sourceText_eq_definitions (c : OuterClass) :
    ∃ front back, c.sourceText = .ok (front ++ c.definitions ++ back) := by
  rw [sourceText_eq_sourceLayout, sourceLayout, definitions_eq]
  exact ⟨c.preamble, _, by simp only [String.append_assoc]; rfl⟩

theorem nodup_definedRecords_iff (c : OuterClass) :
    c.definedRecords.Nodup ↔ c.definedVariables.Nodup := by
  have hrecords : c.definedRecords = c.definedVariables.map (· ++ "_FieldData") := by
    rw [definedVariables, List.map_map]
    rfl
  rw [hrecords]
  exact List.nodup_map_iff fun a b h => (String.append_left_inj _).1 h

end OuterClass

/-- **Which globals are unique.** For whatever resolution returns, the source of a file defines one
variable and one record for each extension, in order. All of them are different exactly if no two of
the extensions collide, and distinct names are enough for that. -/
theorem resolveFiles_definedVariables {files : List DescriptorFile} {resolved : ResolvedFile}
    (hresolved : resolved ∈ (resolveFiles files).1) (headers : HeaderMap) :
    ∃ c front back, OuterClass.ofFile resolved.file resolved.extensions headers = .ok c ∧
      c.extensions.map LoweredField.field = resolved.extensions ∧
      c.sourceText = .ok (front ++ c.definitions ++ back) ∧
      (c.definedVariables.Nodup ↔ resolved.extensions.Pairwise fun a b => ¬a.Collides b) ∧
      (c.definedRecords.Nodup ↔ resolved.extensions.Pairwise fun a b => ¬a.Collides b) ∧
      (resolved.HasDistinctNames → c.definedVariables.Nodup ∧ c.definedRecords.Nodup) := by
  obtain ⟨c, hc, -, -, hfields⟩ := (sound_of_mem_resolveFiles hresolved).exists_outerClass headers
  obtain ⟨front, back, hsource⟩ := c.sourceText_eq_definitions
  have hvariables : c.definedVariables.Nodup ↔
      resolved.extensions.Pairwise fun a b => ¬a.Collides b := by
    rw [← hfields, List.pairwise_map, OuterClass.definedVariables, List.Nodup, List.pairwise_map]
    simp only [Ne, ExtensionField.variableName_eq_iff]
  have hdistinct (h : resolved.HasDistinctNames) : c.definedVariables.Nodup :=
    hvariables.2 (h.pairwise_not_collides fun field hfield =>
      exists_scope_eq_of_mem hresolved hfield)
  exact ⟨c, front, back, hc, hfields, hsource, hvariables,
    c.nodup_definedRecords_iff.trans hvariables,
    fun h => ⟨hdistinct h, c.nodup_definedRecords_iff.2 (hdistinct h)⟩⟩

/-- A file with extensions of one name at its top level and in a message, and with one that is named
with a reserved word. -/
def namesByScope : List DescriptorFile :=
  [⟨"x.json", {
      name := "x.proto"
      messageTypes := [{
        name := "M"
        extensions := [
          { name := "foo_bar", number := 101, type := .bool, extendee := some "M" },
          { name := "in", number := 102, type := .bool, extendee := some "M" }] }]
      extensions := [{ name := "foo_bar", number := 100, type := .int32, extendee := some "M" }] }⟩]

theorem resolveFiles_definedVariables_namesByScope :
    ∃ resolved ∈ (resolveFiles namesByScope).1, resolved.HasDistinctNames ∧
      resolved.extensions.map (·.variableName) = ["X_fooBar", "X_M_fooBar", "X_M_in_"] ∧
      ∃ c, OuterClass.ofFile resolved.file resolved.extensions {} = .ok c ∧
        c.definedVariables.Nodup ∧ c.definedRecords.Nodup := by
  have hresolved : ∃ resolved ∈ (resolveFiles namesByScope).1,
      (∀ field ∈ resolved.extensions, field.name.toList.any Char.isAlphanum = true) ∧
      (resolved.extensions.Pairwise fun a b =>
        a.scope.messages = b.scope.messages → a.camelName ≠ b.camelName) ∧
      (∀ field ∈ resolved.extensions, ∀ name ∈ field.scope.messages, '_' ∉ name.toList) ∧
      resolved.file.multipleFiles = false ∧
      resolved.extensions.map (·.variableName) = ["X_fooBar", "X_M_fooBar", "X_M_in_"] := by
    decide +kernel
  obtain ⟨resolved, hresolved, hletters, hmembers, hmessages, hsingle, hnames⟩ := hresolved
  have hdistinct : resolved.HasDistinctNames :=
    ⟨fun field hfield => List.any_eq_true.1 (hletters field hfield), hmembers, hmessages,
      fun hmultiple => by simp [hsingle] at hmultiple⟩
  obtain ⟨c, -, -, hc, -, -, -, -, hnodup⟩ := resolveFiles_definedVariables hresolved {}
  exact ⟨resolved, hresolved, hdistinct, hnames, c, hc, hnodup hdistinct⟩

/-- A file with two extensions whose names are different and have one camel case. -/
def oneCamelCase : List DescriptorFile :=
  [⟨"x.json", {
      name := "x.proto"
      messageTypes := [{ name := "M" }]
      extensions := [
        { name := "foo_bar", number := 100, type := .int32, extendee := some "M" },
        { name := "fooBar", number := 101, type := .bool, extendee := some "M" }] }⟩]

/-- Both extensions are resolved without an error, and have one variable. -/
theorem oneCamelCase_share_variable :
    (resolveFiles oneCamelCase).2.ok = true ∧
      ∃ resolved ∈ (resolveFiles oneCamelCase).1,
        resolved.extensions.map (·.name) = ["foo_bar", "fooBar"] ∧
        resolved.extensions.map (·.variableName) = ["X_fooBar", "X_fooBar"] := by
  decide +kernel

end ProtoExtensions
