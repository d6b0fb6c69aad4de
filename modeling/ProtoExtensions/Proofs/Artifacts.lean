import ProtoExtensions.Proofs.Emission
import ProtoExtensions.Proofs.Layout
import ProtoExtensions.Proofs.Numerals

/-!
The five texts that an extension gives rise to: its declaration, its definition, its record, and the
statements that build and register it. Each of them is whole lines, which depend on the style alone
(`LoweredField.printsLines_declaration` and its companions); the record is a list of entries, each
behind one unit of indentation (`LoweredField.recordText_eq`). The main result is that they are
about one field (`LoweredField.artifacts_agree`). They name its class in the same words where its
name is one line; where it has a line break, the record indents its second line, and the
registration does not.
-/

namespace ProtoExtensions

open Printer

namespace LoweredField

variable (f : LoweredField)

/-! ## The lines of an extension's pieces -/

theorem printsLines_declaration :
    PrintsLines f.printDeclaration 0 fun _ => f.declarationText :=
  .of_writeText (endsLine_append rfl) f.printDeclaration_eq

theorem printsLines_definition : PrintsLines f.printDefinition 0 fun _ => f.definitionText :=
  .of_writeText (endsLine_append rfl) f.printDefinition_eq

theorem printsLines_initializer : PrintsLines f.printInitializer 0 fun _ => f.initializerText :=
  .of_writeText (endsLine_append rfl) f.printInitializer_eq

theorem printsLines_registration :
    PrintsLines f.printRegistration 0 fun _ => f.registrationText :=
  .of_writeText (endsLine_append rfl) f.printRegistration_eq

/-- The record, its entries one level further in than its first and last line. -/
def recordText (style : IndentStyle) : String :=
  f.recordOpening ++ indented (style.indentation 1) f.recordEntries ++ "\x7d;\n"

theorem endsLine_recordEntries : EndsLine f.recordEntries :=
  (endsLine_append rfl).append_left _

theorem printsLines_record : PrintsLines f.printRecord 1 f.recordText := by
  intro printer hholds before
  have hlevel : printer.level.toNat < maxWord := hholds.1
  have hfits : printer.Fits := hholds.2.mono (Nat.le_succ _)
  have hdeeper : printer.deeper.Fits := by
    rw [Printer.Fits, toNat_level_deeper hlevel]
    exact hholds.2
  have hopening : EndsLine f.recordOpening := endsLine_append rfl
  have hentries : EndsLine f.recordEntries := f.endsLine_recordEntries
  have hclosing : EndsLine "\x7d;\n" := endsLine_of_getLast? rfl
  -- the entries stand behind the indentation of the level and one unit more
  have hlines : indented printer.indentation (f.recordText printer.style) =
      indented printer.indentation f.recordOpening ++
        indented printer.deeper.indentation f.recordEntries ++
          indented printer.indentation "\x7d;\n" := by
    rw [recordText, indented_append _ ((hentries.indented _).append_left _),
      indented_append _ hopening, indented_indented _ (printer.style.newline_not_mem_indentation 1),
      indentation_deeper hlevel]
  have hindent (text : String) :
      (printer.afterLines text).indent = .ok (printer.deeper.afterLines text) :=
    @indent_of_lt (printer.afterLines text) hlevel
  rw [printRecord_eq]
  refine bind_eq_ok_iff.2 ⟨_, writeText_afterLines hfits _ hopening,
    bind_eq_ok_iff.2 ⟨_, hindent _, bind_eq_ok_iff.2
      ⟨_, writeText_afterLines hdeeper _ hentries, ?_⟩⟩⟩
  rw [outdent_afterLines, outdent_deeper hlevel, writeText_afterLines hfits _ hclosing, hlines]
  simp only [String.append_assoc]

/-! ## The entries of the record -/

/-- The entries of the record: the members that are set, with their values. -/
def entries : List (String × String) :=
  [(".name", "\"" ++ f.field.name ++ "\""), (".javaName", "\"" ++ f.field.javaName ++ "\""),
   (".number", toString f.field.number.toNat), (".flags", f.field.flags),
   (".type", f.field.type.tag)] ++
  (f.defaultMember?.map fun default =>
    (".defaultValue." ++ default.member, default.literal)).toList ++
  [(".className", f.classReference),
   (".containingType", "\"" ++ f.field.extendee.className ++ "\""),
   (".optionsData", f.field.optionsData?.getD "NULL")]

/-- The line of an entry. -/
def entryLine (entry : String × String) : String :=
  entry.1 ++ " = " ++ entry.2 ++ ",\n"

theorem recordEntries_eq : f.recordEntries = String.join (f.entries.map entryLine) := by
  unfold recordEntries fieldEntries defaultEntry classEntries entries entryLine
  cases f.defaultMember?
  all_goals
    simp only [Option.map_none, Option.map_some, Option.toList_none, Option.toList_some,
      List.cons_append, List.nil_append, List.map_cons, List.map_nil, String.join_cons,
      String.join_nil, ← String.toList_inj, String.toList_append, List.append_assoc,
      -String.reduceAppend]
    rfl

theorem endsLine_entryLine (entry : String × String) : EndsLine (entryLine entry) :=
  endsLine_append rfl

/-- Each entry of the record is indented by one unit. -/
theorem recordText_eq (style : IndentStyle) :
    f.recordText style = f.recordOpening ++
      String.join (f.entries.map fun entry => indented (style.indentation 1) (entryLine entry)) ++
        "\x7d;\n" := by
  have hends : ∀ text ∈ f.entries.map entryLine, EndsLine text := by
    intro text htext
    obtain ⟨entry, -, rfl⟩ := List.mem_map.1 htext
    exact endsLine_entryLine entry
  rw [recordText, recordEntries_eq, indented_join _ hends, List.map_map]
  rfl

theorem lookup_number : f.entries.lookup ".number" = some (toString f.field.number.toNat) := by
  simp [entries, List.lookup_cons]

theorem lookup_flags : f.entries.lookup ".flags" = some f.field.flags := by
  simp [entries, List.lookup_cons]

theorem lookup_containingType : f.entries.lookup ".containingType" =
    some ("\"" ++ f.field.extendee.className ++ "\"") := by
  have hother : ∀ member, (".containingType" == ".defaultValue." ++ member) = false := by
    intro member
    rw [beq_eq_false_iff_ne, Ne, ← String.toList_inj, String.toList_append]
    simp
  unfold entries
  cases f.defaultMember? with
  | none => simp [List.lookup_cons]
  | some default => simp [List.lookup_cons, hother]

theorem standsIn_recordText {member value : String} (hentry : (member, value) ∈ f.entries)
    (hmember : '\n' ∉ member.toList) (hvalue : '\n' ∉ value.toList) (style : IndentStyle) :
    StandsIn (entryLine (member, value)) (f.recordText style) := by
  have hbreak : '\n' ∉ (member ++ " = " ++ value ++ ",").toList := by
    simp [String.toList_append, hmember, hvalue]
  have hend : ",\n" = "," ++ "\n" := rfl
  have hline : entryLine (member, value) = member ++ " = " ++ value ++ "," ++ "\n" := by
    rw [entryLine, hend, ← String.append_assoc]
  have hindented : indented (style.indentation 1) (entryLine (member, value)) =
      String.ofList (style.indentation 1) ++ entryLine (member, value) := by
    rw [hline, indented_line _ hbreak (by simp [String.toList_append]), String.append_assoc]
  have hin := standsIn_join_map hentry fun entry => indented (style.indentation 1) (entryLine entry)
  rw [hindented] at hin
  rw [recordText_eq]
  refine ((StandsIn.trans ?_ hin).append_left _).append_right _
  exact (StandsIn.refl _).append_left _

/-! ## Repeated fields -/

/-- The type of the variable where the field is repeated. -/
def arrayType : String :=
  "CGPGeneratedExtension<" ++ f.field.extendee.className ++ " *, NSArray<" ++ f.valueClass ++
    " *> *>"

theorem variableType_eq_arrayType_iff :
    f.variableType = f.arrayType ↔ f.field.isRepeated = true := by
  unfold variableType arrayType
  cases h : f.field.isRepeated with
  | true => simp
  | false =>
    simp only [Bool.false_eq_true, if_false, iff_false]
    intro heq
    -- the type of a single value is shorter
    have hlength := congrArg String.length heq
    have hshorter : " *, ".length + " *>".length < " *, NSArray<".length + " *> *>".length := by
      decide
    simp only [String.length_append] at hlength
    omega

theorem standsIn_flags_iff :
    StandsIn "CGPFieldFlagRepeated" f.field.flags ↔ f.field.isRepeated = true := by
  rw [standsIn_iff, ExtensionField.flags, ExtensionField.flagNames]
  cases f.field.isRepeated <;> cases f.field.packed <;> decide +kernel

theorem protoName_eq_repeated_iff :
    f.field.cardinality.protoName = "repeated" ↔ f.field.isRepeated = true := by
  unfold ExtensionField.isRepeated
  cases f.field.cardinality <;> decide +kernel

/-! ## The comment -/

theorem declarationText_eq : f.declarationText =
    "\n/*! extend " ++ withoutLeadingDots f.field.extendee.fullName ++ " \x7b " ++
      f.field.cardinality.protoName ++ " " ++ f.valueTypeName ++ " " ++ f.field.name ++ " = " ++
      toString f.field.number.toNat ++ "; \x7d */\n" ++
    ("FOUNDATION_EXPORT " ++ (f.variableType ++ " *" ++ f.field.variableName) ++
      (if f.field.deprecated then " __attribute__((deprecated))" else "") ++ ";\n") := by
  have hline : "; \x7d */\nFOUNDATION_EXPORT " = "; \x7d */\n" ++ "FOUNDATION_EXPORT " :=
    eq_append_of rfl rfl rfl
  unfold declarationText
  simp only [hline, String.append_assoc, -String.reduceAppend]

/-! ## One field -/

/-- The name of the record. -/
def recordName : String :=
  f.field.variableName ++ "_FieldData"

theorem initializerText_eq : f.initializerText =
    f.field.variableName ++ " = CGPNewGeneratedExtension(&" ++ f.recordName ++ ");\n" := by
  have hname : "_FieldData);\n" = "_FieldData" ++ ");\n" := eq_append_of rfl rfl rfl
  unfold initializerText recordName
  simp only [hname, String.append_assoc, -String.reduceAppend]

theorem recordOpening_eq :
    f.recordOpening = "\nstatic CGPFieldData " ++ f.recordName ++ " = \x7b\n" := by
  have hname : "_FieldData = \x7b\n" = "_FieldData" ++ " = \x7b\n" :=
    eq_append_of rfl rfl rfl
  unfold recordOpening recordName
  simp only [hname, String.append_assoc, -String.reduceAppend]

/-- Whether the class and the number that a field is registered for stand in its record in the same
words. -/
def RegistersAsRecorded (style : IndentStyle) : Prop :=
  ∃ registration record name,
    rendered f.printRegistration style = .ok registration ∧
    rendered f.printRecord style = .ok record ∧
    registration = "CGPExtensionRegistryAdd(extensionRegistry, \"" ++ name ++ "\", " ++
      toString f.field.number.toNat ++ ", " ++ f.field.variableName ++ ");\n" ∧
    StandsIn (entryLine (".number", toString f.field.number.toNat)) record ∧
    StandsIn (entryLine (".containingType", "\"" ++ name ++ "\"")) record

/-- A field that extends a message with a line break in its name. -/
def twoLineExtendee : LoweredField where
  field := {
    name := "e"
    number := 1
    type := .int32
    value := .scalar
    extendee := ⟨⟨"x.proto", "", none, none, false, []⟩, ["A\nB"]⟩
    scope := .file ⟨"x.proto", "", none, none, false, []⟩ }
  sound := by decide

/-- The record shows the second line of the class name behind its indentation. -/
theorem not_registersAsRecorded_twoLineExtendee :
    ¬ twoLineExtendee.RegistersAsRecorded .standard := by
  rintro ⟨registration, record, name, hregistration, hrecord, hname, -, hin⟩
  have hholds : IndentStyle.standard.Holds 1 := by decide
  cases (twoLineExtendee.printsLines_registration.rendered_eq (IndentStyle.holds_zero _)).symm.trans
    hregistration
  cases (twoLineExtendee.printsLines_record.rendered_eq hholds).symm.trans hrecord
  have hclass : name = twoLineExtendee.field.extendee.className := by
    unfold registrationText at hname
    simp only [String.append_right_inj, String.append_left_inj] at hname
    exact hname.symm
  rw [hclass, standsIn_iff] at hin
  unfold recordText recordOpening recordEntries fieldEntries classEntries FieldType.tag typeTagStem
    entryLine indented at hin
  -- lists of characters are compared faster than strings
  simp only [String.toList_append, -String.reduceAppend] at hin
  repeat rw [String.toList_ofList] at hin
  exact absurd hin (by decide +kernel)

theorem registersAsRecorded_of_newline_not_mem
    (h : '\n' ∉ f.field.extendee.className.toList) {style : IndentStyle} (hholds : style.Holds 1) :
    f.RegistersAsRecorded style := by
  have hnumber : '\n' ∉ (toString f.field.number.toNat).toList := by
    rw [show (toString f.field.number.toNat).toList = _ from Nat.toList_repr]
    exact newline_not_mem_toDigits _
  have hname : '\n' ∉ ("\"" ++ f.field.extendee.className ++ "\"").toList := by
    simp [String.toList_append, h]
  refine ⟨_, _, f.field.extendee.className,
    f.printsLines_registration.rendered_eq style.holds_zero,
    f.printsLines_record.rendered_eq hholds, rfl, ?_, ?_⟩
  · exact f.standsIn_recordText (by simp [entries]) (by decide) hnumber style
  · exact f.standsIn_recordText (by simp [entries]) (by decide) hname style

/-- **One field in five texts.** What fresh printers show for an extension belongs together. The
declaration ends with the definition, exported and with the attribute, if there is one, before its
semicolon. The initializer assigns to the variable that is defined, and builds it from the record
that is defined; the registration passes the same variable. The record has the number and the class
of the registration as entries, and each entry stands behind one unit of indentation, if a string
holds that much: so the class stands there in the same words where it has no line break. The type
has an array of values exactly if the flags say repeated, and exactly if the comment does. -/
theorem artifacts_agree (style : IndentStyle) :
    rendered f.printDefinition style =
      .ok (f.variableType ++ " *" ++ f.field.variableName ++ ";\n") ∧
    rendered f.printDeclaration style =
      .ok ("\n/*! extend " ++ withoutLeadingDots f.field.extendee.fullName ++ " \x7b " ++
          f.field.cardinality.protoName ++ " " ++ f.valueTypeName ++ " " ++ f.field.name ++ " = " ++
          toString f.field.number.toNat ++ "; \x7d */\n" ++
        ("FOUNDATION_EXPORT " ++ (f.variableType ++ " *" ++ f.field.variableName) ++
          (if f.field.deprecated then " __attribute__((deprecated))" else "") ++ ";\n")) ∧
    rendered f.printInitializer style =
      .ok (f.field.variableName ++ " = CGPNewGeneratedExtension(&" ++ f.recordName ++ ");\n") ∧
    (style.Holds 1 → rendered f.printRecord style =
      .ok ("\nstatic CGPFieldData " ++ f.recordName ++ " = \x7b\n" ++
        String.join (f.entries.map fun entry => indented (style.indentation 1) (entryLine entry)) ++
        "\x7d;\n")) ∧
    rendered f.printRegistration style =
      .ok ("CGPExtensionRegistryAdd(extensionRegistry, \"" ++ f.field.extendee.className ++
        "\", " ++ toString f.field.number.toNat ++ ", " ++ f.field.variableName ++ ");\n") ∧
    f.entries.lookup ".number" = some (toString f.field.number.toNat) ∧
    f.entries.lookup ".containingType" = some ("\"" ++ f.field.extendee.className ++ "\"") ∧
    f.entries.lookup ".flags" = some f.field.flags ∧
    ('\n' ∉ f.field.extendee.className.toList → style.Holds 1 → f.RegistersAsRecorded style) ∧
    (f.variableType = f.arrayType ↔ StandsIn "CGPFieldFlagRepeated" f.field.flags) ∧
    (StandsIn "CGPFieldFlagRepeated" f.field.flags ↔
      f.field.cardinality.protoName = "repeated") := by
  have hdeclaration := f.printsLines_declaration.rendered_eq style.holds_zero
  have hinitializer := f.printsLines_initializer.rendered_eq style.holds_zero
  have hrecord (hholds : style.Holds 1) := f.printsLines_record.rendered_eq hholds
  rw [declarationText_eq] at hdeclaration
  rw [initializerText_eq] at hinitializer
  simp only [recordText_eq, recordOpening_eq] at hrecord
  exact ⟨f.printsLines_definition.rendered_eq style.holds_zero, hdeclaration, hinitializer, hrecord,
    f.printsLines_registration.rendered_eq style.holds_zero, f.lookup_number,
    f.lookup_containingType, f.lookup_flags,
    fun hclass hholds => f.registersAsRecorded_of_newline_not_mem hclass hholds,
    f.variableType_eq_arrayType_iff.trans f.standsIn_flags_iff.symm,
    f.standsIn_flags_iff.trans f.protoName_eq_repeated_iff.symm⟩

/-- A deprecated repeated extension with a reserved word for a name, of a message with dollar signs
in its name. -/
def dollarExtendee : LoweredField where
  field := {
    name := "in"
    number := 536870911
    type := .group
    value := .message ⟨⟨"x.proto", "p.q", none, none, true, ["M"]⟩, ["M", "Group"]⟩
    extendee := ⟨⟨"x.proto", "p.q", none, none, true, ["M"]⟩, ["M", "$name$"]⟩
    scope := .message ⟨⟨"x.proto", "p.q", none, none, true, ["M"]⟩, ["M"]⟩
    cardinality := .repeated
    deprecated := true }
  sound := by decide

theorem artifacts_agree_dollarExtendee :
    '\n' ∉ dollarExtendee.field.extendee.className.toList ∧
    dollarExtendee.RegistersAsRecorded .tabs ∧
    dollarExtendee.variableType = dollarExtendee.arrayType := by
  have hname : '\n' ∉ dollarExtendee.field.extendee.className.toList := by decide +kernel
  have hflags : StandsIn "CGPFieldFlagRepeated" dollarExtendee.field.flags :=
    dollarExtendee.standsIn_flags_iff.2 rfl
  obtain ⟨-, -, -, -, -, -, -, -, hregisters, harray, -⟩ := dollarExtendee.artifacts_agree .tabs
  exact ⟨hname, hregisters hname (by decide), harray.2 hflags⟩

end LoweredField

end ProtoExtensions
