import ProtoExtensions.Generator
import ProtoExtensions.Proofs.Template

/-!
What the pieces of generated code print. Each piece of an extension has its text, and printing the
piece is writing that text, whatever the printer and the values that go into the template
(`printDeclaration_eq` and its companions).
-/

namespace ProtoExtensions

open Printer

namespace LoweredField

variable (f : LoweredField)

/-! ## The texts of an extension's pieces -/

/-- The public declaration, with the comment in front of it. -/
def declarationText : String :=
  "\n/*! extend " ++ withoutLeadingDots f.field.extendee.fullName ++ " \x7b " ++
    f.field.cardinality.protoName ++ " " ++ f.valueTypeName ++ " " ++ f.field.name ++ " = " ++
    toString f.field.number.toNat ++ "; \x7d */\nFOUNDATION_EXPORT " ++ f.variableType ++ " *" ++
    f.field.variableName ++ (if f.field.deprecated then " __attribute__((deprecated))" else "") ++
    ";\n"

/-- The definition of the variable. -/
def definitionText : String :=
  f.variableType ++ " *" ++ f.field.variableName ++ ";\n"

/-- The line that opens the record. -/
def recordOpening : String :=
  "\nstatic CGPFieldData " ++ f.field.variableName ++ "_FieldData = \x7b\n"

/-- The record's entries about the field itself. -/
def fieldEntries : String :=
  ".name = \"" ++ f.field.name ++ "\",\n.javaName = \"" ++ f.field.javaName ++ "\",\n.number = " ++
    toString f.field.number.toNat ++ ",\n.flags = " ++ f.field.flags ++ ",\n.type = " ++
    f.field.type.tag ++ ",\n"

/-- The record's entry for the initial default value. -/
def defaultEntry : String :=
  match f.defaultMember? with
  | none => ""
  | some default => ".defaultValue." ++ default.member ++ " = " ++ default.literal ++ ",\n"

/-- How the record names the class of the values. -/
def classReference : String :=
  match f.field.value with
  | .scalar => "NULL"
  | _ => "\"" ++ f.valueClass ++ "\""

/-- The record's entries about other classes and the options. -/
def classEntries : String :=
  ".className = " ++ f.classReference ++ ",\n.containingType = \"" ++ f.field.extendee.className ++
    "\",\n.optionsData = " ++ f.field.optionsData?.getD "NULL" ++ ",\n"

/-- The statement that builds the extension. -/
def initializerText : String :=
  f.field.variableName ++ " = CGPNewGeneratedExtension(&" ++ f.field.variableName ++
    "_FieldData);\n"

/-- The statement that registers the extension. -/
def registrationText : String :=
  "CGPExtensionRegistryAdd(extensionRegistry, \"" ++ f.field.extendee.className ++ "\", " ++
    toString f.field.number.toNat ++ ", " ++ f.field.variableName ++ ");\n"

/-! ## Printing a piece writes its text -/

theorem printDeclaration_eq (printer : Printer) :
    f.printDeclaration printer = printer.writeText f.declarationText.toList :=
  print_eq_writeText (toList_append_of String.toList_ofList String.toList_ofList) rfl printer

theorem printDefinition_eq (printer : Printer) :
    f.printDefinition printer = printer.writeText f.definitionText.toList :=
  print_eq_writeText String.toList_ofList rfl printer

theorem printDefault_eq (printer : Printer) :
    f.printDefault printer = printer.writeText f.defaultEntry.toList := by
  unfold printDefault defaultEntry
  cases f.defaultMember? with
  | none => rfl
  | some default => exact print_eq_writeText String.toList_ofList rfl printer

/-- All entries of the record. -/
def recordEntries : String :=
  f.fieldEntries ++ f.defaultEntry ++ f.classEntries

/-- The record's entries are written one level further in than its first and last line. -/
theorem printRecord_eq (printer : Printer) :
    f.printRecord printer = printer.writeText f.recordOpening.toList >>= fun opened =>
      opened.indent >>= fun indented =>
        indented.writeText f.recordEntries.toList >>= fun finished =>
          finished.outdent.writeText "\x7d;\n".toList := by
  have hopening : ∀ p : Printer, p.print "\nstatic CGPFieldData $name$_FieldData = \x7b\n"
      [("name", f.field.variableName)] = p.writeText f.recordOpening.toList :=
    print_eq_writeText String.toList_ofList rfl
  have hfield : ∀ p : Printer, p.print
      (".name = \"$field$\",\n.javaName = \"$java_name$\",\n.number = $number$,\n" ++
        ".flags = $flags$,\n.type = $type$,\n")
      [("field", f.field.name), ("java_name", f.field.javaName),
       ("number", toString f.field.number.toNat), ("flags", f.field.flags),
       ("type", f.field.type.tag)] = p.writeText f.fieldEntries.toList :=
    print_eq_writeText (toList_append_of String.toList_ofList String.toList_ofList) rfl
  have hclass : ∀ p : Printer, p.print
      (".className = $class_name$,\n.containingType = \"$containing$\",\n" ++
        ".optionsData = $options$,\n")
      [("class_name", f.classReference), ("containing", f.field.extendee.className),
       ("options", f.field.optionsData?.getD "NULL")] = p.writeText f.classEntries.toList :=
    print_eq_writeText (toList_append_of String.toList_ofList String.toList_ofList) rfl
  have hclosing : ∀ p : Printer, p.print "\x7d;\n" = p.writeText "\x7d;\n".toList :=
    print_eq_writeText String.toList_ofList rfl
  unfold printRecord
  simp only [recordEntries, String.toList_append, writeText_append, bind_assoc, ← hopening,
    ← hfield, ← hclass, ← hclosing, ← printDefault_eq]
  rfl

/-- A record is printed to its end where the level of its entries is held. -/
theorem exists_printRecord {printer : Printer}
    (h : printer.style.Holds (printer.level.toNat + 1)) :
    ∃ described defaulted after : Printer, described.Fits ∧
      described.writeText f.defaultEntry.toList = .ok defaulted ∧
      f.printRecord printer = .ok after ∧ defaulted.text.toList <+: after.text.toList ∧
      after.style = printer.style ∧ after.level = printer.level := by
  obtain ⟨opened, hopened, hopenedOn⟩ :=
    exists_writeText (h.mono (Nat.le_succ _)).2 f.recordOpening.toList
  have hlevel : opened.level.toNat < maxWord := hopenedOn.level ▸ h.1
  have hdeeper : opened.deeper.Fits := by
    rw [Printer.Fits, toNat_level_deeper hlevel, hopenedOn.level]
    exact hopenedOn.style ▸ h.2
  obtain ⟨described, hdescribed, hdescribedOn⟩ := exists_writeText hdeeper f.fieldEntries.toList
  have hfits := hdescribedOn.fits hdeeper
  obtain ⟨defaulted, hdefaulted, hdefaultedOn⟩ := exists_writeText hfits f.defaultEntry.toList
  have hfits' := hdefaultedOn.fits hfits
  obtain ⟨finished, hfinished, hfinishedOn⟩ := exists_writeText hfits' f.classEntries.toList
  have hentries := (hdescribedOn.trans hdefaultedOn).trans hfinishedOn
  have hclosing : finished.outdent.Fits :=
    (hfinishedOn.fits hfits').mono finished.toNat_level_outdent_le
  obtain ⟨after, hafter, hafterOn⟩ := exists_writeText hclosing "\x7d;\n".toList
  refine ⟨described, defaulted, after, hfits, hdefaulted, ?_,
    hfinishedOn.text.trans hafterOn.text, ?_, ?_⟩
  · rw [printRecord_eq, recordEntries, String.toList_append, String.toList_append]
    refine bind_eq_ok_iff.2 ⟨_, hopened, bind_eq_ok_iff.2 ⟨_, indent_of_lt hlevel, ?_⟩⟩
    rw [writeText_append, writeText_append, hdescribed]
    exact bind_eq_ok_iff.2 ⟨_, bind_eq_ok_iff.2 ⟨_, hdefaulted, hfinished⟩, hafter⟩
  · rw [hafterOn.style, ← hopenedOn.style]
    exact hentries.style
  · -- leaving the level of the entries leads back to the level of the record
    have hback := congrArg Printer.level (outdent_deeper hlevel)
    rw [hafterOn.level, ← hopenedOn.level, ← hback, Printer.outdent, hentries.level]
    rfl

theorem printInitializer_eq (printer : Printer) :
    f.printInitializer printer = printer.writeText f.initializerText.toList :=
  print_eq_writeText String.toList_ofList rfl printer

theorem printRegistration_eq (printer : Printer) :
    f.printRegistration printer = printer.writeText f.registrationText.toList :=
  print_eq_writeText String.toList_ofList rfl printer

/-! ## Defaults in records -/

/-- Whether every record of a field has an initial default that is set to a literal, in a line of
its own: each printer that holds the level of the entries prints the record to its end. -/
def Emits (member literal : String) : Prop :=
  ∀ printer : Printer, printer.style.Holds (printer.level.toNat + 1) →
    ∃ after, f.printRecord printer = .ok after ∧
      (".defaultValue." ++ member ++ " = " ++ literal ++ ",\n").toList <:+: after.text.toList

theorem emits_of_defaultMember? {f : LoweredField} {member literal : String}
    (hdefault : f.defaultMember? = some ⟨member, literal⟩) (hmember : '\n' ∉ member.toList)
    (hliteral : '\n' ∉ literal.toList) : f.Emits member literal := by
  intro printer hholds
  have hentry : f.defaultEntry = ".defaultValue." ++ member ++ " = " ++ literal ++ ",\n" := by
    simp only [defaultEntry, hdefault]
  have hline : f.defaultEntry.toList =
      (".defaultValue.".toList ++ member.toList ++ " = ".toList ++ literal.toList ++ [',']) ++
        ['\n'] := by
    simp [hentry, String.toList_append]
  obtain ⟨described, defaulted, after, hfits, hdefaulted, hafter, hmore, -⟩ :=
    f.exists_printRecord hholds
  rw [hline] at hdefaulted
  have hwritten := suffix_text_of_writeText_line hfits (by simp [hmember, hliteral]) hdefaulted
  rw [← hline] at hwritten
  exact ⟨after, hafter, hentry ▸ hwritten.isInfix.trans hmore.isInfix⟩

end LoweredField

end ProtoExtensions
