import ProtoExtensions.Proofs.Artifacts
import ProtoExtensions.Proofs.ResolvedField

/-!
Where code generation can fail. Only a field that breaks a rule is refused (`ExtensionField.Breaks`,
`violation?_eq_none_iff`), and it is refused as a whole, before anything is printed. A field that is
accepted has a class and an initial default, and what is done with it afterwards does not fail for
anything in it: each operation succeeds where a string holds the indentations that it needs, so any
sequence of operations does (`Operation.runAll_ok`), and nothing but an overflow stops it
(`Operation.onlyOverflows_runAll`).
-/

namespace ProtoExtensions

open Printer

/-- Whether values of some kind are what fields of a type hold. -/
inductive ValueKind.Fits : FieldType → ValueKind → Prop where
  | scalar {type : FieldType} (h : type.isReference = false) : Fits type .scalar
  | message (type : TypeRef) : Fits .message (.message type)
  | group (type : TypeRef) : Fits .group (.message type)
  | enum (e : EnumRef) : Fits .enum (.enum e)

/-- A rule that a field breaks. A field can break several. -/
inductive ExtensionField.Breaks (field : ExtensionField) : Violation → Prop where
  | required (h : field.cardinality = .required) : Breaks field .required
  | kindMismatch (h : ¬ field.value.Fits field.type) : Breaks field .kindMismatch
  | repeatedDefault (hdefault : field.defaultValue.isSome = true)
    (hlabel : field.cardinality = .repeated) : Breaks field .repeatedDefault
  | referenceDefault (hdefault : field.defaultValue.isSome = true)
    (htype : field.type = .message ∨ field.type = .group) : Breaks field .referenceDefault
  | badPacking (hpacked : field.packed = true)
    (h : field.cardinality ≠ .repeated ∨ field.type.isLengthDelimited = true) :
    Breaks field .badPacking
  | defaultMismatch {default : DefaultValue} (hdefault : field.defaultValue = some default)
    (h : default.fits field.type = false) : Breaks field (.defaultMismatch default)
  | emptyEnum {e : EnumRef} (htype : field.type = .enum) (hdefault : field.defaultValue = none)
    (hvalue : field.value = .enum e) (h : e.values = []) : Breaks field (.emptyEnum e)

namespace ExtensionField

variable {field : ExtensionField}

theorem kindFits_iff : field.kindFits = true ↔ field.value.Fits field.type := by
  unfold kindFits
  generalize field.type = type, field.value = value
  constructor
  · intro h
    cases value with
    | scalar =>
      refine .scalar ?_
      cases type <;> simp_all [FieldType.isReference]
    | message t =>
      cases type <;> simp at h
      · exact .group t
      · exact .message t
    | enum e =>
      cases type <;> simp at h
      exact .enum e
  · intro h
    cases h with
    | scalar href => cases type <;> simp_all [FieldType.isReference]
    | message | group | enum => rfl

theorem defaultMember_of_not_fits {default : DefaultValue} (hd : field.defaultValue = some default)
    (hf : default.fits field.type = false) :
    field.defaultMember = .error (.defaultMismatch default) := by
  unfold defaultMember
  rw [hd]
  generalize field.type = type at hf
  cases type <;> cases default <;> first | rfl | cases hf

/-- The parts of the check: no rule is broken exactly if none of them finds one. -/
theorem violation?_eq_none_iff_checks : field.violation? = none ↔
    field.cardinality ≠ .required ∧ field.kindFits = true ∧
    (field.defaultValue.isSome = true → field.isRepeated = false ∧
      ¬ (field.type = .message ∨ field.type = .group)) ∧
    (field.packed = true → (field.isRepeated && field.type.isPackable) = true) ∧
    ∃ member, field.defaultMember = .ok member := by
  unfold violation?
  cases hm : field.defaultMember with
  | ok member => grind
  | error violation => grind

theorem defaultMember_of_emptyEnum {e : EnumRef} (htype : field.type = .enum)
    (hdefault : field.defaultValue = none) (hvalue : field.value = .enum e) (h : e.values = []) :
    field.defaultMember = .error (.emptyEnum e) := by
  simp [defaultMember, htype, hdefault, hvalue, EnumRef.firstValue?, h]

theorem breaks_of_defaultMember_eq_error {violation : Violation}
    (hkind : field.value.Fits field.type) (h : field.defaultMember = .error violation) :
    field.Breaks violation := by
  cases hd : field.defaultValue with
  | some default =>
    cases hf : default.fits field.type with
    | true =>
      obtain ⟨member, hmember⟩ := defaultMember_of_fits hd hf
      cases hmember.symm.trans h
    | false =>
      cases (defaultMember_of_not_fits hd hf).symm.trans h
      exact .defaultMismatch hd hf
  | none =>
    cases ht : field.type with
    | enum =>
      rw [ht] at hkind
      cases hv : field.value with
      | enum e =>
        cases hvalues : e.values with
        | nil =>
          cases (defaultMember_of_emptyEnum ht hd hv hvalues).symm.trans h
          exact .emptyEnum ht hd hv hvalues
        | cons first rest =>
          simp [defaultMember, ht, hd, hv, EnumRef.firstValue?, hvalues] at h
      | scalar =>
        rw [hv] at hkind
        cases hkind with
        | scalar href => cases href
      | message =>
        rw [hv] at hkind
        cases hkind
    | _ => simp [defaultMember, ht, hd] at h

/-- A rule that is reported is broken. -/
theorem breaks_of_violation?_eq_some {violation : Violation}
    (h : field.violation? = some violation) : field.Breaks violation := by
  unfold violation? at h
  split at h
  · next hlabel => cases h; exact .required hlabel
  split at h
  · next hkind =>
    cases h
    refine .kindMismatch fun hfits => ?_
    rw [kindFits_iff.2 hfits] at hkind
    cases hkind
  -- the last check needs the kind to fit: it takes an enum field to hold an enum
  next hkind =>
  split at h
  · next hdefault =>
    cases h
    simp only [isRepeated, Bool.and_eq_true, beq_iff_eq] at hdefault
    exact .repeatedDefault hdefault.1 hdefault.2
  split at h
  · next hdefault =>
    cases h
    simp only [Bool.and_eq_true, Bool.or_eq_true, beq_iff_eq] at hdefault
    exact .referenceDefault hdefault.1 hdefault.2
  split at h
  · next hpacked =>
    cases h
    simp only [isRepeated, FieldType.isPackable, Bool.and_eq_true, Bool.not_eq_true',
      Bool.and_eq_false_iff, beq_eq_false_iff_ne, Bool.not_eq_false'] at hpacked
    exact .badPacking hpacked.1 hpacked.2
  split at h
  · cases h
  · next hmember =>
    cases h
    exact breaks_of_defaultMember_eq_error (kindFits_iff.1 (by simpa using hkind)) hmember

/-- A field is accepted exactly if it breaks no rule. -/
theorem violation?_eq_none_iff :
    field.violation? = none ↔ ∀ violation, ¬ field.Breaks violation := by
  constructor
  · intro h violation hbreaks
    obtain ⟨hlabel, hkind, hdefault, hpacked, member, hmember⟩ := violation?_eq_none_iff_checks.1 h
    cases hbreaks with
    | required h => exact hlabel h
    | kindMismatch h => exact h (kindFits_iff.1 hkind)
    | repeatedDefault hd h =>
      have hrepeated := (hdefault hd).1
      simp [isRepeated, h] at hrepeated
    | referenceDefault hd h => exact (hdefault hd).2 h
    | badPacking hp h =>
      have hpackable := hpacked hp
      simp only [isRepeated, FieldType.isPackable, Bool.and_eq_true, beq_iff_eq,
        Bool.not_eq_true'] at hpackable
      rcases h with h | h
      · exact h hpackable.1
      · rw [hpackable.2] at h; cases h
    | defaultMismatch hd hf => cases hmember.symm.trans (defaultMember_of_not_fits hd hf)
    | emptyEnum ht hd hv hvalues =>
      cases hmember.symm.trans (defaultMember_of_emptyEnum ht hd hv hvalues)
  · intro h
    cases hv : field.violation? with
    | none => rfl
    | some violation => exact absurd (breaks_of_violation?_eq_some hv) (h violation)

end ExtensionField

namespace LoweredField

theorem ofField_eq_ok {field : ExtensionField} {f : LoweredField} (h : ofField field = .ok f) :
    f.field = field := by
  unfold ofField at h
  split at h
  · cases h; rfl
  · cases h

theorem ofField_eq_error_iff {field : ExtensionField} {violation : Violation} :
    ofField field = .error violation ↔ field.violation? = some violation := by
  unfold ofField
  constructor
  · intro h
    split at h
    · cases h
    · next hviolation => cases h; exact hviolation
  · intro h
    split
    · next hnone => cases hnone.symm.trans h
    · next hsome => cases hsome.symm.trans h; rfl

theorem valueClass_eq (f : LoweredField) : f.field.valueClass = .ok f.valueClass := by
  have hclass : f.field.valueClass? = some f.valueClass := (Option.some_get _).symm
  rw [ExtensionField.valueClass, hclass]

theorem defaultMember?_eq (f : LoweredField) : f.field.defaultMember = .ok f.defaultMember? := by
  obtain ⟨member, hmember⟩ := ExtensionField.defaultMember_of_violation?_eq_none f.sound
  rw [defaultMember?, hmember]

end LoweredField

/-! ## What is done with a lowered field -/

/-- One use of a lowered field: it adds names to a set, or prints a piece. -/
inductive Operation where
  | sourceImport
  | forwardClasses
  | declaration
  | definition
  | record
  | initializer
  | registration
  deriving DecidableEq, Repr

/-- What the uses of lowered fields write to: a printer, the headers to include, and the classes to
introduce. -/
structure Sinks where
  printer : Printer := {}
  imports : NameSet := .empty
  classes : NameSet := .empty

namespace Sinks

/-- The sinks after a piece is printed. -/
def print (sinks : Sinks) (piece : Printer → Except Stopped Printer) : Except Stopped Sinks :=
  (piece sinks.printer).map fun printer => { sinks with printer := printer }

end Sinks

namespace Operation

/-- One use of a field. -/
def run (headers : HeaderMap) (f : LoweredField) (sinks : Sinks) :
    Operation → Except Stopped Sinks
  | sourceImport =>
    .ok { sinks with imports := sinks.imports.insertAll (f.sourceImport? headers).toList }
  | forwardClasses => .ok { sinks with classes := sinks.classes.insertAll f.forwardClasses }
  | declaration => sinks.print f.printDeclaration
  | definition => sinks.print f.printDefinition
  | record => sinks.print f.printRecord
  | initializer => sinks.print f.printInitializer
  | registration => sinks.print f.printRegistration

/-- Several uses of a field in turn. -/
def runAll (headers : HeaderMap) (f : LoweredField) (sinks : Sinks) (operations : List Operation) :
    Except Stopped Sinks :=
  operations.foldlM (run headers f) sinks

/-- How many levels a use goes further in with the printer. -/
def depth : Operation → Nat
  | record => 1
  | _ => 0

variable (headers : HeaderMap) (f : LoweredField)

theorem run_print_ok {sinks : Sinks} {piece : Printer → Except Stopped Printer} {text : String}
    (hpiece : ∀ printer : Printer, piece printer = printer.writeText text.toList)
    (h : sinks.printer.Fits) : ∃ after, sinks.print piece = .ok after ∧
      after.printer.style = sinks.printer.style ∧ after.printer.level = sinks.printer.level := by
  obtain ⟨printer, hwritten, hon⟩ := exists_writeText h text.toList
  exact ⟨_, map_eq_ok_iff.2 ⟨_, (hpiece _).trans hwritten, rfl⟩, hon.style, hon.level⟩

/-- A use ends well where the levels that it goes to are held, and stays on its level. -/
theorem run_ok {sinks : Sinks} {operation : Operation}
    (h : sinks.printer.style.Holds (sinks.printer.level.toNat + operation.depth)) :
    ∃ after, operation.run headers f sinks = .ok after ∧
      after.printer.style = sinks.printer.style ∧ after.printer.level = sinks.printer.level := by
  cases operation with
  | sourceImport | forwardClasses => exact ⟨_, rfl, rfl, rfl⟩
  | declaration => exact run_print_ok f.printDeclaration_eq h.2
  | definition => exact run_print_ok f.printDefinition_eq h.2
  | initializer => exact run_print_ok f.printInitializer_eq h.2
  | registration => exact run_print_ok f.printRegistration_eq h.2
  | record =>
    obtain ⟨-, -, after, -, -, hafter, -, hstyle, hlevel⟩ := f.exists_printRecord h
    exact ⟨_, map_eq_ok_iff.2 ⟨_, hafter, rfl⟩, hstyle, hlevel⟩

/-- So do uses in whatever order and however often. -/
theorem runAll_ok {sinks : Sinks} {operations : List Operation}
    (h : ∀ operation ∈ operations,
      sinks.printer.style.Holds (sinks.printer.level.toNat + operation.depth)) :
    ∃ after, runAll headers f sinks operations = .ok after := by
  induction operations generalizing sinks with
  | nil => exact ⟨sinks, rfl⟩
  | cons operation operations ih =>
    obtain ⟨next, hnext, hstyle, hlevel⟩ := run_ok headers f (h operation List.mem_cons_self)
    have hmore : ∀ other ∈ operations,
        next.printer.style.Holds (next.printer.level.toNat + other.depth) := by
      rw [hstyle, hlevel]
      exact fun other hother => h other (List.mem_cons_of_mem operation hother)
    obtain ⟨after, hafter⟩ := ih hmore
    exact ⟨after, bind_eq_ok_iff.2 ⟨next, hnext, hafter⟩⟩

theorem onlyOverflows_print {piece : Printer → Except Stopped Printer}
    (h : ∀ printer, OnlyOverflows (piece printer)) (sinks : Sinks) :
    OnlyOverflows (sinks.print piece) := by
  intro stopped hstopped
  unfold Sinks.print at hstopped
  cases hpiece : piece sinks.printer with
  | ok printer => rw [hpiece] at hstopped; cases hstopped
  | error first =>
    rw [hpiece] at hstopped
    cases hstopped
    exact h _ stopped hpiece

theorem onlyOverflows_printRecord (printer : Printer) : OnlyOverflows (f.printRecord printer) := by
  rw [f.printRecord_eq]
  exact .bind (onlyOverflows_writeText _ _) fun opened => .bind (onlyOverflows_indent opened)
    fun indented => .bind (onlyOverflows_writeText _ _) fun finished =>
      onlyOverflows_writeText _ _

theorem onlyOverflows_run (sinks : Sinks) (operation : Operation) :
    OnlyOverflows (operation.run headers f sinks) := by
  have htext {piece : Printer → Except Stopped Printer} {text : String}
      (hpiece : ∀ printer : Printer, piece printer = printer.writeText text.toList) :
      OnlyOverflows (sinks.print piece) :=
    onlyOverflows_print (fun printer => hpiece printer ▸ onlyOverflows_writeText _ _) sinks
  cases operation with
  | sourceImport | forwardClasses => exact .ok _
  | declaration => exact htext f.printDeclaration_eq
  | definition => exact htext f.printDefinition_eq
  | initializer => exact htext f.printInitializer_eq
  | registration => exact htext f.printRegistration_eq
  | record => exact onlyOverflows_print (onlyOverflows_printRecord f) sinks

theorem onlyOverflows_runAll (sinks : Sinks) (operations : List Operation) :
    OnlyOverflows (runAll headers f sinks operations) := by
  induction operations generalizing sinks with
  | nil => exact .ok sinks
  | cons operation operations ih => exact .bind (onlyOverflows_run headers f sinks operation) ih

end Operation

/-- **All or nothing.** A field is refused exactly if it breaks a rule, and the rule that is
reported is one it breaks. An accepted field is kept as it is, and has a class and an initial
default that can be told. Whatever is done with it after this, in any order, any number of times,
and whatever has been printed and collected before, ends well if a string holds the indentations of
the levels that are gone to; and nothing but an overflow can stop it. -/
theorem LoweredField.ofField_allOrNothing (field : ExtensionField) :
    ((∃ violation, ofField field = .error violation) ↔ ∃ violation, field.Breaks violation) ∧
    (∀ violation, ofField field = .error violation → field.Breaks violation) ∧
    ∀ f, ofField field = .ok f →
      f.field = field ∧ field.valueClass = .ok f.valueClass ∧
      field.defaultMember = .ok f.defaultMember? ∧
      ∀ headers sinks operations,
        ((∀ operation ∈ operations,
            sinks.printer.style.Holds (sinks.printer.level.toNat + operation.depth)) →
          ∃ after, Operation.runAll headers f sinks operations = .ok after) ∧
        ∀ stopped, Operation.runAll headers f sinks operations = .error stopped →
          ∃ overflow, stopped.fault = .overflow overflow := by
  have hreported : ∀ violation, ofField field = .error violation → field.Breaks violation :=
    fun _ h => ExtensionField.breaks_of_violation?_eq_some (ofField_eq_error_iff.1 h)
  refine ⟨⟨fun ⟨violation, h⟩ => ⟨violation, hreported violation h⟩, ?_⟩, hreported, ?_⟩
  · rintro ⟨broken, hbroken⟩
    cases hv : field.violation? with
    | none => exact absurd hbroken (ExtensionField.violation?_eq_none_iff.1 hv broken)
    | some violation => exact ⟨violation, ofField_eq_error_iff.2 hv⟩
  · intro f hf
    obtain rfl := ofField_eq_ok hf
    exact ⟨rfl, f.valueClass_eq, f.defaultMember?_eq, fun headers sinks operations =>
      ⟨Operation.runAll_ok headers f, Operation.onlyOverflows_runAll headers f sinks operations⟩⟩

/-- A packed repeated extension of an enum with some values. -/
def packedEnum (values : List EnumValue) : ExtensionField where
  name := "e"
  number := 1
  type := .enum
  value := .enum ⟨⟨⟨"x.proto", "", none, none, false, ["E"]⟩, ["E"]⟩, values⟩
  extendee := ⟨⟨"x.proto", "", none, none, false, ["M"]⟩, ["M"]⟩
  scope := .file ⟨"x.proto", "", none, none, false, ["M"]⟩
  cardinality := .repeated
  packed := true

/-- The enum needs a first value although the field is repeated. With it, pieces are printed in the
middle of a line, and twice. -/
theorem LoweredField.ofField_allOrNothing_packedEnum :
    (∃ violation, ofField (packedEnum []) = .error violation) ∧
    ∃ f, ofField (packedEnum [⟨"A", 0⟩]) = .ok f ∧
      ∃ after, Operation.runAll {} f
        { printer := { text := "$", level := 3, atLineStart := false } }
        [.record, .registration, .record, .sourceImport, .declaration] = .ok after := by
  have hbroken : (packedEnum []).Breaks (.emptyEnum _) := .emptyEnum rfl rfl rfl rfl
  have hsound : (packedEnum [⟨"A", 0⟩]).violation? = none := by decide
  obtain ⟨f, hf⟩ := ofField_eq_ok_iff.2 hsound
  obtain ⟨-, -, -, huse⟩ := (ofField_allOrNothing _).2.2 f hf
  exact ⟨(ofField_allOrNothing _).1.2 ⟨_, hbroken⟩, f, hf, (huse _ _ _).1 (by decide)⟩

/-- A fresh printer in the widest style. -/
def wideFresh : Printer where
  style := .widest

/-- No string holds the indentation of its first level: a record is opened and stops there. -/
theorem LoweredField.exists_printRecord_wideFresh (f : LoweredField) :
    ∃ printer, f.printRecord wideFresh = .error ⟨.overflow .capacity, printer⟩ := by
  obtain ⟨rest, hrest⟩ : ∃ rest, f.recordEntries.toList = '.' :: rest := by
    unfold recordEntries fieldEntries
    simp only [String.append_assoc]
    exact ⟨_, toList_append_of String.toList_ofList rfl⟩
  have hends : EndsLine f.recordOpening := endsLine_append rfl
  have hfits : wideFresh.Fits := (IndentStyle.holds_zero _).2
  have hopening := writeText_afterLines hfits "" hends
  have hfresh : wideFresh.afterLines "" = wideFresh := rfl
  have hlevel : wideFresh.level.toNat < maxWord := by decide
  have hindent (text : String) : (wideFresh.afterLines text).indent =
      .ok (wideFresh.deeper.afterLines text) := indent_of_lt hlevel
  have hline (text : String) : (wideFresh.deeper.afterLines text).writeLine ['.'] =
      .error ⟨.overflow .capacity, wideFresh.deeper.afterLines text⟩ :=
    writeLine_widest rfl rfl rfl '.'
  rw [hfresh] at hopening
  refine ⟨wideFresh.deeper.afterLines ("" ++ indented wideFresh.indentation f.recordOpening), ?_⟩
  rw [f.printRecord_eq, hopening, hrest]
  simp only [bind, Except.bind, hindent]
  rw [writeText_cons _ (by decide), hline]
  rfl

/-- An accepted field can fail after all: where no string holds the indentation of the first level,
its record is not printed to its end. -/
theorem LoweredField.stops_wideRecord :
    ∃ f, ofField (packedEnum [⟨"A", 0⟩]) = .ok f ∧
      ∃ stopped, Operation.runAll {} f { printer := wideFresh } [.record] = .error stopped ∧
        stopped.fault = .overflow .capacity := by
  have hsound : (packedEnum [⟨"A", 0⟩]).violation? = none := by decide
  obtain ⟨f, hf⟩ := ofField_eq_ok_iff.2 hsound
  obtain ⟨printer, hstops⟩ := f.exists_printRecord_wideFresh
  refine ⟨f, hf, ⟨.overflow .capacity, printer⟩, ?_, rfl⟩
  simp [Operation.runAll, Operation.run, Sinks.print, hstops, Except.map, bind, Except.bind]

end ProtoExtensions
