import ProtoExtensions.Proofs.Indentation
import ProtoExtensions.Proofs.SourceLayout

/-!
What a piece of code adds to a printer depends on the style and the level of the printer alone.
Wherever a line starts, it is the text that the piece gives on a fresh printer, with the indentation
of the level in front of each line that is not empty, and then a line starts again on the same level
(`Piece.print_of_atLineStart`). So what several pieces add is put together from their texts, also
where the level changes between them (`EmissionStep.runAll_of_atLineStart`).
-/

namespace ProtoExtensions

open Printer

/-- The pieces of code that an extension gives rise to. -/
inductive Piece where
  | declaration
  | definition
  | record
  | initializer
  | registration
  deriving DecidableEq, Repr

namespace Piece

/-- Prints the piece of an extension. -/
def print : Piece → LoweredField → Printer → Except Stopped Printer
  | declaration => LoweredField.printDeclaration
  | definition => LoweredField.printDefinition
  | record => LoweredField.printRecord
  | initializer => LoweredField.printInitializer
  | registration => LoweredField.printRegistration

/-- The text of the piece of an extension. Only the record looks at the style. -/
def text (style : IndentStyle) : Piece → LoweredField → String
  | declaration, f => f.declarationText
  | definition, f => f.definitionText
  | record, f => f.recordText style
  | initializer, f => f.initializerText
  | registration, f => f.registrationText

/-- How many levels the piece goes further in. -/
def depth : Piece → Nat
  | record => 1
  | _ => 0

theorem printsLines (piece : Piece) (f : LoweredField) :
    PrintsLines (piece.print f) piece.depth fun style => piece.text style f := by
  cases piece with
  | declaration => exact f.printsLines_declaration
  | definition => exact f.printsLines_definition
  | record => exact f.printsLines_record
  | initializer => exact f.printsLines_initializer
  | registration => exact f.printsLines_registration

end Piece

namespace Printer

variable {printer : Printer}

/-- The printer with more text, on some level. -/
def advance (printer : Printer) (more : String) (level : UInt64) : Printer :=
  { printer with text := printer.text ++ more, level := level }

theorem advance_advance (printer : Printer) (a b : String) (level next : UInt64) :
    (printer.advance a level).advance b next = printer.advance (a ++ b) next := by
  simp only [advance, String.append_assoc]

theorem Adds.eq_advance {piece : Printer → Except Stopped Printer} {more : String}
    (h : Adds piece printer printer more) (hstart : printer.atLineStart = true) :
    piece printer = .ok (printer.advance more printer.level) := by
  have hself : printer.afterLines printer.text = printer := by rw [afterLines, ← hstart]
  have hmore : printer.afterLines (printer.text ++ more) = printer.advance more printer.level := by
    rw [afterLines, advance, hstart]
  have hadds := h printer.text
  rwa [hself, hmore] at hadds

end Printer

theorem Piece.print_of_atLineStart {printer : Printer} (hstart : printer.atLineStart = true)
    {piece : Piece} (hholds : printer.style.Holds (printer.level.toNat + piece.depth))
    (f : LoweredField) :
    piece.print f printer = .ok (printer.advance (indented
      (printer.style.indentation printer.level.toNat) (piece.text printer.style f))
        printer.level) :=
  (piece.printsLines f printer hholds).eq_advance hstart

/-! ## Several pieces -/

/-- What is done with a printer while pieces are printed: one is printed, or the level changes. -/
inductive EmissionStep where
  | emit (piece : Piece) (f : LoweredField)
  | indent
  | outdent

namespace EmissionStep

/-- The printer after a step. -/
def run (printer : Printer) : EmissionStep → Except Stopped Printer
  | emit piece f => piece.print f printer
  | indent => printer.indent
  | outdent => .ok printer.outdent

/-- The printer after several steps. -/
def runAll (printer : Printer) (steps : List EmissionStep) : Except Stopped Printer :=
  steps.foldlM run printer

/-- The level after a step. -/
def levelAfter (level : UInt64) : EmissionStep → UInt64
  | emit _ _ => level
  | indent => level + 1
  | outdent => if level = 0 then 0 else level - 1

/-- Whether the levels that a step goes to are held. -/
def IsHeld (style : IndentStyle) (level : UInt64) : EmissionStep → Prop
  | emit piece _ => style.Holds (level.toNat + piece.depth)
  | indent => level.toNat < maxWord
  | outdent => True

/-- Whether the levels that steps go to are held. -/
def AreHeld (style : IndentStyle) : UInt64 → List EmissionStep → Prop
  | _, [] => True
  | level, step :: steps => step.IsHeld style level ∧ AreHeld style (step.levelAfter level) steps

instance (style : IndentStyle) (level : UInt64) :
    (step : EmissionStep) → Decidable (step.IsHeld style level)
  | emit piece _ => inferInstanceAs (Decidable (style.Holds (level.toNat + piece.depth)))
  | indent => inferInstanceAs (Decidable (level.toNat < maxWord))
  | outdent => .isTrue trivial

instance decidableAreHeld (style : IndentStyle) :
    (level : UInt64) → (steps : List EmissionStep) → Decidable (AreHeld style level steps)
  | _, [] => .isTrue trivial
  | level, step :: steps =>
    have := decidableAreHeld style (step.levelAfter level) steps
    inferInstanceAs (Decidable (step.IsHeld style level ∧ _))

/-- The text that a step gives on a level. -/
def textOn (style : IndentStyle) (level : UInt64) : EmissionStep → String
  | emit piece f => indented (style.indentation level.toNat) (piece.text style f)
  | indent | outdent => ""

/-- The text that steps give from a level on. -/
def textFrom (style : IndentStyle) : UInt64 → List EmissionStep → String
  | _, [] => ""
  | level, step :: steps => step.textOn style level ++ textFrom style (step.levelAfter level) steps

theorem run_of_atLineStart {printer : Printer} (hstart : printer.atLineStart = true)
    {step : EmissionStep} (hheld : step.IsHeld printer.style printer.level) :
    run printer step = .ok (printer.advance (step.textOn printer.style printer.level)
      (step.levelAfter printer.level)) := by
  cases step with
  | emit piece f => exact Piece.print_of_atLineStart hstart hheld f
  | indent =>
    rw [run, indent_of_lt hheld, advance, textOn, levelAfter, String.append_empty]
    rfl
  | outdent =>
    rw [run, advance, textOn, levelAfter, String.append_empty]
    rfl

/-- Steps from the start of a line add their texts, each on its level, and end at the start of a
line. -/
theorem runAll_of_atLineStart {printer : Printer} (hstart : printer.atLineStart = true)
    {steps : List EmissionStep} (hheld : AreHeld printer.style printer.level steps) :
    runAll printer steps = .ok (printer.advance (textFrom printer.style printer.level steps)
      (steps.foldl levelAfter printer.level)) := by
  induction steps generalizing printer with
  | nil =>
    simp only [runAll, textFrom, advance, String.append_empty]
    rfl
  | cons step steps ih =>
    refine bind_eq_ok_iff.2 ⟨_, run_of_atLineStart hstart hheld.1, ?_⟩
    have hnext : (printer.advance (step.textOn printer.style printer.level)
        (step.levelAfter printer.level)).atLineStart = true := hstart
    have hmore := ih hnext hheld.2
    rw [advance_advance] at hmore
    exact hmore

end EmissionStep

theorem OuterClass.printEach_of_atLineStart {printer : Printer}
    (hstart : printer.atLineStart = true) (c : OuterClass) {piece : Piece}
    (hholds : printer.style.Holds (printer.level.toNat + piece.depth)) :
    c.printEach piece.print printer = .ok (printer.advance
      (String.join (c.extensions.map fun f =>
        indented (printer.style.indentation printer.level.toNat) (piece.text printer.style f)))
        printer.level) :=
  (c.adds_each fun f => piece.printsLines f printer hholds).eq_advance hstart

/-- A printer in the widest style, one level further in. -/
def widePrinter : Printer where
  style := .widest
  level := 1

/-- No string holds the indentation of that printer: a piece that is printed on a fresh printer of
its style is not printed there. -/
theorem not_printed_widePrinter :
    widePrinter.atLineStart = true ∧
    rendered (Piece.definition.print LoweredField.twoLineExtendee) widePrinter.style =
      .ok (Piece.definition.text widePrinter.style LoweredField.twoLineExtendee) ∧
    Piece.definition.print LoweredField.twoLineExtendee widePrinter =
      .error ⟨.overflow .capacity, widePrinter⟩ := by
  refine ⟨rfl, ((Piece.definition.printsLines _).rendered_eq (IndentStyle.holds_zero _)), ?_⟩
  have hfirst : LoweredField.twoLineExtendee.definitionText.toList =
      'C' :: LoweredField.twoLineExtendee.definitionText.toList.tail := by decide +kernel
  have hline := @writeLine_widest widePrinter rfl rfl rfl 'C'
  rw [Piece.print, LoweredField.printDefinition_eq, hfirst, writeText_cons _ (by decide), hline]
  rfl

/-- **Emission is compositional.** Wherever a line starts, behind any text and on any level of which
a string holds the indentation, a piece of an extension adds the text that it gives on a fresh
printer of the style, with the indentation of the level in front of each line that is not empty, and
leaves the start of a line on that level; the record needs a string to hold the indentation of the
next level as well. So do the pieces of all extensions of a class, whatever header map it has; and
steps with changes of the level between them add their texts in turn, each on the level in force. -/
theorem emission_compositional {printer : Printer} (hstart : printer.atLineStart = true) :
    (∀ (piece : Piece) (f : LoweredField),
      printer.style.Holds (printer.level.toNat + piece.depth) →
        rendered (piece.print f) printer.style = .ok (piece.text printer.style f) ∧
        piece.print f printer = .ok { printer with
          text := printer.text ++ indented (printer.style.indentation printer.level.toNat)
            (piece.text printer.style f) }) ∧
    (∀ (piece : Piece) (c : OuterClass),
      printer.style.Holds (printer.level.toNat + piece.depth) →
        c.printEach piece.print printer = .ok { printer with
          text := printer.text ++ String.join (c.extensions.map fun f =>
            indented (printer.style.indentation printer.level.toNat)
              (piece.text printer.style f)) }) ∧
    ∀ steps : List EmissionStep, EmissionStep.AreHeld printer.style printer.level steps →
      EmissionStep.runAll printer steps = .ok { printer with
        text := printer.text ++ EmissionStep.textFrom printer.style printer.level steps
        level := steps.foldl EmissionStep.levelAfter printer.level } := by
  refine ⟨fun piece f hholds => ⟨?_, ?_⟩, fun piece c hholds => ?_, fun steps hheld => ?_⟩
  · exact (piece.printsLines f).rendered_eq (hholds.mono (Nat.le_add_left _ _))
  · exact piece.print_of_atLineStart hstart hholds f
  · exact c.printEach_of_atLineStart hstart hholds
  · exact EmissionStep.runAll_of_atLineStart hstart hheld

/-- A printer that has been used, on a level further in. -/
def usedPrinter : Printer where
  style := .tabs
  text := "x\n"
  level := 1

/-- Both lines of a class name with a line break are indented, and each piece on its own level. -/
theorem emission_compositional_usedPrinter :
    usedPrinter.atLineStart = true ∧
    Piece.definition.print LoweredField.twoLineExtendee usedPrinter = .ok { usedPrinter with
      text := "x\n\tCGPGeneratedExtension<X_A\n\tB *, JavaLangInteger *> *X_e;\n" } ∧
    EmissionStep.runAll usedPrinter [.outdent, .emit .definition LoweredField.twoLineExtendee,
        .indent, .emit .initializer LoweredField.twoLineExtendee] = .ok { usedPrinter with
      text := "x\nCGPGeneratedExtension<X_A\nB *, JavaLangInteger *> *X_e;\n" ++
        "\tX_e = CGPNewGeneratedExtension(&X_e_FieldData);\n" } := by
  have hstart : usedPrinter.atLineStart = true := rfl
  obtain ⟨hpiece, -, hsteps⟩ := emission_compositional hstart
  have hdefinition : usedPrinter.text ++ indented
      (usedPrinter.style.indentation usedPrinter.level.toNat)
      (Piece.definition.text usedPrinter.style LoweredField.twoLineExtendee) =
        "x\n\tCGPGeneratedExtension<X_A\n\tB *, JavaLangInteger *> *X_e;\n" := by
    decide +kernel
  have hboth : usedPrinter.text ++ EmissionStep.textFrom usedPrinter.style usedPrinter.level
      [.outdent, .emit .definition LoweredField.twoLineExtendee, .indent,
        .emit .initializer LoweredField.twoLineExtendee] =
        "x\nCGPGeneratedExtension<X_A\nB *, JavaLangInteger *> *X_e;\n" ++
          "\tX_e = CGPNewGeneratedExtension(&X_e_FieldData);\n" := by
    decide +kernel
  have hheld : EmissionStep.AreHeld usedPrinter.style usedPrinter.level
      [.outdent, .emit .definition LoweredField.twoLineExtendee, .indent,
        .emit .initializer LoweredField.twoLineExtendee] := by decide
  refine ⟨hstart, ?_, ?_⟩
  · rw [(hpiece .definition LoweredField.twoLineExtendee (by decide)).2, hdefinition]
  · rw [hsteps _ hheld, hboth]
    rfl

end ProtoExtensions
