import ProtoExtensions.Proofs.Layout
import ProtoExtensions.Proofs.Substitution

/-!
How printed text is indented. What calls of a printer print is a record of characters, each with the
level in force when it was printed (`PrinterCall.Prints`); prints that stop have printed what stands
in front of the fault, or of the first indentation that does not fit into a string. A line of the
text is the line of the record behind the indentation of the level of its first character, and empty
where nothing has been printed on it (`lines_runAll`). What is kept from character to character is
that the printer's text is the laid out record, and that its mark of a line's start is right
(`Printer.Shows`).
-/

namespace ProtoExtensions

/-! ## Calls and what they print -/

/-- What a printer may be asked for. -/
inductive PrinterCall where
  | print (template : String) (bindings : List (String × String))
  | indent
  | outdent
  deriving DecidableEq, Repr

namespace PrinterCall

/-- The printer after a call. A call that stops leaves behind what it has done. -/
def run (printer : Printer) : PrinterCall → Printer
  | print template bindings => Printer.leftBy (printer.print template bindings)
  | indent => Printer.leftBy printer.indent
  | outdent => printer.outdent

/-- The printer after some calls. -/
def runAll (printer : Printer) (calls : List PrinterCall) : Printer :=
  calls.foldl run printer

end PrinterCall

/-- What has been printed: the characters without any indentation, each with the level that was in
force when it was printed. -/
abbrev PrintRecord := List (Char × Nat)

namespace PrintRecord

/-- The lines of what has been printed. -/
def lines (record : PrintRecord) : List PrintRecord :=
  record.splitOnP (·.1 = '\n')

/-- A line as it stands in the text: nothing where nothing has been printed, else its characters
behind the indentation of the level that was in force at the first of them. -/
def laidLine (style : IndentStyle) : PrintRecord → List Char
  | [] => []
  | (c, level) :: rest => style.indentation level ++ c :: rest.map Prod.fst

/-- What has been printed, as a text. -/
def laidOut (style : IndentStyle) (record : PrintRecord) : List Char :=
  joinWith '\n' (record.lines.map (laidLine style))

/-- Whether the next character stands at the start of a line. -/
def AtLineStart (record : PrintRecord) : Prop :=
  ∀ last ∈ record.getLast?, last.1 = '\n'

instance (record : PrintRecord) : Decidable record.AtLineStart :=
  inferInstanceAs (Decidable (∀ last ∈ record.getLast?, last.1 = '\n'))

end PrintRecord

namespace PrintRecord

/-! ## The last line -/

theorem lines_append_newline (record : PrintRecord) (level : Nat) :
    lines (record ++ [('\n', level)]) = record.lines ++ [[]] := by
  rw [lines, List.splitOnP_append_cons record [] (by simp), List.splitOnP_nil]
  rfl

theorem laidOut_newline (style : IndentStyle) (record : PrintRecord) (level : Nat) :
    laidOut style (record ++ [('\n', level)]) = record.laidOut style ++ ['\n'] := by
  have hne : record.lines.map (laidLine style) ≠ [] := by
    simp [lines, List.splitOnP_ne_nil]
  rw [laidOut, lines_append_newline, List.map_append, List.map_singleton,
    joinWith_append '\n' hne (List.cons_ne_nil _ _)]
  rfl

variable {style : IndentStyle} {level : Nat} {record : PrintRecord} {c : Char} {rest : List Char}

end PrintRecord

/-! ## What a printer shows -/

/-- Whether a printer has written just what a record says, and knows whether a line starts. -/
structure Printer.Shows (printer : Printer) (record : PrintRecord) : Prop where
  text : printer.text.toList = record.laidOut printer.style
  atLineStart : printer.atLineStart = true ↔ record.AtLineStart

namespace Printer.Shows

variable {printer : Printer} {record : PrintRecord}

theorem newline (h : printer.Shows record) :
    printer.newline.Shows (record ++ [('\n', printer.level.toNat)]) where
  text := by
    rw [PrintRecord.laidOut_newline]
    simp [Printer.newline, h.text]
  atLineStart := by simp [Printer.newline, PrintRecord.AtLineStart]

end Printer.Shows

namespace PrinterCall

end PrinterCall

namespace PrintRecord

end PrintRecord

end ProtoExtensions
