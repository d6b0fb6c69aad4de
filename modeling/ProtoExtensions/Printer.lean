import ProtoExtensions.Text.Lines
import ProtoExtensions.Text.Quoted

/-!
A printer for indented text. A text is written line by line, and a line that is not empty is
preceded by the indentation of the level in force where it starts. A template names variables
between dollar signs: the text between two dollar signs is replaced by the variable's value, which
is not looked at again, and two dollar signs in a row stand for one.

Levels and widths are machine words, and arithmetic on them is checked. An indentation whose length
does not fit into a word, or into a string, stops what needs it. Texts themselves may be of any
length.
-/

namespace ProtoExtensions

/-- The largest machine word. -/
def maxWord : Nat := 0xFFFFFFFFFFFFFFFF

/-- The most bytes that a string can be made with. -/
def maxCapacity : Nat := 0x7FFFFFFFFFFFFFFF

/-- What one level of indentation consists of. -/
inductive IndentStyle where
  | spaces (width : UInt64)
  | tabs
  deriving DecidableEq, Repr

namespace IndentStyle

/-- Two spaces a level. -/
def standard : IndentStyle := .spaces 2

/-- The character that indentation is made of. -/
def mark : IndentStyle → Char
  | spaces _ => ' '
  | tabs => '\t'

/-- The number of characters that one level is indented by. -/
def width : IndentStyle → Nat
  | spaces width => width.toNat
  | tabs => 1

end IndentStyle

/-- The text written so far, the indentation level, and whether the next character starts a line. -/
structure Printer where
  style : IndentStyle := .standard
  text : String := ""
  level : UInt64 := 0
  atLineStart : Bool := true
  deriving DecidableEq

/-- What is wrong with a template under given bindings: a dollar sign without its partner, or a
variable that has no value. -/
inductive TemplateFault where
  | unterminated (template : String)
  | unbound (name : String)
  deriving DecidableEq, Repr

/-- The text that reports a template fault. -/
def TemplateFault.message : TemplateFault → String
  | unterminated template => "unterminated variable in template " ++ quoted template
  | unbound name => "template variable $" ++ name ++ "$ is not bound"

/-- What does not fit: the next level or the length of an indentation into a machine word, or an
indentation into a string. -/
inductive Overflow where
  | level
  | length
  | capacity
  deriving DecidableEq, Repr

/-- The text that reports an overflow. -/
def Overflow.message : Overflow → String
  | level => "attempt to add with overflow"
  | length => "attempt to multiply with overflow"
  | capacity => "capacity overflow"

/-- Why a printer stops. -/
inductive PrintFault where
  | template (fault : TemplateFault)
  | overflow (overflow : Overflow)
  deriving DecidableEq, Repr

/-- The text that reports why a printer stops. -/
def PrintFault.message : PrintFault → String
  | template fault => fault.message
  | overflow cause => cause.message

namespace Printer

/-- A call that stopped at a fault, with the printer as it was left. -/
structure Stopped where
  fault : PrintFault
  printer : Printer

/-! ## Levels -/

/-- The indentation of the current level. -/
def indentString (printer : Printer) : Except Overflow String :=
  let length := printer.level.toNat * printer.style.width
  if maxWord < length then .error .length
  else if maxCapacity < length then .error .capacity
  else .ok (String.ofList (List.replicate length printer.style.mark))

/-- The printer one level further in. -/
def indent (printer : Printer) : Except Stopped Printer :=
  if printer.level.toNat = maxWord then .error ⟨.overflow .level, printer⟩
  else .ok { printer with level := printer.level + 1 }

/-- The printer one level further out; the outermost level stays. -/
def outdent (printer : Printer) : Printer :=
  { printer with level := if printer.level = 0 then 0 else printer.level - 1 }

/-! ## Writing -/

/-- Writes a piece of a line, behind the indentation if it starts the line. -/
def writeLine (printer : Printer) (line : List Char) : Except Stopped Printer :=
  if line.isEmpty then .ok printer
  else if printer.atLineStart then
    match printer.indentString with
    | .error overflow => .error ⟨.overflow overflow, printer⟩
    | .ok indentation =>
      .ok { printer with
        text := printer.text ++ indentation ++ String.ofList line, atLineStart := false }
  else .ok { printer with text := printer.text ++ String.ofList line }

/-- The printer at the start of the next line. -/
def newline (printer : Printer) : Printer :=
  { printer with text := printer.text.push '\n', atLineStart := true }

/-- Writes lines, each behind a newline. -/
def writeLines (printer : Printer) : List (List Char) → Except Stopped Printer
  | [] => .ok printer
  | line :: rest => do
    let written ← printer.newline.writeLine line
    written.writeLines rest

/-- Writes a text. -/
def writeText (printer : Printer) (text : List Char) : Except Stopped Printer :=
  match split '\n' text with
  | [] => .ok printer
  | line :: rest => do
    let written ← printer.writeLine line
    written.writeLines rest

/-! ## Printing -/

/-- Writes what a variable stands for: its first value, or one dollar sign for the variable without
a name. -/
def writeVariable (printer : Printer) (bindings : List (String × String)) (name : List Char) :
    Except Stopped Printer :=
  if name.isEmpty then printer.writeText ['$']
  else
    match bindings.lookup (String.ofList name) with
    | some value => printer.writeText value.toList
    | none => .error ⟨.template (.unbound (String.ofList name)), printer⟩

/-- Prints what is left of a template: the text before the next dollar sign, the variable between it
and the one after it, and so on. -/
def printFrom (template : String) (bindings : List (String × String)) (printer : Printer)
    (rest : List Char) : Except Stopped Printer :=
  match _hrest : cutAt? '$' rest with
  | none => printer.writeText rest
  | some (before, after) => do
    let written ← printer.writeText before
    match _hafter : cutAt? '$' after with
    | none => .error ⟨.template (.unterminated template), written⟩
    | some (name, more) => do
      let replaced ← written.writeVariable bindings name
      printFrom template bindings replaced more
termination_by rest.length
decreasing_by
  have hfirst := length_lt_of_cutAt?_eq_some _hrest
  have hsecond := length_lt_of_cutAt?_eq_some _hafter
  omega

/-- Prints a template with its variables replaced. -/
def print (printer : Printer) (template : String) (bindings : List (String × String) := []) :
    Except Stopped Printer :=
  printFrom template bindings printer template.toList

end Printer

end ProtoExtensions
