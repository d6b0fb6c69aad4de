/-!
Diagnostics: what a check has found, about which file and which place in it, and reports that
collect them. A report says whether it is fine, which it is until an error comes into it.
-/

namespace ProtoExtensions

/-- How serious a diagnostic is. -/
inductive Severity where
  | error
  | warning
  | info
  deriving DecidableEq, Repr

/-- The name of a severity. -/
def Severity.name : Severity → String
  | error => "error"
  | warning => "warning"
  | info => "info"

/-- One finding. The path leads to the place inside the file. -/
structure Diagnostic where
  code : String
  severity : Severity := .error
  message : String
  file : String
  path : String
  suggestion : Option String := none
  deriving DecidableEq, Repr

namespace Diagnostic

/-- A diagnostic on one line. -/
def text (d : Diagnostic) : String :=
  "[" ++ d.code ++ "] " ++ d.message ++ " (" ++ d.file ++ " at " ++ d.path ++ ")"

/-- Whether the diagnostic is an error. -/
def isError (d : Diagnostic) : Bool :=
  d.severity == .error

/-! ## The codes of this library's diagnostics -/

/-- A file's text is no descriptor. -/
def parseError : String := "E_PARSE_ERROR"

/-- A type's full name is taken. -/
def duplicateSymbol : String := "E_DUPLICATE_SYMBOL"

/-- Two files describe the same proto file. -/
def duplicateFile : String := "E_DUPLICATE_FILE"

/-- A name refers to nothing. -/
def referenceNotFound : String := "E_REF_NOT_FOUND"

/-- A name refers to the wrong kind of type. -/
def referenceMismatch : String := "E_REF_TYPE_MISMATCH"

/-- A needed part of a field is missing. -/
def missingField : String := "E_MISSING_FIELD"

/-- A part of a field is not allowed. -/
def invalidField : String := "E_INVALID_FIELD"

/-- A default does not fit its field. -/
def invalidDefault : String := "E_INVALID_DEFAULT"

end Diagnostic

/-- Diagnostics in the order they were found, with a flag that is taken back at the first error. -/
structure Report where
  ok : Bool := true
  entries : List Diagnostic := []
  deriving DecidableEq, Repr

namespace Report

/-- The report without findings. -/
def empty : Report := {}

/-- A report of some findings. -/
def ofEntries (entries : List Diagnostic) : Report where
  ok := !entries.any Diagnostic.isError
  entries := entries

/-- The report with one more finding. -/
def push (report : Report) (d : Diagnostic) : Report where
  ok := if d.isError then false else report.ok
  entries := report.entries ++ [d]

/-- The report with more findings, one after the other. -/
def pushAll (report : Report) (entries : List Diagnostic) : Report :=
  entries.foldl push report

/-- The report with the findings of another one behind its own. -/
def merge (report other : Report) : Report :=
  report.pushAll other.entries

/-- The number of findings of a severity. -/
def count (report : Report) (severity : Severity) : Nat :=
  report.entries.countP (·.severity == severity)

@[simp] theorem entries_push (report : Report) (d : Diagnostic) :
    (report.push d).entries = report.entries ++ [d] := rfl

@[simp] theorem pushAll_nil (report : Report) : report.pushAll [] = report := rfl

@[simp] theorem pushAll_cons (report : Report) (d : Diagnostic) (entries : List Diagnostic) :
    report.pushAll (d :: entries) = (report.push d).pushAll entries := rfl

theorem pushAll_append (report : Report) (a b : List Diagnostic) :
    report.pushAll (a ++ b) = (report.pushAll a).pushAll b :=
  List.foldl_append

@[simp] theorem entries_pushAll (report : Report) (entries : List Diagnostic) :
    (report.pushAll entries).entries = report.entries ++ entries := by
  induction entries generalizing report with
  | nil => simp
  | cons d entries ih => simp [ih]

@[simp] theorem entries_merge (report other : Report) :
    (report.merge other).entries = report.entries ++ other.entries :=
  entries_pushAll report other.entries

end Report

end ProtoExtensions
