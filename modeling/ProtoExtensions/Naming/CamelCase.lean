/-!
Camel case, as names are derived from the names in proto files: ASCII letters and digits are kept
and everything else is dropped, a letter after anything that is not a letter is raised, and the
first letter is raised or lowered as asked.
-/

namespace ProtoExtensions

/-- Camel case after the first character. `raise` says that the character before was not a letter.
-/
def camelTail (raise : Bool) : List Char → List Char
  | [] => []
  | c :: rest =>
    if c.isLower then (if raise then c.toUpper else c) :: camelTail false rest
    else if c.isUpper then c :: camelTail false rest
    else if c.isDigit then c :: camelTail true rest
    else camelTail true rest

/-- Camel case of a name whose first letter is to be a capital, or not. -/
def camelChars (capital : Bool) : List Char → List Char
  | [] => []
  | c :: rest =>
    if c.isUpper && !capital then c.toLower :: camelTail false rest
    else camelTail capital (c :: rest)

/-- Camel case of a name. -/
def camelCase (name : String) (capital : Bool) : String :=
  String.ofList (camelChars capital name.toList)

example : camelCase "foo_bar" false = "fooBar" := by decide +kernel
example : camelCase "field2d" true = "Field2D" := by decide +kernel
example : camelCase "_leading" false = "Leading" := by decide +kernel

end ProtoExtensions
