import ProtoExtensions.HeaderMap
import ProtoExtensions.Text.Blank

/-!
Header mappings as text. Each entry is a class name and a header, separated by an equals sign, a
colon, or blanks. A line that ends with a backslash continues on the next line, lines are trimmed at
their start, and between entries blank lines and lines that start with `#` or `!` are skipped. The
written form has one `name=header` line for each mapping, in the order of the names.
-/

namespace ProtoExtensions

/-- What is wrong with an entry. -/
inductive MappingProblem where
  | noHeader (key : String)
  | unfinished
  deriving DecidableEq, Repr

/-- A wrong entry, with the number of the line it starts on. -/
structure MappingFault where
  line : Nat
  problem : MappingProblem
  deriving DecidableEq, Repr

/-- The text that reports what is wrong with an entry. -/
def MappingProblem.message : MappingProblem → String
  | noHeader key => "no header given for '" ++ key ++ "'"
  | unfinished => "entry continues past the end of the file"

/-- The text that reports a wrong entry of a file. -/
def MappingFault.message (file : String) (fault : MappingFault) : String :=
  "invalid header mapping in " ++ file ++ " line " ++ toString fault.line ++ ": " ++
    fault.problem.message

namespace Properties

/-- Whether a character separates a class name from its header. -/
def isSeparator (c : Char) : Bool :=
  c == '=' || c == ':' || c == ' ' || c == '\t'

/-- A text without an equals sign or colon that it starts with. -/
def dropSign : List Char → List Char
  | '=' :: rest => rest
  | ':' :: rest => rest
  | rest => rest

/-- The class name and the header of an entry. -/
def splitEntry (entry : List Char) : List Char × List Char :=
  (entry.takeWhile (!isSeparator ·),
    trim (dropSign (trimStart (entry.dropWhile (!isSeparator ·)))))

/-- Whether a line between entries is skipped. -/
def isSkipped : List Char → Bool
  | [] => true
  | c :: _ => c == '#' || c == '!'

/-- A line without the backslash at its end, where it has one. -/
def continued? (line : List Char) : Option (List Char) :=
  if line.getLast? = some '\\' then some line.dropLast else none

/-- What has been read so far: the mappings, how many entries they came from, the text of an entry
that is not finished, and the line on which that entry starts. -/
structure Reading where
  map : HeaderMap
  count : Nat
  pending : List Char
  start : Nat

/-- Reads one physical line. -/
def readLine (reading : Reading) (number : Nat) (raw : List Char) :
    Except MappingFault Reading :=
  let line := trimStart raw
  if reading.pending.isEmpty && isSkipped line then .ok reading
  else
    let start := if reading.pending.isEmpty then number else reading.start
    match continued? line with
    | some text => .ok { reading with pending := reading.pending ++ text, start }
    | none =>
      let (key, header) := splitEntry (reading.pending ++ line)
      if header.isEmpty then .error ⟨start, .noHeader (String.ofList key)⟩
      else .ok
        { map := reading.map.put (String.ofList key) (String.ofList header)
          count := reading.count + 1
          pending := []
          start }

/-- Reads physical lines up to the first wrong entry. The mappings read before it stay. -/
def readLines (reading : Reading) : Nat → List (List Char) → HeaderMap × Except MappingFault Nat
  | _, [] =>
    if reading.pending.isEmpty then (reading.map, .ok reading.count)
    else (reading.map, .error ⟨reading.start, .unfinished⟩)
  | number, line :: rest =>
    match readLine reading number line with
    | .ok next => readLines next (number + 1) rest
    | .error fault => (reading.map, .error fault)

end Properties

namespace HeaderMap

/-- Adds the mappings of a text to the map and gives their number. -/
def readMappings (map : HeaderMap) (text : String) : HeaderMap × Except MappingFault Nat :=
  Properties.readLines ⟨map, 0, [], 0⟩ 1 (lines text.toList)

/-- All mappings as text. -/
def mappingsText (map : HeaderMap) : String :=
  String.join (map.mappings.entries.map fun (name, header) => name ++ "=" ++ header ++ "\n")

end HeaderMap

end ProtoExtensions
