/-!
JSON values, as far as descriptors and options use them: numbers are integers, and the members of an
object keep their order.
-/

namespace ProtoExtensions

/-- A JSON value. -/
inductive Json where
  | null
  | bool (value : Bool)
  | int (value : Int)
  | string (value : String)
  | list (items : List Json)
  | object (members : List (String × Json))
  deriving Inhabited, Repr

namespace Json

/-- The value of an object's first member of a given name. -/
def member? (name : String) : Json → Option Json
  | object members => members.lookup name
  | _ => none

/-- A truth value. -/
def bool? : Json → Option Bool
  | bool value => some value
  | _ => none

/-- A string. -/
def string? : Json → Option String
  | string value => some value
  | _ => none

/-- An integer of 32 bits. -/
def int32? : Json → Option Int32
  | int value => if -0x80000000 ≤ value ∧ value < 0x80000000 then some (Int32.ofInt value) else none
  | _ => none

/-- The items of a list. -/
def items? : Json → Option (List Json)
  | list items => some items
  | _ => none

/-- A member that has to be there. -/
def required (json : Json) (name : String) (read : Json → Option α) : Option α :=
  (json.member? name).bind read

/-- A member that has a default. -/
def defaulted (json : Json) (name : String) (default : α) (read : Json → Option α) : Option α :=
  match json.member? name with
  | none => some default
  | some value => read value

/-- A member that may be absent or null. -/
def optional (json : Json) (name : String) (read : Json → Option α) : Option (Option α) :=
  match json.member? name with
  | none | some null => some none
  | some value => (read value).map some

end Json

end ProtoExtensions
