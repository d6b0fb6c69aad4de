import ProtoExtensions.Default.Escape
import ProtoExtensions.Default.Integer
import ProtoExtensions.Descriptor
import ProtoExtensions.Float.Reading

/-!
Default values. The default of a field is declared as text; `DefaultValue.read` gives the value that
the text stands for under the field's type, or the reason why it stands for none.
-/

namespace ProtoExtensions

/-- Why a text is no default of a field. -/
inductive DefaultFault where
  | notInteger (text : String)
  | outOfRange (text : String) (type : FieldType)
  | notFloat (text : String) (type : FieldType)
  | notBool (text : String)
  | badEscape (fault : EscapeFault)
  | noSuchValue (enumName text : String)
  | notEnum
  | noDefault (type : FieldType)
  deriving DecidableEq, Repr

/-- The text that reports why a default is refused. -/
def DefaultFault.message : DefaultFault → String
  | notInteger text => "'" ++ text ++ "' is not a valid integer"
  | outOfRange text type => "'" ++ text ++ "' is out of range for " ++ type.protoName
  | notFloat text type => "'" ++ text ++ "' is not a valid " ++ type.protoName
  | notBool text => "'" ++ text ++ "' is not a valid bool (expected true or false)"
  | badEscape fault => fault.message
  | noSuchValue enumName text => "enum " ++ enumName ++ " has no value named '" ++ text ++ "'"
  | notEnum => "enum default on a field that does not reference an enum"
  | noDefault type => type.protoName ++ " fields cannot declare a default"

/-- The value of an integer text. -/
def readInteger (text : String) : Except DefaultFault Int :=
  match readInteger? text with
  | some n => .ok n
  | none => .error (.notInteger text)

/-- The value of an integer text inside a range. -/
def readRanged (type : FieldType) (text : String) (range : Int × Int) : Except DefaultFault Int :=
  (readInteger text).bind fun n =>
    if range.1 ≤ n ∧ n < range.2 then .ok n else .error (.outOfRange text type)

/-- The number that a text stands for in a floating-point format. -/
def readFloat (format : FloatFormat) (type : FieldType) (text : String) :
    Except DefaultFault Nat :=
  match format.read? (trim text.toList) with
  | some bits => .ok bits
  | none => .error (.notFloat text type)

namespace DefaultValue

/-- The default that a text declares for a field of a given type and value kind. -/
def read (type : FieldType) (text : String) (value : ValueKind) :
    Except DefaultFault DefaultValue :=
  match type with
  | .int32 | .sint32 | .sfixed32 =>
    (readRanged type text (-0x80000000, 0x80000000)).map fun n => .int32 (Int32.ofInt n)
  | .int64 | .sint64 | .sfixed64 =>
    (readRanged type text (-0x8000000000000000, 0x8000000000000000)).map fun n =>
      .int64 (Int64.ofInt n)
  | .uint32 | .fixed32 =>
    (readRanged type text (0, 0x100000000)).map fun n => .uint32 n.toNat.toUInt32
  | .uint64 | .fixed64 =>
    (readRanged type text (0, 0x10000000000000000)).map fun n => .uint64 n.toNat.toUInt64
  | .float => (readFloat .single type text).map fun bits => .float bits.toUInt32
  | .double => (readFloat .double type text).map fun bits => .double bits.toUInt64
  | .bool =>
    match String.ofList (trim text.toList) with
    | "true" => .ok (.bool true)
    | "false" => .ok (.bool false)
    | _ => .error (.notBool text)
  | .string => .ok (.string text)
  | .bytes =>
    match unescape text with
    | .ok content => .ok (.bytes content)
    | .error fault => .error (.badEscape fault)
  | .enum =>
    match value with
    | .enum e =>
      let name := String.ofList (trim text.toList)
      match e.findValue? name with
      | some found => .ok (.enum found.name found.number)
      | none => .error (.noSuchValue e.type.fullName name)
    | _ => .error .notEnum
  | .message | .group => .error (.noDefault type)

/-- Whether two defaults are equal values; numbers are compared as numbers, so what is not a number
equals nothing and the two zeros are equal. -/
def same : DefaultValue → DefaultValue → Bool
  | float a, float b => FloatFormat.single.sameNumber a.toNat b.toNat
  | double a, double b => FloatFormat.double.sameNumber a.toNat b.toNat
  | a, b => a == b

end DefaultValue

namespace ExtensionField

/-- Whether two optional defaults are equal values. -/
def sameDefault (a b : ExtensionField) : Bool :=
  match a.defaultValue, b.defaultValue with
  | none, none => true
  | some x, some y => x.same y
  | _, _ => false

/-- Whether two extension fields are equal, part by part. -/
def same (a b : ExtensionField) : Bool :=
  a.name == b.name && a.fullName == b.fullName && a.number == b.number &&
    a.cardinality == b.cardinality && a.type == b.type && a.value.same b.value &&
    a.extendee.same b.extendee && a.scope.same b.scope && a.sameDefault b &&
    a.packed == b.packed && a.deprecated == b.deprecated

end ExtensionField

end ProtoExtensions
