/-!
The types a proto field can have, and the classes of them that the rest of the library asks about:
types that name a message or an enum, types whose wire form carries a length, and types that a
repeated field may pack.
-/

namespace ProtoExtensions

/-- The type of a proto field. -/
inductive FieldType where
  | double
  | float
  | int64
  | uint64
  | int32
  | fixed64
  | fixed32
  | bool
  | string
  | group
  | message
  | bytes
  | uint32
  | enum
  | sfixed32
  | sfixed64
  | sint32
  | sint64
  deriving DecidableEq, Repr

namespace FieldType

/-- The name of a type in proto files. -/
def protoName : FieldType → String
  | double => "double"
  | float => "float"
  | int64 => "int64"
  | uint64 => "uint64"
  | int32 => "int32"
  | fixed64 => "fixed64"
  | fixed32 => "fixed32"
  | bool => "bool"
  | string => "string"
  | group => "group"
  | message => "message"
  | bytes => "bytes"
  | uint32 => "uint32"
  | enum => "enum"
  | sfixed32 => "sfixed32"
  | sfixed64 => "sfixed64"
  | sint32 => "sint32"
  | sint64 => "sint64"

/-- All types, in the order descriptors number them. -/
def all : List FieldType :=
  [double, float, int64, uint64, int32, fixed64, fixed32, bool, string, group, message, bytes,
   uint32, enum, sfixed32, sfixed64, sint32, sint64]

/-- The type of a given proto name. -/
def ofProtoName? (name : String) : Option FieldType :=
  all.find? (·.protoName == name)

/-- Whether values of the type are named by a message or enum type. -/
def isReference : FieldType → Bool
  | message | group | enum => true
  | _ => false

/-- Whether the wire form of a value starts with its length. -/
def isLengthDelimited : FieldType → Bool
  | string | bytes | message | group => true
  | _ => false

/-- Whether a repeated field of the type may be packed. -/
def isPackable (type : FieldType) : Bool :=
  !type.isLengthDelimited

theorem mem_all (type : FieldType) : type ∈ all := by
  cases type <;> decide

@[simp] theorem ofProtoName?_protoName (type : FieldType) :
    ofProtoName? type.protoName = some type := by
  cases type <;> decide

end FieldType

end ProtoExtensions
