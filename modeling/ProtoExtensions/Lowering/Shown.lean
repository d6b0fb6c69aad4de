import ProtoExtensions.Descriptor
import ProtoExtensions.Literal
import ProtoExtensions.Text.Quoted

/-!
How messages show descriptors and default values: every part with its name, strings in quotes,
absent parts as such.
-/

namespace ProtoExtensions

namespace Shown

/-- Several values between brackets. -/
def list (items : List String) : String :=
  "[" ++ ", ".intercalate items ++ "]"

/-- A record: its name and its parts. -/
def record (name : String) (parts : List (String × String)) : String :=
  name ++ " \x7b " ++ ", ".intercalate (parts.map fun (part, value) => part ++ ": " ++ value) ++
    " \x7d"

/-- A string that may be absent. -/
def option : Option String → String
  | none => "None"
  | some text => "Some(" ++ quoted text ++ ")"

/-- A floating-point number; the notation is that of literals. -/
def floating (format : FloatFormat) (bits : Nat) : String :=
  match format.classify bits with
  | .notANumber => "NaN"
  | .infinite negative => if negative then "-inf" else "inf"
  | .finite negative magnitude => format.write Literal.floatStyle negative magnitude

end Shown

/-- A file's identity. -/
def ProtoFile.shown (file : ProtoFile) : String :=
  Shown.record "FileRef"
    [("name", quoted file.name), ("package", quoted file.package),
     ("java_package", Shown.option file.javaPackage),
     ("java_outer_classname", Shown.option file.outerClassname),
     ("java_multiple_files", Literal.bool file.multipleFiles),
     ("top_level_types", Shown.list (file.topLevelTypes.map quoted))]

/-- A type reference. -/
def TypeRef.shown (type : TypeRef) : String :=
  Shown.record "TypeRef"
    [("full_name", quoted type.fullName), ("file", type.file.shown),
     ("path", Shown.list (type.path.map quoted))]

/-- An enum value. -/
def EnumValue.shown (value : EnumValue) : String :=
  Shown.record "EnumValue" [("name", quoted value.name), ("number", toString value.number.toInt)]

/-- An enum reference. -/
def EnumRef.shown (enum : EnumRef) : String :=
  Shown.record "EnumRef"
    [("type_ref", enum.type.shown), ("values", Shown.list (enum.values.map EnumValue.shown))]

/-- A value kind. -/
def ValueKind.shown : ValueKind → String
  | scalar => "Scalar"
  | message type => "Message(" ++ type.shown ++ ")"
  | enum e => "Enum(" ++ e.shown ++ ")"

/-- A default value. -/
def DefaultValue.shown : DefaultValue → String
  | int32 value => "Int32(" ++ toString value.toInt ++ ")"
  | int64 value => "Int64(" ++ toString value.toInt ++ ")"
  | uint32 value => "UInt32(" ++ toString value.toNat ++ ")"
  | uint64 value => "UInt64(" ++ toString value.toNat ++ ")"
  | float bits => "Float(" ++ Shown.floating .single bits.toNat ++ ")"
  | double bits => "Double(" ++ Shown.floating .double bits.toNat ++ ")"
  | bool value => "Bool(" ++ Literal.bool value ++ ")"
  | string value => "String(" ++ quoted value ++ ")"
  | bytes value => "Bytes(" ++ Shown.list (value.map fun byte => toString byte.toNat) ++ ")"
  | enum name number =>
    Shown.record "Enum" [("name", quoted name), ("number", toString number.toInt)]

end ProtoExtensions
