import ProtoExtensions.Lowering.Shown
import ProtoExtensions.Naming.ClassName

/-!
Which extension fields can be lowered. `ExtensionField.violation?` gives the first rule that a field
breaks: extensions are not required, the value kind fits the type, repeated and message fields have
no default, only repeated packable fields are packed, a default fits the type, and an enum field
without a default has a first value to fall back on. A `LoweredField` is a field that breaks none of
them; resolution only produces such fields.
-/

namespace ProtoExtensions

/-- A rule that an extension field breaks. -/
inductive Violation where
  | required
  | kindMismatch
  | repeatedDefault
  | referenceDefault
  | badPacking
  | emptyEnum (enum : EnumRef)
  | enumKindMismatch
  | defaultMismatch (value : DefaultValue)
  | notScalar
  deriving DecidableEq, Repr

/-- The text that reports a broken rule of a field. -/
def Violation.message (field : ExtensionField) : Violation → String
  | required =>
    "extension " ++ field.fullName ++ " is required; extensions must be optional or repeated"
  | kindMismatch =>
    "extension " ++ field.fullName ++ ": " ++ field.type.protoName ++
      " field has mismatched value kind " ++ field.value.shown
  | repeatedDefault =>
    "extension " ++ field.fullName ++ " is repeated and cannot have a default"
  | referenceDefault =>
    "extension " ++ field.fullName ++ ": " ++ field.type.protoName ++
      " fields cannot have a default"
  | badPacking =>
    "extension " ++ field.fullName ++
      ": packed is only valid on repeated numeric, bool, or enum fields"
  | emptyEnum enum =>
    "extension " ++ field.fullName ++ ": enum " ++ enum.type.fullName ++ " declares no values"
  | enumKindMismatch =>
    "extension " ++ field.fullName ++ ": enum field carries value kind " ++ field.value.shown
  | defaultMismatch value =>
    "extension " ++ field.fullName ++ ": default " ++ value.shown ++ " does not fit a " ++
      field.type.protoName ++ " field"
  | notScalar => field.type.protoName ++ " values are not scalars"

/-- The member of the default value union that holds a default, and the literal it is set to. -/
structure DefaultMember where
  member : String
  literal : String
  deriving DecidableEq, Repr

namespace ExtensionField

/-- The initial default value of a field's record, where it has one. An enum field always has one:
its own default, else the first value of the enum. -/
def defaultMember (field : ExtensionField) : Except Violation (Option DefaultMember) :=
  match field.type, field.defaultValue with
  | .enum, none =>
    match field.value with
    | .enum e =>
      match e.firstValue? with
      | some first => .ok (some ⟨"valueInt", Literal.int32 first.number⟩)
      | none => .error (.emptyEnum e)
    | _ => .error .enumKindMismatch
  | _, none => .ok none
  | .int32, some (.int32 v) | .sint32, some (.int32 v) | .sfixed32, some (.int32 v) =>
    .ok (some ⟨"valueInt", Literal.int32 v⟩)
  | .uint32, some (.uint32 v) | .fixed32, some (.uint32 v) =>
    .ok (some ⟨"valueInt", Literal.uint32 v⟩)
  | .int64, some (.int64 v) | .sint64, some (.int64 v) | .sfixed64, some (.int64 v) =>
    .ok (some ⟨"valueLong", Literal.int64 v⟩)
  | .uint64, some (.uint64 v) | .fixed64, some (.uint64 v) =>
    .ok (some ⟨"valueLong", Literal.uint64 v⟩)
  | .float, some (.float bits) => .ok (some ⟨"valueFloat", Literal.float bits⟩)
  | .double, some (.double bits) => .ok (some ⟨"valueDouble", Literal.double bits⟩)
  | .bool, some (.bool v) => .ok (some ⟨"valueBool", Literal.bool v⟩)
  | .string, some (.string v) => .ok (some ⟨"valueId", Literal.string v⟩)
  | .bytes, some (.bytes v) => .ok (some ⟨"valueBytes", Literal.bytes v⟩)
  | .enum, some (.enum _ number) => .ok (some ⟨"valueInt", Literal.int32 number⟩)
  | _, some value => .error (.defaultMismatch value)

/-- Whether the value kind is one that the type has. -/
def kindFits (field : ExtensionField) : Bool :=
  match field.type, field.value with
  | .message, .message _ | .group, .message _ => true
  | .message, _ | .group, _ => false
  | .enum, .enum _ => true
  | .enum, _ => false
  | _, .scalar => true
  | _, _ => false

/-- The first rule that a field breaks. -/
def violation? (field : ExtensionField) : Option Violation :=
  if field.cardinality = .required then some .required
  else if !field.kindFits then some .kindMismatch
  else if field.defaultValue.isSome && field.isRepeated then some .repeatedDefault
  else if field.defaultValue.isSome && (field.type == .message || field.type == .group) then
    some .referenceDefault
  else if field.packed && !(field.isRepeated && field.type.isPackable) then some .badPacking
  else match field.defaultMember with
    | .ok _ => none
    | .error violation => some violation

/-- The class of an extension's values. -/
def valueClass (field : ExtensionField) : Except Violation String :=
  match field.valueClass? with
  | some name => .ok name
  | none => .error .notScalar

theorem kindFits_of_violation?_eq_none {field : ExtensionField} (h : field.violation? = none) :
    field.kindFits = true := by
  unfold violation? at h
  split at h
  · simp at h
  · split at h
    · simp at h
    · simp_all

theorem defaultMember_of_violation?_eq_none {field : ExtensionField}
    (h : field.violation? = none) : ∃ member, field.defaultMember = .ok member := by
  cases hm : field.defaultMember with
  | ok member => exact ⟨member, rfl⟩
  | error violation => grind [violation?]

theorem valueClass?_isSome_of_kindFits {field : ExtensionField} (h : field.kindFits = true) :
    field.valueClass?.isSome = true := by
  unfold kindFits at h
  unfold valueClass?
  cases hv : field.value <;> cases ht : field.type <;> simp_all [FieldType.boxClass?]

end ExtensionField

/-- An extension field that breaks no rule. -/
structure LoweredField where
  field : ExtensionField
  sound : field.violation? = none

namespace LoweredField

/-- The field, if it breaks no rule, and the first rule it breaks otherwise. -/
def ofField (field : ExtensionField) : Except Violation LoweredField :=
  match h : field.violation? with
  | none => .ok ⟨field, h⟩
  | some violation => .error violation

/-- The class of the field's values. -/
def valueClass (f : LoweredField) : String :=
  f.field.valueClass?.get
    (ExtensionField.valueClass?_isSome_of_kindFits
      (ExtensionField.kindFits_of_violation?_eq_none f.sound))

/-- The initial default value of the field's record. -/
def defaultMember? (f : LoweredField) : Option DefaultMember :=
  match f.field.defaultMember with
  | .ok member => member
  | .error _ => none

/-- A field can be lowered exactly if it breaks no rule. -/
theorem ofField_eq_ok_iff {field : ExtensionField} :
    (∃ f, ofField field = .ok f) ↔ field.violation? = none := by
  unfold ofField
  constructor
  · rintro ⟨f, h⟩
    split at h
    · next h' => exact h'
    · simp at h
  · intro h
    split
    · exact ⟨_, rfl⟩
    · next violation h' => rw [h] at h'; simp at h'

end LoweredField

end ProtoExtensions
