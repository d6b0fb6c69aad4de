import ProtoExtensions.Default
import ProtoExtensions.Lowering.Contract
import ProtoExtensions.Proofs.IntegerLiterals
import ProtoExtensions.Proofs.Template

/-!
Integer defaults from the text that declares them to the literal in the record. A text is a default
of an integer field exactly if it is an integer in the range of the field's type, and the literal
stands for just this integer (`integer_defaults_denote`). Enum fields have the number of the value
that is named, and the number of the first value where none is.
-/

namespace ProtoExtensions

/-- The integers that fields of a type hold: whether negative ones are among them, and the type that
the runtime keeps them in. -/
structure IntegerKind where
  signed : Bool
  type : IntegerType
  deriving DecidableEq, Repr

/-- The integers that a field type holds. -/
def FieldType.integerKind? : FieldType → Option IntegerKind
  | .int32 | .sint32 | .sfixed32 => some ⟨true, .jint⟩
  | .uint32 | .fixed32 => some ⟨false, .jint⟩
  | .int64 | .sint64 | .sfixed64 => some ⟨true, .jlong⟩
  | .uint64 | .fixed64 => some ⟨false, .jlong⟩
  | _ => none

namespace IntegerKind

/-- The least number of a kind, and the first one above it. -/
def range (kind : IntegerKind) : Int × Int :=
  if kind.signed then (-2 ^ (kind.type.width - 1), 2 ^ (kind.type.width - 1))
  else (0, 2 ^ kind.type.width)

/-- Whether a number is in the range of a kind. -/
def Holds (kind : IntegerKind) (n : Int) : Prop :=
  kind.range.1 ≤ n ∧ n < kind.range.2

instance (kind : IntegerKind) (n : Int) : Decidable (kind.Holds n) :=
  inferInstanceAs (Decidable (_ ∧ _))

/-- The default that a number is. -/
def toDefault : IntegerKind → Int → DefaultValue
  | ⟨true, .jint⟩, n => .int32 (Int32.ofInt n)
  | ⟨false, .jint⟩, n => .uint32 n.toNat.toUInt32
  | ⟨true, .jlong⟩, n => .int64 (Int64.ofInt n)
  | ⟨false, .jlong⟩, n => .uint64 n.toNat.toUInt64

/-- The literal of a number. -/
def toLiteral : IntegerKind → Int → String
  | ⟨true, .jint⟩, n => Literal.int32 (Int32.ofInt n)
  | ⟨false, .jint⟩, n => Literal.uint32 n.toNat.toUInt32
  | ⟨true, .jlong⟩, n => Literal.int64 (Int64.ofInt n)
  | ⟨false, .jlong⟩, n => Literal.uint64 n.toNat.toUInt64

theorem isIntegerLiteral_toLiteral {kind : IntegerKind} {n : Int} (h : kind.Holds n) :
    IsIntegerLiteral kind.type (kind.toLiteral n) n := by
  obtain ⟨hlow, hhigh⟩ := h
  match kind with
  | ⟨true, .jint⟩ =>
    have hliteral := isIntegerLiteral_int32 (Int32.ofInt n)
    rwa [Int32.toInt_ofInt_of_le hlow hhigh] at hliteral
  | ⟨false, .jint⟩ =>
    have hliteral := isIntegerLiteral_uint32 n.toNat.toUInt32
    have hn : (n.toNat.toUInt32.toNat : Int) = n := by
      simp [range, IntegerType.width] at hlow hhigh ⊢
      omega
    rwa [hn] at hliteral
  | ⟨true, .jlong⟩ =>
    have hliteral := isIntegerLiteral_int64 (Int64.ofInt n)
    rwa [Int64.toInt_ofInt_of_le hlow hhigh] at hliteral
  | ⟨false, .jlong⟩ =>
    have hliteral := isIntegerLiteral_uint64 n.toNat.toUInt64
    have hn : (n.toNat.toUInt64.toNat : Int) = n := by
      simp [range, IntegerType.width] at hlow hhigh ⊢
      omega
    rwa [hn] at hliteral

end IntegerKind

/-! ## Reading and emitting -/

theorem readRanged_eq_ok_iff {type : FieldType} {text : String} {range : Int × Int} {n : Int} :
    readRanged type text range = .ok n ↔
      readInteger? text = some n ∧ range.1 ≤ n ∧ n < range.2 := by
  unfold readRanged readInteger
  cases readInteger? text with
  | none => simp [Except.bind]
  | some m =>
    simp only [Except.bind, Option.some.injEq]
    constructor
    · intro h
      split at h
      · next hrange =>
        cases h
        exact ⟨rfl, hrange⟩
      · cases h
    · rintro ⟨rfl, hrange⟩
      exact if_pos hrange

theorem DefaultValue.read_integer {type : FieldType} {kind : IntegerKind}
    (h : type.integerKind? = some kind) (text : String) (value : ValueKind) :
    DefaultValue.read type text value = (readRanged type text kind.range).map kind.toDefault := by
  cases type <;> cases h <;> rfl

/-- The default of a record is an integer literal in the member that its type belongs to. -/
def ExtensionField.GivesInteger (field : ExtensionField) (type : IntegerType) (n : Int) : Prop :=
  ∃ literal, field.defaultMember = .ok (some ⟨type.member, literal⟩) ∧
    IsIntegerLiteral type literal n ∧
    literal ≠ "-2147483648" ∧ literal ≠ "-9223372036854775808LL"

namespace ExtensionField

variable {field : ExtensionField}

theorem givesInteger_of_defaultMember {type : IntegerType} {literal : String} {n : Int}
    (hmember : field.defaultMember = .ok (some ⟨type.member, literal⟩))
    (hliteral : IsIntegerLiteral type literal n) : field.GivesInteger type n :=
  ⟨literal, hmember, hliteral, hliteral.ne_negated_min⟩

theorem givesInteger_of_default {kind : IntegerKind} (hkind : field.type.integerKind? = some kind)
    {n : Int} (hn : kind.Holds n) (hdefault : field.defaultValue = some (kind.toDefault n)) :
    field.GivesInteger kind.type n := by
  refine givesInteger_of_defaultMember ?_ (IntegerKind.isIntegerLiteral_toLiteral hn)
  unfold defaultMember
  rw [hdefault]
  cases ht : field.type <;> rw [ht] at hkind <;> cases hkind <;> rfl

theorem givesInteger_of_enum (htype : field.type = .enum) {name : String} {number : Int32}
    (hdefault : field.defaultValue = some (.enum name number)) :
    field.GivesInteger .jint number.toInt := by
  refine givesInteger_of_defaultMember ?_ (isIntegerLiteral_int32 number)
  unfold defaultMember
  rw [htype, hdefault]
  rfl

theorem givesInteger_of_firstValue (htype : field.type = .enum)
    (hdefault : field.defaultValue = none) {e : EnumRef} (hvalue : field.value = .enum e)
    {first : EnumValue} (hfirst : e.firstValue? = some first) :
    field.GivesInteger .jint first.number.toInt := by
  refine givesInteger_of_defaultMember ?_ (isIntegerLiteral_int32 first.number)
  unfold defaultMember
  simp only [htype, hdefault, hvalue, hfirst]
  rfl

end ExtensionField

/-- What a text stands for as the default of an enum field: the first value of that name. -/
theorem DefaultValue.read_enum_eq_ok_iff {text : String} {e : EnumRef} {default : DefaultValue} :
    DefaultValue.read .enum text (.enum e) = .ok default ↔
      ∃ found, e.findValue? (String.ofList (trim text.toList)) = some found ∧
        default = .enum found.name found.number := by
  simp only [DefaultValue.read]
  cases e.findValue? (String.ofList (trim text.toList)) with
  | none => simp
  | some found =>
    simp only [Except.ok.injEq, Option.some.injEq, exists_eq_left']
    exact eq_comm

theorem EnumRef.exists_findValue?_iff {e : EnumRef} {name : String} :
    (∃ found, e.findValue? name = some found) ↔ ∃ value ∈ e.values, value.name = name := by
  rw [← Option.isSome_iff_exists, EnumRef.findValue?, List.find?_isSome]
  simp

/-- **Integer defaults keep their number.** A text is accepted as the default of a field of integer
type exactly if it is an integer in the range of the type. Every field of the type with this default
then has a literal in the member of its width that C reads as the integer, modulo the width; where
the literal has no cast it is decimal and its absolute value fits the signed type. An enum field has
the number of the named value or, without a default, of the first one. -/
theorem integer_defaults_denote :
    (∀ (type : FieldType) (kind : IntegerKind), type.integerKind? = some kind →
      ∀ (text : String) (value : ValueKind),
        ((∃ default, DefaultValue.read type text value = .ok default) ↔
          ∃ n, readInteger? text = some n ∧ kind.Holds n) ∧
        ∀ default, DefaultValue.read type text value = .ok default →
          ∃ n, readInteger? text = some n ∧ kind.Holds n ∧
            ∀ field : ExtensionField, field.type = type → field.defaultValue = some default →
              field.GivesInteger kind.type n) ∧
    (∀ (text : String) (e : EnumRef),
        ((∃ default, DefaultValue.read .enum text (.enum e) = .ok default) ↔
          ∃ value ∈ e.values, value.name = String.ofList (trim text.toList)) ∧
        ∀ default, DefaultValue.read .enum text (.enum e) = .ok default →
          ∃ found, e.findValue? (String.ofList (trim text.toList)) = some found ∧
            ∀ field : ExtensionField, field.type = .enum → field.defaultValue = some default →
              field.GivesInteger .jint found.number.toInt) ∧
    ∀ (field : ExtensionField) (e : EnumRef) (first : EnumValue),
      field.type = .enum → field.defaultValue = none → field.value = .enum e →
      e.firstValue? = some first → field.GivesInteger .jint first.number.toInt := by
  refine ⟨fun type kind hkind text value => ?_, fun text e => ?_,
    fun field e first htype hdefault hvalue hfirst =>
      ExtensionField.givesInteger_of_firstValue htype hdefault hvalue hfirst⟩
  · have hread : ∀ default, DefaultValue.read type text value = .ok default ↔
        ∃ n, (readInteger? text = some n ∧ kind.Holds n) ∧ kind.toDefault n = default := by
      intro default
      rw [DefaultValue.read_integer hkind, map_eq_ok_iff]
      exact exists_congr fun n => and_congr_left' readRanged_eq_ok_iff
    constructor
    · constructor
      · rintro ⟨default, h⟩
        obtain ⟨n, hn, -⟩ := (hread default).1 h
        exact ⟨n, hn⟩
      · rintro ⟨n, hn⟩
        exact ⟨kind.toDefault n, (hread _).2 ⟨n, hn, rfl⟩⟩
    · intro default h
      obtain ⟨n, ⟨htext, hholds⟩, rfl⟩ := (hread default).1 h
      refine ⟨n, htext, hholds, fun field htype hdefault => ?_⟩
      exact ExtensionField.givesInteger_of_default (htype ▸ hkind) hholds hdefault
  · constructor
    · constructor
      · rintro ⟨default, h⟩
        obtain ⟨found, hfound, -⟩ := DefaultValue.read_enum_eq_ok_iff.1 h
        exact EnumRef.exists_findValue?_iff.1 ⟨found, hfound⟩
      · intro h
        obtain ⟨found, hfound⟩ := EnumRef.exists_findValue?_iff.2 h
        exact ⟨_, DefaultValue.read_enum_eq_ok_iff.2 ⟨found, hfound, rfl⟩⟩
    · intro default h
      obtain ⟨found, hfound, rfl⟩ := DefaultValue.read_enum_eq_ok_iff.1 h
      exact ⟨found, hfound, fun field htype hdefault =>
        ExtensionField.givesInteger_of_enum htype hdefault⟩

/-- An enum whose second value is the least number. -/
def signs : EnumRef where
  type := ⟨⟨"x.proto", "", none, none, false, ["Sign"]⟩, ["Sign"]⟩
  values := [⟨"PLUS", 1⟩, ⟨"MINUS", -0x80000000⟩]

/-- A field of some type with some default. -/
def fieldOfDefault (type : FieldType) (value : ValueKind) (default : Option DefaultValue) :
    ExtensionField where
  name := "e"
  number := 1
  type := type
  value := value
  extendee := ⟨⟨"x.proto", "", none, none, false, ["M"]⟩, ["M"]⟩
  scope := .file ⟨"x.proto", "", none, none, false, ["M"]⟩
  defaultValue := default

theorem integer_defaults_denote_extremes :
    (∃ default, DefaultValue.read .sint64 " -0x8000000000000000" .scalar = .ok default ∧
      (fieldOfDefault .sint64 .scalar (some default)).GivesInteger .jlong (-0x8000000000000000)) ∧
    (∃ default, DefaultValue.read .enum "MINUS" (.enum signs) = .ok default ∧
      (fieldOfDefault .enum (.enum signs) (some default)).GivesInteger .jint (-0x80000000)) ∧
    (fieldOfDefault .enum (.enum signs) none).GivesInteger .jint 1 := by
  obtain ⟨hinteger, henum, hfirst⟩ := integer_defaults_denote
  refine ⟨?_, ?_, hfirst _ signs ⟨"PLUS", 1⟩ rfl rfl rfl rfl⟩
  · have htext : readInteger? " -0x8000000000000000" = some (-0x8000000000000000) := by
      decide +kernel
    obtain ⟨haccepted, hgiven⟩ := hinteger .sint64 ⟨true, .jlong⟩ rfl " -0x8000000000000000" .scalar
    obtain ⟨default, hread⟩ := haccepted.2 ⟨_, htext, by decide⟩
    obtain ⟨n, hn, -, hfield⟩ := hgiven default hread
    rw [htext] at hn
    cases hn
    exact ⟨default, hread, hfield _ rfl rfl⟩
  · obtain ⟨haccepted, hgiven⟩ := henum "MINUS" signs
    obtain ⟨default, hread⟩ := haccepted.2 ⟨⟨"MINUS", -0x80000000⟩, by decide +kernel⟩
    obtain ⟨found, hfound, hfield⟩ := hgiven default hread
    have hminus : signs.findValue? (String.ofList (trim "MINUS".toList)) =
        some ⟨"MINUS", -0x80000000⟩ := by decide +kernel
    rw [hminus] at hfound
    cases hfound
    exact ⟨default, hread, hfield _ rfl rfl⟩

end ProtoExtensions
