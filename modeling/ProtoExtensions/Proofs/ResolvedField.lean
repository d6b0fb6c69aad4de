import ProtoExtensions.Lowering.Contract
import ProtoExtensions.Proofs.Template
import ProtoExtensions.Resolution

/-!
What resolution promises about the fields it returns. `TypeIndex.Resolves` lists all that a
declaration has gone through when it resolves to a field (`resolve_eq_ok_iff`); nothing else of
`TypeIndex.resolve` is needed afterwards. From it follows that a resolved field breaks none of the
rules of lowering (`Resolves.violation?_eq_none`): the two lists of rules were drawn up apart, and
each rule of the second is enforced by some rule of the first.
-/

namespace ProtoExtensions

/-- All that holds of a field which a declaration resolves to: the declaration breaks no rule, and
each part of the field comes from its own part of the declaration. -/
structure TypeIndex.Resolves (index : TypeIndex) (scope : Scope) (spec : FieldSpec)
    (field : ExtensionField) : Prop where
  accepted : spec.numberOrLabelRefusal? = none
  extendee : index.extendee scope.fullName spec = .ok field.extendee
  value : index.valueKind scope.fullName spec = .ok field.value
  packing : spec.isWronglyPacked = false
  default : spec.readDefault field.value = .ok field.defaultValue
  name_eq : field.name = spec.name
  number_eq : field.number = spec.number.toUInt32
  type_eq : field.type = spec.type
  scope_eq : field.scope = scope
  cardinality_eq : field.cardinality = spec.label
  packed_eq : field.packed = spec.options.packed
  deprecated_eq : field.deprecated = spec.options.deprecated

theorem TypeIndex.resolve_eq_ok_iff {index : TypeIndex} {scope : Scope} {spec : FieldSpec}
    {field : ExtensionField} :
    index.resolve scope spec = .ok field ↔ index.Resolves scope spec field := by
  unfold TypeIndex.resolve
  constructor
  · intro h
    cases hr : spec.numberOrLabelRefusal? with
    | some refusal => simp [hr, bind, Except.bind] at h
    | none =>
      simp only [hr, bind_eq_ok_iff] at h
      obtain ⟨extendee, hextendee, value, hvalue, h⟩ := h
      cases hp : spec.isWronglyPacked with
      | true => simp [hp, bind, Except.bind] at h
      | false =>
        simp only [hp, Bool.false_eq_true, if_false, bind_eq_ok_iff, Except.ok.injEq] at h
        obtain ⟨default, hdefault, rfl⟩ := h
        exact ⟨hr, hextendee, hvalue, hp, hdefault, rfl, rfl, rfl, rfl, rfl, rfl, rfl⟩
  · rintro ⟨hr, hextendee, hvalue, hp, hdefault, hname, hnumber, htype, rfl, hlabel, hpacked,
      hdeprecated⟩
    simp only [hr, hp, hextendee, hvalue, hdefault, bind, Except.bind, Bool.false_eq_true, if_false,
      ← hname, ← hnumber, ← htype, ← hlabel, ← hpacked, ← hdeprecated]

/-! ## Defaults fit their types -/

/-- Whether a default is of the form that fields of a type have. -/
def DefaultValue.fits : FieldType → DefaultValue → Bool
  | .int32, .int32 _ | .sint32, .int32 _ | .sfixed32, .int32 _ => true
  | .uint32, .uint32 _ | .fixed32, .uint32 _ => true
  | .int64, .int64 _ | .sint64, .int64 _ | .sfixed64, .int64 _ => true
  | .uint64, .uint64 _ | .fixed64, .uint64 _ => true
  | .float, .float _ | .double, .double _ | .bool, .bool _ | .string, .string _ => true
  | .bytes, .bytes _ | .enum, .enum _ _ => true
  | _, _ => false

/-- A text is only ever read as a default of the form that the field's type has. -/
theorem DefaultValue.fits_of_read {type : FieldType} {text : String} {value : ValueKind}
    {default : DefaultValue} (h : DefaultValue.read type text value = .ok default) :
    default.fits type = true := by
  cases type with
  | int32 | sint32 | sfixed32 | int64 | sint64 | sfixed64 | uint32 | fixed32 | uint64 | fixed64
  | float | double =>
    obtain ⟨n, -, rfl⟩ := map_eq_ok_iff.1 h
    rfl
  | bool =>
    simp only [DefaultValue.read] at h
    split at h <;> cases h <;> rfl
  | string => cases h; rfl
  | bytes =>
    simp only [DefaultValue.read] at h
    split at h <;> cases h
    rfl
  | enum =>
    simp only [DefaultValue.read] at h
    split at h
    · split at h <;> cases h
      rfl
    · cases h
  | message | group => cases h

/-- A default that fits gives the record's entry, except where an enum has no default at all. -/
theorem ExtensionField.defaultMember_of_fits {field : ExtensionField} {default : DefaultValue}
    (hd : field.defaultValue = some default) (hf : default.fits field.type = true) :
    ∃ member, field.defaultMember = .ok member := by
  unfold defaultMember
  rw [hd]
  generalize field.type = type at hf
  cases type <;> cases default <;> first | exact ⟨_, rfl⟩ | cases hf

/-! ## Resolved fields can be lowered -/

/-- What the values of a resolved field are: the type decides whether they are named by a type, and
of which kind that type is. An enum that is used has a value. -/
theorem TypeIndex.valueKind_eq_ok {index : TypeIndex} {scope : String} {spec : FieldSpec}
    {value : ValueKind} (h : index.valueKind scope spec = .ok value) :
    (spec.type.isReference = false ∧ value = .scalar) ∨
    (∃ name entry, spec.typeName = some name ∧ spec.type = .enum ∧
      index.expect name scope .enum = .ok entry ∧ entry.values ≠ [] ∧
      value = .enum ⟨entry.type, entry.values⟩) ∨
    (∃ name entry, spec.typeName = some name ∧ (spec.type = .message ∨ spec.type = .group) ∧
      index.expect name scope .message = .ok entry ∧ value = .message entry.type) := by
  unfold valueKind at h
  split at h
  · next hscalar =>
    cases h
    exact .inl ⟨by simpa using hscalar, rfl⟩
  · next href =>
    split at h
    · cases h
    next name hname =>
    split at h
    · next henum =>
      obtain ⟨entry, hentry, h⟩ := bind_eq_ok_iff.1 h
      split at h
      · cases h
      next hvalues =>
      cases h
      exact .inr (.inl ⟨name, entry, hname, henum, hentry, by simpa using hvalues, rfl⟩)
    · next henum =>
      obtain ⟨entry, hentry, h⟩ := bind_eq_ok_iff.1 h
      cases h
      refine .inr (.inr ⟨name, entry, hname, ?_, hentry, rfl⟩)
      cases ht : spec.type <;> simp_all [FieldType.isReference]

namespace TypeIndex.Resolves

variable {index : TypeIndex} {scope : Scope} {spec : FieldSpec} {field : ExtensionField}

theorem not_required (h : index.Resolves scope spec field) : field.cardinality ≠ .required := by
  intro hc
  have haccepted := h.accepted
  simp only [FieldSpec.numberOrLabelRefusal?, ← h.cardinality_eq, hc, if_true] at haccepted
  split at haccepted
  · cases haccepted
  · split at haccepted <;> cases haccepted

theorem kindFits (h : index.Resolves scope spec field) : field.kindFits = true := by
  have ht := h.type_eq
  unfold ExtensionField.kindFits
  rcases valueKind_eq_ok h.value with ⟨href, hv⟩ | ⟨_, _, -, htype, -, -, hv⟩ |
    ⟨_, _, -, htype, -, hv⟩
  · rw [hv, ht]
    cases hs : spec.type <;> simp_all [FieldType.isReference]
  · rw [hv, ht, htype]
  · rw [hv, ht]
    rcases htype with htype | htype <;> rw [htype]

theorem default_fits (h : index.Resolves scope spec field) {default : DefaultValue}
    (hd : field.defaultValue = some default) :
    field.isRepeated = false ∧ default.fits field.type = true := by
  have hread := h.default
  rw [hd, FieldSpec.readDefault] at hread
  split at hread
  · cases hread
  next text _ =>
  split at hread
  · cases hread
  next hlabel =>
  split at hread
  · next found hfound =>
    cases hread
    refine ⟨?_, h.type_eq ▸ DefaultValue.fits_of_read hfound⟩
    simpa [ExtensionField.isRepeated, h.cardinality_eq] using hlabel
  · cases hread

theorem packing_fits (h : index.Resolves scope spec field) :
    (field.packed && !(field.isRepeated && field.type.isPackable)) = false := by
  have hpacking := h.packing
  simp only [FieldSpec.isWronglyPacked] at hpacking
  rw [h.packed_eq, ExtensionField.isRepeated, h.cardinality_eq, h.type_eq]
  simpa using hpacking

theorem defaultMember_ok (h : index.Resolves scope spec field) :
    ∃ member, field.defaultMember = .ok member := by
  cases hd : field.defaultValue with
  | some default => exact field.defaultMember_of_fits hd (h.default_fits hd).2
  | none =>
    unfold ExtensionField.defaultMember
    rw [hd]
    cases ht : field.type with
    | enum =>
      rcases valueKind_eq_ok h.value with ⟨href, -⟩ | ⟨_, entry, -, -, -, hvalues, hv⟩ |
        ⟨_, _, -, htype, -, -⟩
      · simp [← h.type_eq, ht, FieldType.isReference] at href
      · obtain ⟨first, rest, hcons⟩ := List.exists_cons_of_ne_nil hvalues
        exact ⟨some ⟨"valueInt", Literal.int32 first.number⟩, by
          simp [hv, EnumRef.firstValue?, hcons]⟩
      · simp [← h.type_eq, ht] at htype
    | _ => exact ⟨none, rfl⟩

/-- **A resolved field can be lowered.** -/
theorem violation?_eq_none (h : index.Resolves scope spec field) : field.violation? = none := by
  obtain ⟨member, hmember⟩ := h.defaultMember_ok
  unfold ExtensionField.violation?
  rw [if_neg h.not_required, h.kindFits, h.packing_fits, hmember]
  cases hd : field.defaultValue with
  | none => rfl
  | some default =>
    obtain ⟨hrepeated, hfits⟩ := h.default_fits hd
    have htype : (field.type == .message || field.type == .group) = false := by
      cases ht : field.type <;> simp_all [DefaultValue.fits]
    simp [hrepeated, htype]

end TypeIndex.Resolves

end ProtoExtensions
