import ProtoExtensions.Proofs.NameLookup
import ProtoExtensions.Proofs.ResolvedField

/-!
The rules for extension declarations, each on its own. `FieldSpec.Breaks` says what it is to break a
rule, without the rules that are checked before it; `FieldSpec.Checks` goes through a list of rules
up to the first broken one. Each part of `TypeIndex.resolve` goes through some of the rules in this
sense, and the parts put together through all of them in their order (`TypeIndex.checks_resolve`).
So a declaration is refused for the first rule it breaks, and one that breaks none is accepted.
-/

namespace ProtoExtensions

/-! ## The rules -/

/-- The rules for the declaration of an extension, in the order in which they are checked. -/
inductive ExtensionRule where
  | numberInRange
  | numberNotReserved
  | notRequired
  | namesExtendee
  | extendeeFound
  | extendeeIsMessage
  | namesType
  | typeFound
  | typeHasKind
  | enumHasValues
  | packable
  | defaultNotRepeated
  | defaultValid
  deriving DecidableEq, Repr

namespace ExtensionRule

/-- All rules, in order. -/
def all : List ExtensionRule :=
  [numberInRange, numberNotReserved, notRequired, namesExtendee, extendeeFound, extendeeIsMessage,
    namesType, typeFound, typeHasKind, enumHasValues, packable, defaultNotRepeated, defaultValid]

/-- The code under which a broken rule is reported. -/
def code : ExtensionRule → String
  | namesExtendee | namesType => "E_MISSING_FIELD"
  | extendeeFound | typeFound => "E_REF_NOT_FOUND"
  | extendeeIsMessage | typeHasKind => "E_REF_TYPE_MISMATCH"
  | defaultValid => "E_INVALID_DEFAULT"
  | _ => "E_INVALID_FIELD"

/-- The place at which a broken rule is reported: the field, or its default. -/
def path (fieldPath : String) : ExtensionRule → String
  | defaultValid => fieldPath ++ ".defaultValue"
  | _ => fieldPath

theorem mem_all (rule : ExtensionRule) : rule ∈ all := by
  cases rule <;> decide

end ExtensionRule

/-- The kind of types that name the values of a field of a reference type. -/
def FieldType.referenceKind : FieldType → TypeKind
  | .enum => .enum
  | _ => .message

/-- The kind of values that a field declared in a scope holds: those of the type that its type name
refers to. -/
inductive TypeIndex.Holds (index : TypeIndex) (scope : String) (field : FieldSpec) :
    ValueKind → Prop
  | scalar (htype : field.type.isReference = false) : Holds index scope field .scalar
  | message {name : String} {entry : TypeEntry}
    (htype : field.type = .message ∨ field.type = .group) (hname : field.typeName = some name)
    (hfind : index.find? name scope = some entry) (hkind : entry.kind = .message) :
    Holds index scope field (.message entry.type)
  | enum {name : String} {entry : TypeEntry}
    (htype : field.type = .enum) (hname : field.typeName = some name)
    (hfind : index.find? name scope = some entry) (hkind : entry.kind = .enum) :
    Holds index scope field (.enum ⟨entry.type, entry.values⟩)

namespace FieldSpec

/-- A rule that a field declared in a scope breaks, with what is said about it. A field can break
several. -/
inductive Breaks (index : TypeIndex) (scope : String) (field : FieldSpec) :
    ExtensionRule → Refusal → Prop
  | numberInRange (h : field.number.toInt < 1 ∨ 536870911 < field.number.toInt) :
    Breaks index scope field .numberInRange .numberOutOfRange
  | numberNotReserved (h : 19000 ≤ field.number.toInt ∧ field.number.toInt ≤ 19999) :
    Breaks index scope field .numberNotReserved .numberReserved
  | notRequired (h : field.label = .required) : Breaks index scope field .notRequired .required
  | namesExtendee (h : field.extendee = none) :
    Breaks index scope field .namesExtendee .noExtendee
  | extendeeFound {name : String} (hname : field.extendee = some name)
    (hfind : index.find? name scope = none) :
    Breaks index scope field .extendeeFound (.notFound .message name scope)
  | extendeeIsMessage {name : String} {entry : TypeEntry} (hname : field.extendee = some name)
    (hfind : index.find? name scope = some entry) (hkind : entry.kind ≠ .message) :
    Breaks index scope field .extendeeIsMessage (.mismatch .message name entry)
  | namesType (htype : field.type.isReference = true) (h : field.typeName = none) :
    Breaks index scope field .namesType .noTypeName
  | typeFound {name : String} (htype : field.type.isReference = true)
    (hname : field.typeName = some name) (hfind : index.find? name scope = none) :
    Breaks index scope field .typeFound (.notFound field.type.referenceKind name scope)
  | typeHasKind {name : String} {entry : TypeEntry} (htype : field.type.isReference = true)
    (hname : field.typeName = some name) (hfind : index.find? name scope = some entry)
    (hkind : entry.kind ≠ field.type.referenceKind) :
    Breaks index scope field .typeHasKind (.mismatch field.type.referenceKind name entry)
  | enumHasValues {e : EnumRef} (h : index.Holds scope field (.enum e)) (hvalues : e.values = []) :
    Breaks index scope field .enumHasValues (.emptyEnum e.type)
  | packable (hpacked : field.options.packed = true)
    (h : field.label ≠ .repeated ∨ field.type.isPackable = false) :
    Breaks index scope field .packable .notPackable
  | defaultNotRepeated (hdefault : field.defaultValue.isSome = true)
    (hlabel : field.label = .repeated) :
    Breaks index scope field .defaultNotRepeated .repeatedDefault
  | defaultValid {text : String} {value : ValueKind} {fault : DefaultFault}
    (hdefault : field.defaultValue = some text) (hvalue : index.Holds scope field value)
    (h : DefaultValue.read field.type text value = .error fault) :
    Breaks index scope field .defaultValid (.invalidDefault fault)

/-- Whether a field keeps a rule. -/
def Keeps (index : TypeIndex) (scope : String) (field : FieldSpec) (rule : ExtensionRule) : Prop :=
  ∀ refusal, ¬field.Breaks index scope rule refusal

/-- Goes through rules up to the first one that a field breaks. -/
inductive Checks (index : TypeIndex) (scope : String) (field : FieldSpec) :
    List ExtensionRule → Option Refusal → Prop
  | passed : Checks index scope field [] none
  | broken {rule : ExtensionRule} {rules : List ExtensionRule} {refusal : Refusal} :
    field.Breaks index scope rule refusal →
    Checks index scope field (rule :: rules) (some refusal)
  | kept {rule : ExtensionRule} {rules : List ExtensionRule} {outcome : Option Refusal} :
    field.Keeps index scope rule →
    Checks index scope field rules outcome →
    Checks index scope field (rule :: rules) outcome

end FieldSpec

variable {index : TypeIndex} {scope : String} {field : FieldSpec}
  {rules first second : List ExtensionRule} {outcome : Option Refusal} {refusal : Refusal}

/-! ## One refusal for each rule -/

theorem TypeIndex.Holds.eq {a b : ValueKind} (ha : index.Holds scope field a)
    (hb : index.Holds scope field b) : a = b := by
  cases ha with
  | scalar htype =>
    cases hb with
    | scalar => rfl
    | message hother => rcases hother with h | h <;> simp [h, FieldType.isReference] at htype
    | enum hother => simp [hother, FieldType.isReference] at htype
  | message htype hname hfind =>
    cases hb with
    | scalar hother => rcases htype with h | h <;> simp [h, FieldType.isReference] at hother
    | message _ hname' hfind' =>
      obtain rfl := Option.some.inj (hname.symm.trans hname')
      obtain rfl := Option.some.inj (hfind.symm.trans hfind')
      rfl
    | enum hother => simp [hother] at htype
  | enum htype hname hfind =>
    cases hb with
    | scalar hother => simp [htype, FieldType.isReference] at hother
    | message hother => simp [htype] at hother
    | enum _ hname' hfind' =>
      obtain rfl := Option.some.inj (hname.symm.trans hname')
      obtain rfl := Option.some.inj (hfind.symm.trans hfind')
      rfl

namespace FieldSpec

/-- What is said about a broken rule is settled by the field. -/
theorem Breaks.eq {rule : ExtensionRule} {a b : Refusal} (ha : field.Breaks index scope rule a)
    (hb : field.Breaks index scope rule b) : a = b := by
  cases ha with
  | extendeeFound hname | typeFound _ hname =>
    cases hb
    next hother _ => rw [Option.some.inj (hname.symm.trans hother)]
  | extendeeIsMessage hname hfind | typeHasKind _ hname hfind =>
    cases hb
    next hname' hfind' _ =>
      obtain rfl := Option.some.inj (hname.symm.trans hname')
      rw [Option.some.inj (hfind.symm.trans hfind')]
  | enumHasValues hvalue =>
    cases hb with
    | enumHasValues hother => rw [ValueKind.enum.inj (hvalue.eq hother)]
  | defaultValid hdefault hvalue hread =>
    cases hb with
    | defaultValid hdefault' hvalue' hread' =>
      obtain rfl := Option.some.inj (hdefault.symm.trans hdefault')
      rw [hvalue.eq hvalue'] at hread
      rw [Except.error.inj (hread.symm.trans hread')]
  | _ =>
    cases hb
    rfl

/-! ## Going through rules -/

theorem Checks.append (hfirst : field.Checks index scope first none)
    (hsecond : field.Checks index scope second outcome) :
    field.Checks index scope (first ++ second) outcome := by
  generalize hnone : (none : Option Refusal) = passed at hfirst
  induction hfirst with
  | passed => exact hsecond
  | broken => cases hnone
  | kept hkept _ ih => exact .kept hkept (ih hnone)

theorem Checks.append_broken (hfirst : field.Checks index scope first (some refusal))
    (second : List ExtensionRule) :
    field.Checks index scope (first ++ second) (some refusal) := by
  generalize hsome : some refusal = broken at hfirst
  induction hfirst with
  | passed => cases hsome
  | broken hbroken =>
    obtain rfl := Option.some.inj hsome
    exact .broken hbroken
  | kept hkept _ ih => exact .kept hkept (ih hsome)

theorem Checks.eq {a b : Option Refusal} (ha : field.Checks index scope rules a)
    (hb : field.Checks index scope rules b) : a = b := by
  induction ha with
  | passed => cases hb; rfl
  | broken hbroken =>
    cases hb with
    | broken h => rw [hbroken.eq h]
    | kept hkept => exact absurd hbroken (hkept _)
  | kept hkept _ ih =>
    cases hb with
    | broken h => exact absurd h (hkept _)
    | kept _ h => exact ih h

theorem checks_none_iff :
    field.Checks index scope rules none ↔ ∀ rule ∈ rules, field.Keeps index scope rule := by
  induction rules with
  | nil => exact ⟨fun _ => by simp, fun _ => .passed⟩
  | cons rule rules ih =>
    rw [List.forall_mem_cons, ← ih]
    constructor
    · rintro (_ | _ | ⟨hkept, hrest⟩)
      exact ⟨hkept, hrest⟩
    · exact fun ⟨hkept, hrest⟩ => .kept hkept hrest

theorem checks_some_iff :
    field.Checks index scope rules (some refusal) ↔
      ∃ before rule after, rules = before ++ rule :: after ∧
        (∀ kept ∈ before, field.Keeps index scope kept) ∧
        field.Breaks index scope rule refusal := by
  constructor
  · intro h
    induction rules with
    | nil => cases h
    | cons rule rules ih =>
      cases h with
      | broken hbroken => exact ⟨[], rule, rules, rfl, by simp, hbroken⟩
      | kept hkept hrest =>
        obtain ⟨before, broken, after, rfl, hbefore, hbroken⟩ := ih hrest
        exact ⟨rule :: before, broken, after, rfl, List.forall_mem_cons.2 ⟨hkept, hbefore⟩, hbroken⟩
  · rintro ⟨before, rule, after, rfl, hbefore, hbroken⟩
    exact (checks_none_iff.2 hbefore).append (.broken hbroken)

end FieldSpec

/-! ## What the parts of resolving check -/

/-- The refusal that a part of resolving ends with, if it does. -/
def refusal? {α : Type} : Except Refusal α → Option Refusal
  | .error refusal => some refusal
  | .ok _ => none

theorem refusal?_eq_some_iff {α : Type} {part : Except Refusal α} :
    refusal? part = some refusal ↔ part = .error refusal := by
  cases part <;> simp [refusal?]

theorem refusal?_eq_none_iff {α : Type} {part : Except Refusal α} :
    refusal? part = none ↔ ∃ a, part = .ok a := by
  cases part <;> simp [refusal?]

namespace FieldSpec

/-- A part that goes on with what an earlier part gives goes on with the rules. -/
theorem Checks.bind {α β : Type} {part : Except Refusal α} {next : α → Except Refusal β}
    (hpart : field.Checks index scope first (refusal? part))
    (hnext : ∀ a, part = .ok a → field.Checks index scope second (refusal? (next a))) :
    field.Checks index scope (first ++ second) (refusal? (part >>= next)) := by
  cases part with
  | error refusal => exact hpart.append_broken second
  | ok a => exact hpart.append (hnext a rfl)

theorem checks_numberOrLabelRefusal? :
    field.Checks index scope [.numberInRange, .numberNotReserved, .notRequired]
      field.numberOrLabelRefusal? := by
  have hrange : field.number < 1 ∨ maxFieldNumber < field.number ↔
      field.number.toInt < 1 ∨ 536870911 < field.number.toInt := by
    rw [Int32.lt_iff_toInt_lt, Int32.lt_iff_toInt_lt]
    rfl
  have hreserved : isReservedNumber field.number = true ↔
      19000 ≤ field.number.toInt ∧ field.number.toInt ≤ 19999 := by
    rw [isReservedNumber, Bool.and_eq_true, decide_eq_true_iff, decide_eq_true_iff,
      Int32.le_iff_toInt_le, Int32.le_iff_toInt_le]
    rfl
  simp only [numberOrLabelRefusal?, hrange, hreserved]
  split
  · next h => exact .broken (.numberInRange h)
  next h =>
  refine .kept (by rintro _ ⟨⟩; contradiction) ?_
  split
  · next h => exact .broken (.numberNotReserved h)
  next h =>
  refine .kept (by rintro _ ⟨⟩; contradiction) ?_
  split
  · next h => exact .broken (.notRequired h)
  next h => exact .kept (by rintro _ ⟨⟩; contradiction) .passed

/-- Looking up a type that has to be of some kind checks two rules, one on each way it can fail. -/
theorem checks_expect {found hasKind : ExtensionRule} {name : String} {kind : TypeKind}
    (hfound : ∀ refusal, field.Breaks index scope found refusal ↔
      index.find? name scope = none ∧ refusal = .notFound kind name scope)
    (hkind : ∀ refusal, field.Breaks index scope hasKind refusal ↔
      ∃ entry, (index.find? name scope = some entry ∧ entry.kind ≠ kind) ∧
        refusal = .mismatch kind name entry) :
    field.Checks index scope [found, hasKind] (refusal? (index.expect name scope kind)) := by
  cases hresult : index.expect name scope kind with
  | error refusal =>
    rcases TypeIndex.expect_eq_error_iff.1 hresult with hnone | hother
    · exact .broken ((hfound refusal).2 hnone)
    · refine .kept (fun _ h => ?_) (.broken ((hkind refusal).2 hother))
      obtain ⟨entry, ⟨hentry, -⟩, -⟩ := hother
      cases hentry.symm.trans ((hfound _).1 h).1
  | ok entry =>
    obtain ⟨hentry, hright⟩ := TypeIndex.expect_eq_ok_iff.1 hresult
    refine .kept (fun _ h => ?_) (.kept (fun _ h => ?_) .passed)
    · cases hentry.symm.trans ((hfound _).1 h).1
    · obtain ⟨other, ⟨hother, hwrong⟩, -⟩ := (hkind _).1 h
      obtain rfl := Option.some.inj (hentry.symm.trans hother)
      exact hwrong hright

theorem checks_extendee (index : TypeIndex) (scope : String) (field : FieldSpec) :
    field.Checks index scope [.namesExtendee, .extendeeFound, .extendeeIsMessage]
      (refusal? (index.extendee scope field)) := by
  unfold TypeIndex.extendee
  cases hname : field.extendee with
  | none => exact .broken (.namesExtendee hname)
  | some name =>
    have hsame : refusal? ((index.expect name scope .message).map (·.type)) =
        refusal? (index.expect name scope .message) := by
      cases index.expect name scope .message <;> rfl
    rw [hsame]
    refine .kept (fun _ h => ?_) (checks_expect (fun refusal => ⟨fun h => ?_, ?_⟩)
      fun refusal => ⟨fun h => ?_, ?_⟩)
    · cases h with
      | namesExtendee hnone => cases hname.symm.trans hnone
    · cases h with
      | extendeeFound hother hnone =>
        obtain rfl := Option.some.inj (hname.symm.trans hother)
        exact ⟨hnone, rfl⟩
    · rintro ⟨hnone, rfl⟩
      exact .extendeeFound hname hnone
    · cases h with
      | extendeeIsMessage hother hfind hkind =>
        obtain rfl := Option.some.inj (hname.symm.trans hother)
        exact ⟨_, ⟨hfind, hkind⟩, rfl⟩
    · rintro ⟨entry, ⟨hfind, hkind⟩, rfl⟩
      exact .extendeeIsMessage hname hfind hkind

theorem checks_expect_typeName {name : String} (htype : field.type.isReference = true)
    (hname : field.typeName = some name) :
    field.Checks index scope [.typeFound, .typeHasKind]
      (refusal? (index.expect name scope field.type.referenceKind)) := by
  refine checks_expect (fun refusal => ⟨fun h => ?_, ?_⟩) fun refusal => ⟨fun h => ?_, ?_⟩
  · cases h with
    | typeFound _ hother hnone =>
      obtain rfl := Option.some.inj (hname.symm.trans hother)
      exact ⟨hnone, rfl⟩
  · rintro ⟨hnone, rfl⟩
    exact .typeFound htype hname hnone
  · cases h with
    | typeHasKind _ hother hfind hkind =>
      obtain rfl := Option.some.inj (hname.symm.trans hother)
      exact ⟨_, ⟨hfind, hkind⟩, rfl⟩
  · rintro ⟨entry, ⟨hfind, hkind⟩, rfl⟩
    exact .typeHasKind htype hname hfind hkind

theorem checks_enumHasValues {name : String} {entry : TypeEntry} (htype : field.type = .enum)
    (hname : field.typeName = some name)
    (hentry : index.find? name scope = some entry ∧ entry.kind = .enum) :
    field.Checks index scope [.enumHasValues]
      (refusal? (if entry.values.isEmpty then .error (.emptyEnum entry.type)
        else .ok (ValueKind.enum ⟨entry.type, entry.values⟩))) := by
  have hvalue : index.Holds scope field (.enum ⟨entry.type, entry.values⟩) :=
    .enum htype hname hentry.1 hentry.2
  split
  · next hempty => exact .broken (.enumHasValues hvalue (List.isEmpty_iff.1 hempty))
  · next hvalues =>
    refine .kept (fun refusal h => ?_) .passed
    cases h with
    | enumHasValues hother hempty =>
      obtain rfl := ValueKind.enum.inj (hother.eq hvalue)
      exact hvalues (List.isEmpty_iff.2 hempty)

/-- Only enums have to have values. -/
theorem keeps_enumHasValues (htype : field.type ≠ .enum) :
    field.Keeps index scope .enumHasValues := by
  rintro refusal ⟨⟩
  next hvalue _ =>
    cases hvalue with
    | enum h => exact htype h

theorem checks_valueKind (index : TypeIndex) (scope : String) (field : FieldSpec) :
    field.Checks index scope [.namesType, .typeFound, .typeHasKind, .enumHasValues]
      (refusal? (index.valueKind scope field)) := by
  unfold TypeIndex.valueKind
  cases htype : field.type.isReference with
  | false =>
    refine checks_none_iff.2 fun rule hrule refusal h => ?_
    cases h with
    | namesType href | typeFound href | typeHasKind href => cases htype.symm.trans href
    | enumHasValues hvalue => cases hvalue.eq (.scalar htype)
    | _ => simp at hrule
  | true =>
    simp only [Bool.not_true, Bool.false_eq_true, if_false]
    cases hname : field.typeName with
    | none => exact .broken (.namesType htype hname)
    | some name =>
      have hnamed : field.Keeps index scope .namesType := by
        intro refusal h
        cases h with
        | namesType _ hnone => cases hname.symm.trans hnone
      have hexpect : field.Checks index scope [.typeFound, .typeHasKind]
          (refusal? (index.expect name scope field.type.referenceKind)) :=
        checks_expect_typeName htype hname
      by_cases henum : field.type = .enum
      · rw [show field.type.referenceKind = .enum by rw [henum]; rfl] at hexpect
        simp only [if_pos henum]
        exact .kept hnamed (hexpect.bind fun entry hentry =>
          checks_enumHasValues henum hname (TypeIndex.expect_eq_ok_iff.1 hentry))
      · have hmessage : field.type.referenceKind = .message := by
          unfold FieldType.referenceKind
          split
          · contradiction
          · rfl
        rw [hmessage] at hexpect
        have hvalues : field.Checks index scope [.enumHasValues] none :=
          .kept (keeps_enumHasValues henum) .passed
        simp only [if_neg henum]
        exact .kept hnamed (hexpect.bind fun entry _ => hvalues)

theorem checks_packing (index : TypeIndex) (scope : String) (field : FieldSpec) :
    field.Checks index scope [.packable]
      (if field.isWronglyPacked then some .notPackable else none) := by
  have hpacked : field.isWronglyPacked = true ↔
      field.options.packed = true ∧ (field.label ≠ .repeated ∨ field.type.isPackable = false) := by
    simp [isWronglyPacked]
  split
  · next h =>
    obtain ⟨hoption, hwrong⟩ := hpacked.1 h
    exact .broken (.packable hoption hwrong)
  · next h =>
    refine .kept (fun refusal hbreaks => ?_) .passed
    cases hbreaks with
    | packable hoption hwrong => exact h (hpacked.2 ⟨hoption, hwrong⟩)

theorem checks_readDefault {value : ValueKind} (hvalue : index.Holds scope field value) :
    field.Checks index scope [.defaultNotRepeated, .defaultValid]
      (refusal? (field.readDefault value)) := by
  unfold readDefault
  cases hdefault : field.defaultValue with
  | none =>
    refine checks_none_iff.2 fun rule hrule refusal h => ?_
    cases h with
    | defaultNotRepeated hsome => simp [hdefault] at hsome
    | defaultValid htext => cases hdefault.symm.trans htext
    | _ => simp at hrule
  | some text =>
    by_cases hlabel : field.label = .repeated
    · simp only [if_pos hlabel]
      exact .broken (.defaultNotRepeated (by rw [hdefault]; rfl) hlabel)
    · simp only [if_neg hlabel]
      refine .kept (fun refusal h => ?_) ?_
      · cases h with
        | defaultNotRepeated _ hrepeated => exact hlabel hrepeated
      · cases hread : DefaultValue.read field.type text value with
        | error fault => exact .broken (.defaultValid hdefault hvalue hread)
        | ok default =>
          refine .kept (fun refusal h => ?_) .passed
          cases h with
          | defaultValid hother hvalue' hfault =>
            obtain rfl := Option.some.inj (hdefault.symm.trans hother)
            obtain rfl := hvalue.eq hvalue'
            cases hread.symm.trans hfault

end FieldSpec

namespace TypeIndex

theorem holds_of_valueKind {value : ValueKind} (h : index.valueKind scope field = .ok value) :
    index.Holds scope field value := by
  rcases valueKind_eq_ok h with ⟨htype, rfl⟩ | ⟨name, entry, hname, htype, hentry, -, rfl⟩ |
    ⟨name, entry, hname, htype, hentry, rfl⟩
  · exact .scalar htype
  · obtain ⟨hfind, hkind⟩ := expect_eq_ok_iff.1 hentry
    exact .enum htype hname hfind hkind
  · obtain ⟨hfind, hkind⟩ := expect_eq_ok_iff.1 hentry
    exact .message htype hname hfind hkind

/-! ## All rules -/

/-- Resolving goes through all rules in their order. -/
theorem checks_resolve (index : TypeIndex) (scope : Scope) (field : FieldSpec) :
    field.Checks index scope.fullName ExtensionRule.all (refusal? (index.resolve scope field)) := by
  have hnumber : field.Checks index scope.fullName
      [.numberInRange, .numberNotReserved, .notRequired] field.numberOrLabelRefusal? :=
    field.checks_numberOrLabelRefusal?
  have hextendee := field.checks_extendee index scope.fullName
  have hvalue := field.checks_valueKind index scope.fullName
  have hpacking := field.checks_packing index scope.fullName
  unfold resolve
  cases hrefusal : field.numberOrLabelRefusal? with
  | some refusal =>
    rw [hrefusal] at hnumber
    exact hnumber.append_broken _
  | none =>
    rw [hrefusal] at hnumber
    refine hnumber.append (hextendee.bind fun extendee _ => hvalue.bind fun value hholds => ?_)
    cases hpacked : field.isWronglyPacked with
    | true =>
      rw [hpacked] at hpacking
      exact hpacking.append_broken _
    | false =>
      rw [hpacked] at hpacking
      have hdefault := field.checks_readDefault (holds_of_valueKind hholds)
      exact hpacking.append (hdefault.bind fun default _ => .passed)

theorem checks_all_iff {scope : Scope} :
    field.Checks index scope.fullName ExtensionRule.all outcome ↔
      refusal? (index.resolve scope field) = outcome :=
  ⟨fun h => (index.checks_resolve scope field).eq h, fun h => h ▸ index.checks_resolve scope field⟩

/-- Exactly the declarations that keep all rules resolve to a field. -/
theorem keeps_all_iff {scope : Scope} :
    (∀ rule, field.Keeps index scope.fullName rule) ↔
      ∃ resolved, index.resolve scope field = .ok resolved := by
  rw [← refusal?_eq_none_iff, ← checks_all_iff, FieldSpec.checks_none_iff]
  exact ⟨fun h rule _ => h rule, fun h rule => h rule rule.mem_all⟩

end TypeIndex

/-! ## Accepted declarations -/

/-- A number in range is the same number without a sign. -/
theorem FieldSpec.toNat_toUInt32_number (h : field.Keeps index scope .numberInRange) :
    (field.number.toUInt32.toNat : Int) = field.number.toInt := by
  have hpositive : 1 ≤ field.number.toInt :=
    Int.not_lt.1 fun hlt => h _ (.numberInRange (.inl hlt))
  rw [show field.number.toUInt32.toNat = field.number.toBitVec.toNat from rfl, Int32.toInt,
    BitVec.toInt_eq_toNat_cond] at *
  split at hpositive <;> omega

/-- A resolved field has everything from a declaration, and its types from an index. -/
structure FieldSpec.Describes (index : TypeIndex) (scope : Scope) (field : FieldSpec)
    (resolved : ExtensionField) : Prop where
  fullName_eq : resolved.fullName = scope.fullName ++ "." ++ field.name
  name_eq : resolved.name = field.name
  scope_eq : resolved.scope = scope
  number_eq : (resolved.number.toNat : Int) = field.number.toInt
  cardinality_eq : resolved.cardinality = field.label
  type_eq : resolved.type = field.type
  packed_eq : resolved.packed = field.options.packed
  deprecated_eq : resolved.deprecated = field.options.deprecated
  extendee : ∃ name entry, field.extendee = some name ∧
    index.find? name scope.fullName = some entry ∧ entry.kind = .message ∧
    resolved.extendee = entry.type
  value : index.Holds scope.fullName field resolved.value
  default_isSome : resolved.defaultValue.isSome = field.defaultValue.isSome
  default : ∀ text ∈ field.defaultValue, ∀ default ∈ resolved.defaultValue,
    DefaultValue.read field.type text resolved.value = .ok default

namespace TypeIndex

open FieldSpec

theorem readDefault_eq_ok {value : ValueKind} {default : Option DefaultValue}
    (h : field.readDefault value = .ok default) :
    default.isSome = field.defaultValue.isSome ∧
      ∀ text ∈ field.defaultValue, ∀ found ∈ default,
        DefaultValue.read field.type text value = .ok found := by
  unfold FieldSpec.readDefault at h
  cases hdefault : field.defaultValue with
  | none =>
    simp only [hdefault] at h
    cases h
    simp
  | some text =>
    simp only [hdefault] at h
    split at h
    · cases h
    split at h
    · next found hfound =>
      cases h
      simpa using hfound
    · cases h

theorem describes_of_resolve {scope : Scope} {resolved : ExtensionField}
    (h : index.resolve scope field = .ok resolved) : field.Describes index scope resolved := by
  have hrange : field.Keeps index scope.fullName .numberInRange := keeps_all_iff.2 ⟨_, h⟩ _
  have hresolves := resolve_eq_ok_iff.1 h
  have hextendee := hresolves.extendee
  unfold TypeIndex.extendee at hextendee
  split at hextendee
  · cases hextendee
  next name hname =>
  obtain ⟨entry, hentry, htype⟩ := map_eq_ok_iff.1 hextendee
  obtain ⟨hfind, hkind⟩ := expect_eq_ok_iff.1 hentry
  obtain ⟨hpresent, hdefault⟩ := readDefault_eq_ok hresolves.default
  exact {
    fullName_eq := by rw [ExtensionField.fullName, hresolves.scope_eq, hresolves.name_eq]
    name_eq := hresolves.name_eq
    scope_eq := hresolves.scope_eq
    number_eq := by rw [hresolves.number_eq, FieldSpec.toNat_toUInt32_number hrange]
    cardinality_eq := hresolves.cardinality_eq
    type_eq := hresolves.type_eq
    packed_eq := hresolves.packed_eq
    deprecated_eq := hresolves.deprecated_eq
    extendee := ⟨name, entry, hname, hfind, hkind, htype.symm⟩
    value := holds_of_valueKind hresolves.value
    default_isSome := hpresent
    default := hdefault }

/-- **The first broken rule is reported, and only a declaration that breaks none is accepted.** A
declaration is refused with what is said about a rule that it breaks while it keeps all rules before
that one. The diagnostic has the code of the rule and the path of the field, or of its default. A
declaration that keeps all rules resolves to the field it describes. -/
theorem resolve_reportsFirst (index : TypeIndex) (scope : Scope) (field : FieldSpec) :
    (∀ refusal, index.resolve scope field = .error refusal ↔
      ∃ before rule after, ExtensionRule.all = before ++ rule :: after ∧
        (∀ kept ∈ before, field.Keeps index scope.fullName kept) ∧
        field.Breaks index scope.fullName rule refusal) ∧
      (∀ rule refusal, field.Breaks index scope.fullName rule refusal → ∀ file path,
        let diagnostic := refusal.diagnostic field file path
        diagnostic.severity = .error ∧ diagnostic.file = file ∧ diagnostic.code = rule.code ∧
          diagnostic.path = rule.path path) ∧
      ((∀ rule, field.Keeps index scope.fullName rule) ↔
        ∃ resolved, index.resolve scope field = .ok resolved) ∧
      ∀ resolved, index.resolve scope field = .ok resolved →
        field.Describes index scope resolved := by
  refine ⟨fun refusal => ?_, fun rule refusal h file path => ?_, keeps_all_iff,
    fun resolved => describes_of_resolve⟩
  · rw [← checks_some_iff, checks_all_iff, refusal?_eq_some_iff]
  · cases h <;> exact ⟨rfl, rfl, rfl, rfl⟩

/-- The message `.foo.Foo` and the enum `.foo.Mode`. -/
def fooTypes : TypeIndex where
  types := [
    (".foo.Foo", {
      kind := .message, type := ⟨{ name := "foo.proto", package := "foo" }, ["Foo"]⟩,
      declaredIn := "foo.json", path := "$.messageTypes[0]" }),
    (".foo.Mode", {
      kind := .enum, type := ⟨{ name := "foo.proto", package := "foo" }, ["Mode"]⟩,
      values := [⟨"FAST", 4⟩], declaredIn := "foo.json", path := "$.enumTypes[0]" })]

/-- A declaration that breaks three rules: it is required, it extends an enum, and it is packed. -/
def requiredMode : FieldSpec where
  name := "mode"
  number := 100
  label := .required
  type := .bool
  extendee := some "Mode"
  options := { packed := true }

/-- A declaration that keeps all rules. -/
def fastMode : FieldSpec where
  name := "mode"
  number := 100
  type := .enum
  typeName := some "Mode"
  extendee := some "Foo"
  defaultValue := some " FAST "

/-- A file whose package is further in. -/
def innerScope : Scope :=
  .file { name := "bar.proto", package := "foo.bar" }

theorem resolve_reportsFirst_requiredMode :
    (∃ refusal, requiredMode.Breaks fooTypes innerScope.fullName .extendeeIsMessage refusal) ∧
      requiredMode.Breaks fooTypes innerScope.fullName .packable .notPackable ∧
      fooTypes.resolve innerScope requiredMode = .error .required ∧
      (Refusal.required.diagnostic requiredMode "bar.json" "$.extensions[0]").code =
        "E_INVALID_FIELD" ∧
      (∀ rule, fastMode.Keeps fooTypes innerScope.fullName rule) ∧
      ∃ resolved, fooTypes.resolve innerScope fastMode = .ok resolved ∧
        fastMode.Describes fooTypes innerScope resolved ∧
        resolved.defaultValue = some (.enum "FAST" 4) := by
  obtain ⟨hfirst, hreport, -, -⟩ := fooTypes.resolve_reportsFirst innerScope requiredMode
  obtain ⟨-, -, hkeeps, hdescribes⟩ := fooTypes.resolve_reportsFirst innerScope fastMode
  have hrequired : requiredMode.Breaks fooTypes innerScope.fullName .notRequired .required :=
    .notRequired rfl
  have hbefore : ∀ kept ∈ [ExtensionRule.numberInRange, .numberNotReserved],
      requiredMode.Keeps fooTypes innerScope.fullName kept := by
    intro kept hkept refusal hbreaks
    cases hbreaks with
    | numberInRange h | numberNotReserved h =>
      revert h
      decide
    | _ => simp at hkept
  have haccepted : ∃ resolved, fooTypes.resolve innerScope fastMode = .ok resolved ∧
      resolved.defaultValue = some (.enum "FAST" 4) := by
    refine ⟨_, rfl, ?_⟩
    decide +kernel
  obtain ⟨resolved, hresolved, hdefault⟩ := haccepted
  exact ⟨⟨_, .extendeeIsMessage rfl rfl (by decide)⟩, .packable rfl (.inl (by decide)),
    (hfirst _).2 ⟨_, _, _, rfl, hbefore, hrequired⟩,
    (hreport _ _ hrequired "bar.json" "$.extensions[0]").2.2.1, hkeeps.2 ⟨resolved, hresolved⟩,
    resolved, hresolved, hdescribes resolved hresolved, hdefault⟩

end TypeIndex

end ProtoExtensions
