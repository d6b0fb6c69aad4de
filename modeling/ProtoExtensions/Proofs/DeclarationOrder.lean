import Mathlib.Data.List.Lex
import ProtoExtensions.Spec.Declared

/-!
The order in which the extensions of a file are visited. Which extensions a file declares, and
where, is said once more by descending into the file (`FileSpec.Declares`); the order of two
declarations follows from their places alone (`Place.Before`). `declaredExtensions` has every
declaration and is ordered by place (`listsAll_declaredExtensions`). Its length is the file's
extension count.
-/

namespace ProtoExtensions

/-! ## Places in order -/

/-- Whether one of two steps from a declaration is taken before the other: extensions come first, in
order, and then messages, in order. -/
def Step.Before : Step → Step → Prop
  | .extension i, .extension j => i < j
  | .extension _, .messageType _ => True
  | .extension _, .nestedType _ => True
  | .messageType i, .messageType j => i < j
  | .nestedType i, .nestedType j => i < j
  | _, _ => False

/-- Whether a place is visited before another one: where they part, its step is taken first. -/
def Place.Before : Place → Place → Prop :=
  List.Lex Step.Before

instance : Std.Asymm Step.Before where
  asymm a b hab hba := by
    cases a <;> cases b <;> simp only [Step.Before] at hab hba
    all_goals omega

theorem Place.Before.append {a b : Place} (h : a.Before b) (place : Place) :
    Place.Before (place ++ a) (place ++ b) :=
  List.Lex.append_left _ h place

theorem Place.Before.asymm {a b : Place} (hab : a.Before b) : ¬b.Before a :=
  Std.Asymm.asymm (r := List.Lex Step.Before) a b hab

/-! ## What a file declares -/

/-- A message declares a field at a place inside it; the names are those of the messages on the way
there, its own first. -/
inductive MessageSpec.Declares : MessageSpec → Place → List String → FieldSpec → Prop
  | own {message : MessageSpec} {i : Nat} {field : FieldSpec}
      (h : message.extensions[i]? = some field) :
      message.Declares [.extension i] [message.name] field
  | nested {message inner : MessageSpec} {i : Nat} {place : Place} {names : List String}
      {field : FieldSpec} (h : message.nestedTypes[i]? = some inner)
      (hinner : inner.Declares place names field) :
      message.Declares (.nestedType i :: place) (message.name :: names) field

/-- A file declares an extension, at its top level or inside one of its messages. -/
inductive FileSpec.Declares (spec : FileSpec) : DeclaredExtension → Prop
  | topLevel {i : Nat} {field : FieldSpec} (h : spec.extensions[i]? = some field) :
      spec.Declares ⟨[], field, [.extension i]⟩
  | inMessage {message : MessageSpec} {i : Nat} {place : Place} {names : List String}
      {field : FieldSpec} (h : spec.messageTypes[i]? = some message)
      (hmessage : message.Declares place names field) :
      spec.Declares ⟨names, field, .messageType i :: place⟩

/-- A list has all extensions that a file declares, ordered by their places. -/
structure FileSpec.ListsAll (spec : FileSpec) (listed : List DeclaredExtension) : Prop where
  ordered : listed.Pairwise fun a b => a.place.Before b.place
  complete : ∀ declared, declared ∈ listed ↔ spec.Declares declared

/-! ## Fields at a place -/

theorem mem_declaredFields {messages : List String} {place : Place} {fields : List FieldSpec}
    {declared : DeclaredExtension} :
    declared ∈ declaredFields messages place fields ↔
      ∃ i field, fields[i]? = some field ∧
        declared = ⟨messages, field, place ++ [.extension i]⟩ := by
  simp only [declaredFields, List.mem_mapIdx]
  constructor
  · rintro ⟨i, hi, rfl⟩
    exact ⟨i, fields[i], List.getElem?_eq_getElem hi, rfl⟩
  · rintro ⟨i, field, hfield, rfl⟩
    obtain ⟨hi, rfl⟩ := List.getElem?_eq_some_iff.1 hfield
    exact ⟨i, hi, rfl⟩

theorem pairwise_declaredFields (messages : List String) (place : Place)
    (fields : List FieldSpec) :
    (declaredFields messages place fields).Pairwise fun a b => a.place.Before b.place := by
  rw [declaredFields, List.pairwise_iff_getElem]
  intro i j hi hj hij
  have hstep : Step.Before (.extension i) (.extension j) := hij
  simp only [List.getElem_mapIdx]
  exact Place.Before.append (.rel hstep) place

theorem length_declaredFields (messages : List String) (place : Place) (fields : List FieldSpec) :
    (declaredFields messages place fields).length = fields.length :=
  List.length_mapIdx

/-! ## Extensions inside messages -/

mutual

/-- The extensions listed for a message are those it declares, with the outer names and the place of
the message in front. -/
theorem MessageSpec.mem_declaredExtensions {outer : List String} {place : Place}
    {declared : DeclaredExtension} : ∀ {message : MessageSpec},
      declared ∈ message.declaredExtensions outer place ↔
        ∃ rest names field, message.Declares rest names field ∧
          declared = ⟨outer ++ names, field, place ++ rest⟩
  | ⟨name, nestedTypes, enumTypes, extensions⟩ => by
    rw [MessageSpec.declaredExtensions, List.mem_append, mem_declaredFields, mem_nestedExtensions]
    constructor
    · rintro (⟨i, field, hfield, rfl⟩ | ⟨i, inner, rest, names, field, hinner, hdeclares, rfl⟩)
      · exact ⟨_, _, _, .own hfield, rfl⟩
      · exact ⟨_, _, _, .nested hinner hdeclares, by simp⟩
    · rintro ⟨rest, names, field, hdeclares, rfl⟩
      cases hdeclares with
      | own hfield => exact .inl ⟨_, _, hfield, rfl⟩
      | nested hinner hdeclares => exact .inr ⟨_, _, _, _, _, hinner, hdeclares, by simp⟩

theorem mem_nestedExtensions {outer : List String} {place : Place} {step : Nat → Step}
    {index : Nat} {declared : DeclaredExtension} : ∀ {messages : List MessageSpec},
      declared ∈ nestedExtensions outer place step index messages ↔
        ∃ i message rest names field, messages[i]? = some message ∧
          message.Declares rest names field ∧
          declared = ⟨outer ++ names, field, place ++ step (index + i) :: rest⟩
  | [] => by simp [nestedExtensions]
  | message :: messages => by
    rw [nestedExtensions, List.mem_append, message.mem_declaredExtensions, mem_nestedExtensions]
    constructor
    · rintro (⟨rest, names, field, hdeclares, rfl⟩ |
        ⟨i, inner, rest, names, field, hinner, hdeclares, rfl⟩)
      · exact ⟨0, message, rest, names, field, rfl, hdeclares, by simp⟩
      · refine ⟨i + 1, inner, rest, names, field, hinner, hdeclares, ?_⟩
        rw [Nat.add_right_comm, Nat.add_assoc]
    · rintro ⟨i, inner, rest, names, field, hinner, hdeclares, rfl⟩
      cases i with
      | zero =>
        cases hinner
        exact .inl ⟨rest, names, field, hdeclares, by simp⟩
      | succ i =>
        refine .inr ⟨i, inner, rest, names, field, hinner, hdeclares, ?_⟩
        rw [Nat.add_right_comm, Nat.add_assoc]

end

mutual

theorem MessageSpec.pairwise_declaredExtensions (outer : List String) (place : Place) :
    ∀ message : MessageSpec,
      (message.declaredExtensions outer place).Pairwise fun a b => a.place.Before b.place
  | ⟨name, nestedTypes, enumTypes, extensions⟩ => by
    rw [MessageSpec.declaredExtensions, List.pairwise_append]
    refine ⟨pairwise_declaredFields _ _ _,
      pairwise_nestedExtensions _ _ .nestedType (fun i j hij => hij) 0 nestedTypes, ?_⟩
    intro own hown inner hinner
    obtain ⟨i, field, -, rfl⟩ := mem_declaredFields.1 hown
    obtain ⟨j, message, rest, names, field', -, -, rfl⟩ := mem_nestedExtensions.1 hinner
    have hstep : Step.Before (.extension i) (.nestedType (0 + j)) := trivial
    exact Place.Before.append (.rel hstep) place

theorem pairwise_nestedExtensions (outer : List String) (place : Place) (step : Nat → Step)
    (hstep : ∀ i j, i < j → (step i).Before (step j)) (index : Nat) :
    ∀ messages : List MessageSpec, (nestedExtensions outer place step index messages).Pairwise
      fun a b => a.place.Before b.place
  | [] => by simp [nestedExtensions]
  | message :: messages => by
    rw [nestedExtensions, List.pairwise_append]
    refine ⟨message.pairwise_declaredExtensions _ _,
      pairwise_nestedExtensions _ _ _ hstep _ messages, ?_⟩
    intro first hfirst later hlater
    obtain ⟨rest, names, field, -, rfl⟩ := MessageSpec.mem_declaredExtensions.1 hfirst
    obtain ⟨i, inner, rest', names', field', -, -, rfl⟩ := mem_nestedExtensions.1 hlater
    simp only [List.append_assoc, List.singleton_append]
    exact Place.Before.append (.rel (hstep _ _ (by omega))) place

end

mutual

theorem MessageSpec.length_declaredExtensions (outer : List String) (place : Place) :
    ∀ message : MessageSpec,
      (message.declaredExtensions outer place).length = message.extensionCount
  | ⟨name, nestedTypes, enumTypes, extensions⟩ => by
    rw [MessageSpec.declaredExtensions, MessageSpec.extensionCount, List.length_append,
      length_declaredFields, length_nestedExtensions]

theorem length_nestedExtensions (outer : List String) (place : Place) (step : Nat → Step)
    (index : Nat) : ∀ messages : List MessageSpec,
      (nestedExtensions outer place step index messages).length = nestedExtensionCount messages
  | [] => by simp [nestedExtensions, nestedExtensionCount]
  | message :: messages => by
    rw [nestedExtensions, nestedExtensionCount, List.length_append,
      message.length_declaredExtensions, length_nestedExtensions]

end

/-! ## Extensions of a file -/

namespace FileSpec

/-- **All extensions in order.** A file lists every extension that it declares, top-level ones
first, then message by message, the own extensions of a message before those of the messages inside
it. -/
theorem listsAll_declaredExtensions (spec : FileSpec) :
    spec.ListsAll spec.declaredExtensions where
  ordered := by
    rw [declaredExtensions, List.pairwise_append]
    refine ⟨pairwise_declaredFields _ _ _,
      pairwise_nestedExtensions _ _ .messageType (fun i j hij => hij) 0 spec.messageTypes, ?_⟩
    intro own hown inner hinner
    obtain ⟨i, field, -, rfl⟩ := mem_declaredFields.1 hown
    obtain ⟨j, message, rest, names, field', -, -, rfl⟩ := mem_nestedExtensions.1 hinner
    have hstep : Step.Before (.extension i) (.messageType (0 + j)) := trivial
    exact .rel hstep
  complete declared := by
    rw [declaredExtensions, List.mem_append, mem_declaredFields, mem_nestedExtensions]
    constructor
    · rintro (⟨i, field, hfield, rfl⟩ | ⟨i, message, rest, names, field, hmessage, hdeclares, rfl⟩)
      · exact .topLevel hfield
      · simpa using FileSpec.Declares.inMessage hmessage hdeclares
    · intro h
      cases h with
      | topLevel hfield => exact .inl ⟨_, _, hfield, rfl⟩
      | inMessage hmessage hdeclares =>
        exact .inr ⟨_, _, _, _, _, hmessage, hdeclares, by simp⟩

theorem length_declaredExtensions (spec : FileSpec) :
    spec.declaredExtensions.length = spec.extensionCount := by
  rw [declaredExtensions, extensionCount, List.length_append, length_declaredFields,
    length_nestedExtensions]

end FileSpec

end ProtoExtensions
