import Mathlib.Data.List.Lex
import ProtoExtensions.Spec.Declared

/-!
The order in which the types of a file are visited. Which types a file declares is said once more by
descending into the file (`FileSpec.DeclaresType`), and the order of two declarations follows from
their places alone (`Place.TypeBefore`): a message comes before what is inside it, messages come
before enums, and each of both in the order of their indices. `declaredTypes` has all types in this
order (`listsTypes_declaredTypes`), as many as the file's messages and enums count.
-/

namespace ProtoExtensions

/-! ## Places in order -/

/-- Whether one of two steps from a declaration is taken before the other in a visit of the types:
messages in order, and then enums in order. -/
def Step.TypeBefore : Step → Step → Prop
  | .messageType i, .messageType j => i < j
  | .nestedType i, .nestedType j => i < j
  | .enumType i, .enumType j => i < j
  | .messageType _, .enumType _ => True
  | .nestedType _, .enumType _ => True
  | _, _ => False

/-- Whether a place is visited before another one: it is around the other place or, where they part,
its step is taken first. -/
def Place.TypeBefore : Place → Place → Prop :=
  List.Lex Step.TypeBefore

theorem Place.TypeBefore.append {a b : Place} (h : a.TypeBefore b) (place : Place) :
    Place.TypeBefore (place ++ a) (place ++ b) :=
  List.Lex.append_left _ h place

/-! ## What a file declares -/

/-- A declared type as it is seen from further outside, behind some names and a way. -/
def DeclaredType.within (names : List String) (place : Place) (declared : DeclaredType) :
    DeclaredType :=
  { declared with names := names ++ declared.names, place := place ++ declared.place }

/-- A message declares itself, its enums, and what the messages inside it declare. -/
inductive MessageSpec.DeclaresType : MessageSpec → DeclaredType → Prop
  | self {message : MessageSpec} :
      message.DeclaresType ⟨.message, [message.name], [], []⟩
  | nested {message inner : MessageSpec} {i : Nat} {declared : DeclaredType}
      (h : message.nestedTypes[i]? = some inner) (hinner : inner.DeclaresType declared) :
      message.DeclaresType (declared.within [message.name] [.nestedType i])
  | enum {message : MessageSpec} {i : Nat} {enum : EnumSpec}
      (h : message.enumTypes[i]? = some enum) :
      message.DeclaresType ⟨.enum, [message.name, enum.name], enum.values, [.enumType i]⟩

/-- A file declares what its messages declare, and its enums. -/
inductive FileSpec.DeclaresType (spec : FileSpec) : DeclaredType → Prop
  | inMessage {message : MessageSpec} {i : Nat} {declared : DeclaredType}
      (h : spec.messageTypes[i]? = some message) (hmessage : message.DeclaresType declared) :
      spec.DeclaresType (declared.within [] [.messageType i])
  | enum {i : Nat} {enum : EnumSpec} (h : spec.enumTypes[i]? = some enum) :
      spec.DeclaresType ⟨.enum, [enum.name], enum.values, [.enumType i]⟩

/-- A list has all types that a file declares, ordered by their places. -/
structure FileSpec.ListsTypes (spec : FileSpec) (listed : List DeclaredType) : Prop where
  ordered : listed.Pairwise fun a b => a.place.TypeBefore b.place
  complete : ∀ declared, declared ∈ listed ↔ spec.DeclaresType declared

mutual

/-- The number of messages and enums that a message declares, itself among them. -/
def MessageSpec.typeCount : MessageSpec → Nat
  | ⟨_, nestedTypes, enumTypes, _⟩ => 1 + nestedTypeCount nestedTypes + enumTypes.length

/-- The number of messages and enums that some messages declare. -/
def nestedTypeCount : List MessageSpec → Nat
  | [] => 0
  | message :: messages => message.typeCount + nestedTypeCount messages

end

/-- The number of messages and enums that a file declares. -/
def FileSpec.typeCount (spec : FileSpec) : Nat :=
  nestedTypeCount spec.messageTypes + spec.enumTypes.length

/-! ## Enums at a place -/

theorem mem_declaredEnums {names : List String} {place : Place} {enums : List EnumSpec}
    {declared : DeclaredType} :
    declared ∈ declaredEnums names place enums ↔
      ∃ i enum, enums[i]? = some enum ∧
        declared = ⟨.enum, names ++ [enum.name], enum.values, place ++ [.enumType i]⟩ := by
  simp only [declaredEnums, List.mem_mapIdx]
  constructor
  · rintro ⟨i, hi, rfl⟩
    exact ⟨i, enums[i], List.getElem?_eq_getElem hi, rfl⟩
  · rintro ⟨i, enum, henum, rfl⟩
    obtain ⟨hi, rfl⟩ := List.getElem?_eq_some_iff.1 henum
    exact ⟨i, hi, rfl⟩

theorem pairwise_declaredEnums (names : List String) (place : Place) (enums : List EnumSpec) :
    (declaredEnums names place enums).Pairwise fun a b => a.place.TypeBefore b.place := by
  rw [declaredEnums, List.pairwise_iff_getElem]
  intro i j hi hj hij
  have hstep : Step.TypeBefore (.enumType i) (.enumType j) := hij
  simp only [List.getElem_mapIdx]
  exact Place.TypeBefore.append (.rel hstep) place

/-! ## Types inside messages -/

mutual

/-- The types listed for a message are those it declares, with the outer names and the place of the
message in front. -/
theorem MessageSpec.mem_declaredTypes {outer : List String} {place : Place}
    {declared : DeclaredType} : ∀ {message : MessageSpec},
      declared ∈ message.declaredTypes outer place ↔
        ∃ inner, message.DeclaresType inner ∧ declared = inner.within outer place
  | ⟨name, nestedTypes, enumTypes, extensions⟩ => by
    rw [MessageSpec.declaredTypes, List.mem_cons, List.mem_append, mem_declaredMessages,
      mem_declaredEnums]
    constructor
    · rintro (rfl | ⟨i, message, inner, hmessage, hinner, rfl⟩ | ⟨i, enum, henum, rfl⟩)
      · exact ⟨_, .self, by simp [DeclaredType.within]⟩
      · exact ⟨_, .nested hmessage hinner, by simp [DeclaredType.within]⟩
      · exact ⟨_, .enum henum, by simp [DeclaredType.within]⟩
    · rintro ⟨inner, hinner, rfl⟩
      cases hinner with
      | self => exact .inl (by simp [DeclaredType.within])
      | nested hmessage hinner =>
        exact .inr (.inl ⟨_, _, _, hmessage, hinner, by simp [DeclaredType.within]⟩)
      | enum henum => exact .inr (.inr ⟨_, _, henum, by simp [DeclaredType.within]⟩)

theorem mem_declaredMessages {outer : List String} {place : Place} {step : Nat → Step}
    {index : Nat} {declared : DeclaredType} : ∀ {messages : List MessageSpec},
      declared ∈ declaredMessages outer place step index messages ↔
        ∃ (i : Nat) (message : MessageSpec) (inner : DeclaredType),
          messages[i]? = some message ∧ message.DeclaresType inner ∧
            declared = inner.within outer (place ++ [step (index + i)])
  | [] => by simp [declaredMessages]
  | first :: messages => by
    rw [declaredMessages, List.mem_append, first.mem_declaredTypes, mem_declaredMessages]
    constructor
    · rintro (⟨inner, hinner, rfl⟩ | ⟨i, message, inner, hmessage, hinner, rfl⟩)
      · exact ⟨0, first, inner, rfl, hinner, rfl⟩
      · refine ⟨i + 1, message, inner, hmessage, hinner, ?_⟩
        rw [Nat.add_right_comm, Nat.add_assoc]
    · rintro ⟨i, message, inner, hmessage, hinner, rfl⟩
      cases i with
      | zero =>
        cases hmessage
        exact .inl ⟨inner, hinner, rfl⟩
      | succ i =>
        refine .inr ⟨i, message, inner, hmessage, hinner, ?_⟩
        rw [Nat.add_right_comm, Nat.add_assoc]

end

mutual

theorem MessageSpec.pairwise_declaredTypes (outer : List String) (place : Place) :
    ∀ message : MessageSpec,
      (message.declaredTypes outer place).Pairwise fun a b => a.place.TypeBefore b.place
  | ⟨name, nestedTypes, enumTypes, extensions⟩ => by
    rw [MessageSpec.declaredTypes, List.pairwise_cons, List.pairwise_append]
    refine ⟨fun inside hinside => ?_,
      pairwise_declaredMessages _ _ .nestedType (fun i j hij => hij) 0 nestedTypes,
      pairwise_declaredEnums _ _ _, fun message hmessage enum henum => ?_⟩
    · -- what is inside has the place of the message as a proper beginning
      have hplace : ∃ step rest, inside.place = place ++ step :: rest := by
        rcases List.mem_append.1 hinside with hinside | hinside
        · obtain ⟨i, message, inner, -, -, rfl⟩ := mem_declaredMessages.1 hinside
          exact ⟨.nestedType (0 + i), inner.place, by simp [DeclaredType.within]⟩
        · obtain ⟨i, enum, -, rfl⟩ := mem_declaredEnums.1 hinside
          exact ⟨.enumType i, [], rfl⟩
      obtain ⟨step, rest, hplace⟩ := hplace
      have hnil : Place.TypeBefore [] (step :: rest) := .nil
      simpa [hplace] using hnil.append place
    · obtain ⟨i, inner, declared, -, -, rfl⟩ := mem_declaredMessages.1 hmessage
      obtain ⟨j, spec, -, rfl⟩ := mem_declaredEnums.1 henum
      have hstep : Step.TypeBefore (.nestedType (0 + i)) (.enumType j) := trivial
      simp only [DeclaredType.within, List.append_assoc]
      exact Place.TypeBefore.append (.rel hstep) place

theorem pairwise_declaredMessages (outer : List String) (place : Place) (step : Nat → Step)
    (hstep : ∀ i j, i < j → (step i).TypeBefore (step j)) (index : Nat) :
    ∀ messages : List MessageSpec, (declaredMessages outer place step index messages).Pairwise
      fun a b => a.place.TypeBefore b.place
  | [] => by simp [declaredMessages]
  | message :: messages => by
    rw [declaredMessages, List.pairwise_append]
    refine ⟨message.pairwise_declaredTypes _ _,
      pairwise_declaredMessages _ _ _ hstep _ messages, ?_⟩
    intro first hfirst later hlater
    obtain ⟨inner, -, rfl⟩ := MessageSpec.mem_declaredTypes.1 hfirst
    obtain ⟨i, other, inner', -, -, rfl⟩ := mem_declaredMessages.1 hlater
    simp only [DeclaredType.within, List.append_assoc, List.singleton_append]
    exact Place.TypeBefore.append (.rel (hstep _ _ (by omega))) place

end

mutual

theorem MessageSpec.length_declaredTypes (outer : List String) (place : Place) :
    ∀ message : MessageSpec, (message.declaredTypes outer place).length = message.typeCount
  | ⟨name, nestedTypes, enumTypes, extensions⟩ => by
    rw [MessageSpec.declaredTypes, MessageSpec.typeCount, List.length_cons, List.length_append,
      length_declaredMessages, declaredEnums, List.length_mapIdx]
    omega

theorem length_declaredMessages (outer : List String) (place : Place) (step : Nat → Step)
    (index : Nat) : ∀ messages : List MessageSpec,
      (declaredMessages outer place step index messages).length = nestedTypeCount messages
  | [] => by simp [declaredMessages, nestedTypeCount]
  | message :: messages => by
    rw [declaredMessages, nestedTypeCount, List.length_append, message.length_declaredTypes,
      length_declaredMessages]

end

/-! ## Types of a file -/

namespace FileSpec

/-- **All types in order.** A file lists every message and enum that it declares, each message
before the messages inside it, these before its enums, and top-level messages before top-level
enums. -/
theorem listsTypes_declaredTypes (spec : FileSpec) : spec.ListsTypes spec.declaredTypes where
  ordered := by
    rw [declaredTypes, List.pairwise_append]
    refine ⟨pairwise_declaredMessages _ _ .messageType (fun i j hij => hij) 0 spec.messageTypes,
      pairwise_declaredEnums _ _ _, fun message hmessage enum henum => ?_⟩
    obtain ⟨i, inner, declared, -, -, rfl⟩ := mem_declaredMessages.1 hmessage
    obtain ⟨j, other, -, rfl⟩ := mem_declaredEnums.1 henum
    have hstep : Step.TypeBefore (.messageType (0 + i)) (.enumType j) := trivial
    exact .rel hstep
  complete declared := by
    rw [declaredTypes, List.mem_append, mem_declaredMessages, mem_declaredEnums]
    constructor
    · rintro (⟨i, message, inner, hmessage, hinner, rfl⟩ | ⟨i, enum, henum, rfl⟩)
      · simpa using FileSpec.DeclaresType.inMessage hmessage hinner
      · exact .enum henum
    · intro h
      cases h with
      | inMessage hmessage hinner => exact .inl ⟨_, _, _, hmessage, hinner, by simp⟩
      | enum henum => exact .inr ⟨_, _, henum, rfl⟩

theorem length_declaredTypes (spec : FileSpec) : spec.declaredTypes.length = spec.typeCount := by
  rw [declaredTypes, typeCount, List.length_append, length_declaredMessages, declaredEnums,
    List.length_mapIdx]

end FileSpec

end ProtoExtensions
