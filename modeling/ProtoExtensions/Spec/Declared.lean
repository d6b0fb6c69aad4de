import ProtoExtensions.Spec

/-!
What a file declares, in the order in which it is visited, with the place of each declaration. A
message comes before the messages inside it, and these come before its enums. The extensions of a
file come before those of its messages, and those of a message before those of the messages inside
it.
-/

namespace ProtoExtensions

/-- A step from a declaration to one of the declarations inside it. -/
inductive Step where
  | messageType (index : Nat)
  | nestedType (index : Nat)
  | enumType (index : Nat)
  | extension (index : Nat)
  deriving DecidableEq, Repr

/-- The text of a step. -/
def Step.text : Step → String
  | messageType index => ".messageTypes[" ++ toString index ++ "]"
  | nestedType index => ".nestedTypes[" ++ toString index ++ "]"
  | enumType index => ".enumTypes[" ++ toString index ++ "]"
  | extension index => ".extensions[" ++ toString index ++ "]"

/-- The way from a file to a declaration in it. -/
abbrev Place := List Step

/-- The text of a place. -/
def Place.text (place : Place) : String :=
  "$" ++ String.join (place.map Step.text)

/-- Kinds of named types. -/
inductive TypeKind where
  | message
  | enum
  deriving DecidableEq, Repr

/-- The name of a kind of types. -/
def TypeKind.name : TypeKind → String
  | message => "message"
  | enum => "enum"

/-- A declared type: its names on the way down to it, and the values of an enum. -/
structure DeclaredType where
  kind : TypeKind
  names : List String
  values : List EnumValue
  place : Place
  deriving DecidableEq, Repr

/-- A declared extension, with the names of the messages around it. -/
structure DeclaredExtension where
  messages : List String
  field : FieldSpec
  place : Place
  deriving DecidableEq, Repr

/-! ## Types -/

/-- The enums declared at a place. -/
def declaredEnums (names : List String) (place : Place) (enums : List EnumSpec) :
    List DeclaredType :=
  enums.mapIdx fun index enum =>
    ⟨.enum, names ++ [enum.name], enum.values, place ++ [.enumType index]⟩

mutual

/-- A message and the types inside it. -/
def MessageSpec.declaredTypes (outer : List String) (place : Place) :
    MessageSpec → List DeclaredType
  | ⟨name, nestedTypes, enumTypes, _⟩ =>
    ⟨.message, outer ++ [name], [], place⟩ ::
      (declaredMessages (outer ++ [name]) place .nestedType 0 nestedTypes ++
        declaredEnums (outer ++ [name]) place enumTypes)

/-- Messages that stand at a place from an index on, and the types inside them. -/
def declaredMessages (outer : List String) (place : Place) (step : Nat → Step) (index : Nat) :
    List MessageSpec → List DeclaredType
  | [] => []
  | message :: messages =>
    message.declaredTypes outer (place ++ [step index]) ++
      declaredMessages outer place step (index + 1) messages

end

/-- The types a file declares. -/
def FileSpec.declaredTypes (spec : FileSpec) : List DeclaredType :=
  declaredMessages [] [] .messageType 0 spec.messageTypes ++ declaredEnums [] [] spec.enumTypes

/-! ## Extensions -/

/-- The extensions declared at a place. -/
def declaredFields (messages : List String) (place : Place) (fields : List FieldSpec) :
    List DeclaredExtension :=
  fields.mapIdx fun index field => ⟨messages, field, place ++ [.extension index]⟩

mutual

/-- The extensions declared inside a message. -/
def MessageSpec.declaredExtensions (outer : List String) (place : Place) :
    MessageSpec → List DeclaredExtension
  | ⟨name, nestedTypes, _, extensions⟩ =>
    declaredFields (outer ++ [name]) place extensions ++
      nestedExtensions (outer ++ [name]) place .nestedType 0 nestedTypes

/-- The extensions declared inside messages that stand at a place from an index on. -/
def nestedExtensions (outer : List String) (place : Place) (step : Nat → Step) (index : Nat) :
    List MessageSpec → List DeclaredExtension
  | [] => []
  | message :: messages =>
    message.declaredExtensions outer (place ++ [step index]) ++
      nestedExtensions outer place step (index + 1) messages

end

/-- The extensions a file declares. -/
def FileSpec.declaredExtensions (spec : FileSpec) : List DeclaredExtension :=
  declaredFields [] [] spec.extensions ++
    nestedExtensions [] [] .messageType 0 spec.messageTypes

/-- Where an extension of a file is declared. -/
def DeclaredExtension.scope (declared : DeclaredExtension) (file : ProtoFile) : Scope :=
  if declared.messages.isEmpty then .file file else .message ⟨file, declared.messages⟩

@[simp] theorem DeclaredExtension.declaringFile_scope (declared : DeclaredExtension)
    (file : ProtoFile) : (declared.scope file).declaringFile = file := by
  unfold scope
  split <;> rfl

end ProtoExtensions
