/-!
Shapes of JSON values: what a reader expects at a place. Records are named by a kind, and a schema
gives the fields of each kind, so a record can hold records of its own kind.
-/

namespace ProtoExtensions

/-- What a reader expects at a place, over the record kinds of some schema. -/
inductive Shape (κ : Type) where
  | text
  | path
  | flag
  | int32
  | choice (variants : List String)
  | optional (shape : Shape κ)
  | list (item : Shape κ)
  | record (kind : κ)

/-- When a field may be missing: never; in an object but not in a list of fields; or always. -/
inductive Presence where
  | required
  | optional
  | defaulted
  deriving DecidableEq, Repr

/-- A field of a record. -/
structure FieldShape (κ : Type) where
  key : String
  shape : Shape κ
  presence : Presence

/-- A record with its fields in order. -/
structure RecordShape (κ : Type) where
  name : String
  fields : List (FieldShape κ)

/-- The records of some kinds. -/
abbrev Schema (κ : Type) := κ → RecordShape κ

end ProtoExtensions
