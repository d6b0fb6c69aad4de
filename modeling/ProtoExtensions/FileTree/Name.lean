import ProtoExtensions.Text.Utf8

/-!
Names of files and directories. A name is a row of bytes. Most names are the UTF-8 bytes of a text,
but nothing makes sure of that: a name that is no text can be shown, with a mark where its bytes
encode nothing, and what is shown does not tell which name it was.
-/

namespace ProtoExtensions

/-- The bytes that the second and the further bytes of an encoded character have to lie between, by
the first byte, where a character can start with that byte. -/
def continuation? (first : UInt8) : Option (List (UInt8 × UInt8)) :=
  if first < 0x80 then some []
  else if first < 0xC2 then none
  else if first < 0xE0 then some [(0x80, 0xBF)]
  else if first = 0xE0 then some [(0xA0, 0xBF), (0x80, 0xBF)]
  else if first = 0xED then some [(0x80, 0x9F), (0x80, 0xBF)]
  else if first < 0xF0 then some [(0x80, 0xBF), (0x80, 0xBF)]
  else if first = 0xF0 then some [(0x90, 0xBF), (0x80, 0xBF), (0x80, 0xBF)]
  else if first < 0xF4 then some [(0x80, 0xBF), (0x80, 0xBF), (0x80, 0xBF)]
  else if first = 0xF4 then some [(0x80, 0x8F), (0x80, 0xBF), (0x80, 0xBF)]
  else none

/-- The number of bytes, from the start, that lie in their ranges. -/
def matching : List (UInt8 × UInt8) → List UInt8 → Nat
  | (low, high) :: ranges, byte :: bytes =>
    if low ≤ byte ∧ byte ≤ high then matching ranges bytes + 1 else 0
  | _, _ => 0

/-- The text that some bytes show. Bytes that encode no character are taken together as far as they
could have started one, and shown as one replacement character. -/
def shownBytes : List UInt8 → String
  | [] => ""
  | first :: rest =>
    let more := (continuation? first).elim 0 (matching · rest)
    (utf8Text? (first :: rest.take more)).getD "\uFFFD" ++ shownBytes (rest.drop more)
termination_by bytes => bytes.length

/-- The name of a file or a directory. -/
structure FileName where
  bytes : List UInt8
  deriving DecidableEq, Repr

namespace FileName

/-- The name that a text gives. -/
def ofText (text : String) : FileName :=
  ⟨utf8Bytes text.toList⟩

instance : Coe String FileName := ⟨ofText⟩

/-- The text that gives a name, if there is one. -/
def text? (name : FileName) : Option String :=
  utf8Text? name.bytes

/-- The text that shows a name. -/
def shown (name : FileName) : String :=
  name.text?.getD (shownBytes name.bytes)

/-! ## The order of names -/

/-- Names are ordered by their bytes. -/
instance : LT FileName := ⟨fun a b => a.bytes < b.bytes⟩

instance : DecidableLT FileName :=
  fun a b => inferInstanceAs (Decidable (a.bytes < b.bytes))

instance : Std.Irrefl (α := FileName) (· < ·) where
  irrefl a := List.lt_irrefl a.bytes

instance : Trans (α := FileName) (· < ·) (· < ·) (· < ·) where
  trans h h' := List.lt_trans (α := UInt8) h h'

instance : Std.Trichotomous (α := FileName) (· < ·) where
  trichotomous a b hab hba := by
    have heq : a.bytes = b.bytes := List.le_antisymm (List.not_lt.1 hba) (List.not_lt.1 hab)
    cases a
    cases b
    exact congrArg mk heq

/-! ## Names that are texts -/

theorem text?_eq_some_iff {name : FileName} {text : String} :
    name.text? = some text ↔ name = ofText text := by
  rw [text?, utf8Text?_eq_some_iff]
  constructor
  · exact congrArg mk
  · rintro rfl
    rfl

/-- Two bytes that could have started a character are shown as one mark, a byte that could not as
another one. -/
example : shown ⟨[0x61, 0xE2, 0x82, 0xFF, 0x2E]⟩ = "a\uFFFD\uFFFD." := by decide +kernel

end FileName

end ProtoExtensions
