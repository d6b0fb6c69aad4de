import ProtoExtensions.Default
import ProtoExtensions.Proofs.Emission
import ProtoExtensions.Proofs.EscapedText
import ProtoExtensions.Proofs.Numerals

/-!
The literals of string and bytes defaults. The text between their quotes goes up to the closing
quote and reads back as the value it was made from, and a record is emitted with the literal as it
is. So a default keeps its bytes from the text that declares it to the generated source.
-/

namespace ProtoExtensions

/-- What holds of the text between the quotes of a literal that stands for some bytes: it has no
quote without a backslash, leaves the closing quote its meaning, has no control character, and reads
back as the bytes. -/
structure LiteralBody (body : List Char) (value : List UInt8) : Prop where
  quotes : '"' ∉ unescapedChars body
  closed : unescapedChars (body ++ ['"']) = unescapedChars body ++ ['"']
  controls : ∀ c ∈ body, isAsciiControl c = false
  value_eq : unescape (String.ofList body) = .ok value

theorem Escaped.literalBody {body : List Char} {value : List UInt8} (h : Escaped body value) :
    LiteralBody body value where
  quotes hmem := (h.of_mem_unescapedChars hmem).1 rfl
  closed := h.unescapedChars_append ['"']
  controls _ hc := h.isAsciiControl_eq_false_of_mem hc
  value_eq := h.unescape_eq

/-- A literal is a record of a C string, in printable ASCII and without trigraphs, that stands for
some bytes, and their number. -/
def IsBytesLiteral (literal : String) (value : List UInt8) : Prop :=
  ∃ body, literal = "\x7b .data = \"" ++ String.ofList body ++ "\", .length = " ++
      toString value.length ++ " \x7d" ∧
    LiteralBody body value ∧ '?' ∉ unescapedChars body ∧
    ∀ c ∈ body, 0x20 ≤ c.toNat ∧ c.toNat ≤ 0x7E

/-- A literal is an Objective-C string that stands for a text, in UTF-8. -/
def IsStringLiteral (literal text : String) : Prop :=
  ∃ body, literal = "@\"" ++ String.ofList body ++ "\"" ∧
    LiteralBody body (utf8Bytes text.toList)

theorem isBytesLiteral_bytes (value : List UInt8) :
    IsBytesLiteral (Literal.bytes value) value :=
  ⟨Literal.bytesBody value, rfl, (escaped_bytesBody value).literalBody,
    fun hmem => ((escaped_bytesBody value).of_mem_unescapedChars hmem).2 rfl,
    fun _ hc => printable_of_mem_bytesBody hc⟩

theorem isStringLiteral_string (text : String) : IsStringLiteral (Literal.string text) text :=
  ⟨Literal.stringBody text, rfl, (escaped_stringBody text).literalBody⟩

/-! ## Literals in records -/

theorem LiteralBody.newline_not_mem {body : List Char} {value : List UInt8}
    (h : LiteralBody body value) : '\n' ∉ body := by
  intro hmem
  exact absurd (h.controls _ hmem) (by decide)

theorem IsBytesLiteral.newline_not_mem {literal : String} {value : List UInt8}
    (h : IsBytesLiteral literal value) : '\n' ∉ literal.toList := by
  obtain ⟨body, rfl, hbody, -⟩ := h
  simp [String.toList_append, hbody.newline_not_mem, newline_not_mem_toDigits]

namespace LoweredField

variable {f : LoweredField}

theorem emits_bytes (htype : f.field.type = .bytes) {content : List UInt8}
    (hdefault : f.field.defaultValue = some (.bytes content)) :
    f.Emits "valueBytes" (Literal.bytes content) := by
  have hmember : f.field.defaultMember = .ok (some ⟨"valueBytes", Literal.bytes content⟩) := by
    unfold ExtensionField.defaultMember
    rw [htype, hdefault]
  have hdefault? : f.defaultMember? = some ⟨"valueBytes", Literal.bytes content⟩ := by
    unfold defaultMember?
    rw [hmember]
  exact emits_of_defaultMember? hdefault? (by decide)
    (isBytesLiteral_bytes content).newline_not_mem

end LoweredField

/-- **Bytes and string defaults survive.** Every bytes literal stands for the bytes it is made from,
and every string literal for the UTF-8 bytes of its text. So where a text is accepted as the default
of a bytes field, it stands for some bytes, and the record of a field with that default has a
literal for just these bytes. -/
theorem default_literals_denote :
    (∀ value, IsBytesLiteral (Literal.bytes value) value) ∧
    (∀ text, IsStringLiteral (Literal.string text) text) ∧
    ∀ text kind default, DefaultValue.read .bytes text kind = .ok default →
      ∃ content, unescape text = .ok content ∧ default = .bytes content ∧
        ∀ f : LoweredField, f.field.type = .bytes → f.field.defaultValue = some default →
          ∃ literal, f.Emits "valueBytes" literal ∧ IsBytesLiteral literal content := by
  refine ⟨isBytesLiteral_bytes, isStringLiteral_string, fun text kind default hread => ?_⟩
  simp only [DefaultValue.read] at hread
  split at hread
  · next content hcontent =>
    cases hread
    refine ⟨content, hcontent, rfl, fun f htype hdefault => ?_⟩
    exact ⟨Literal.bytes content, f.emits_bytes htype hdefault, isBytesLiteral_bytes content⟩
  · cases hread

/-- A field whose default is a zero byte with a digit behind it. -/
def zeroBeforeDigit : LoweredField where
  field := {
    name := "e"
    number := 1
    type := .bytes
    value := .scalar
    extendee := ⟨⟨"x.proto", "", none, none, false, ["M"]⟩, ["M"]⟩
    scope := .file ⟨"x.proto", "", none, none, false, ["M"]⟩
    defaultValue := some (.bytes [0x00, 0x31]) }
  sound := by decide

theorem default_literals_denote_zeroBeforeDigit :
    DefaultValue.read .bytes "\\0001" .scalar = .ok (.bytes [0x00, 0x31]) ∧
      ∃ literal, zeroBeforeDigit.Emits "valueBytes" literal ∧
        IsBytesLiteral literal [0x00, 0x31] := by
  have hbody : "\\0001" = String.ofList (Literal.bytesBody [0x00, 0x31]) := by decide
  have hread : DefaultValue.read .bytes "\\0001" .scalar = .ok (.bytes [0x00, 0x31]) := by
    simp only [DefaultValue.read, hbody, (escaped_bytesBody _).unescape_eq]
  obtain ⟨content, -, hcontent, hfield⟩ := default_literals_denote.2.2 _ _ _ hread
  cases hcontent
  exact ⟨hread, hfield zeroBeforeDigit rfl rfl⟩

end ProtoExtensions
