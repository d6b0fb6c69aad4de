/-!
The UTF-8 bytes of a text, and the text that a byte sequence encodes, if it encodes one. The order
of texts by their code points is the order of their bytes (`utf8Bytes_lt_iff`).
-/

namespace ProtoExtensions

/-- The UTF-8 bytes of a text. -/
def utf8Bytes (text : List Char) : List UInt8 :=
  text.flatMap String.utf8EncodeChar

/-- The text that a byte sequence encodes in UTF-8. -/
def utf8Text? (bytes : List UInt8) : Option String :=
  String.fromUTF8? (ByteArray.mk bytes.toArray)

theorem utf8Text?_eq_some_iff {bytes : List UInt8} {text : String} :
    utf8Text? bytes = some text ↔ bytes = utf8Bytes text.toList := by
  have hbytes : text.toByteArray = (utf8Bytes text.toList).toByteArray :=
    String.utf8Encode_toList.symm
  have hinj {a b : List UInt8} : a.toByteArray = b.toByteArray ↔ a = b := by
    refine ⟨fun h => ?_, congrArg _⟩
    have hdata := congrArg ByteArray.data h
    rw [List.data_toByteArray, List.data_toByteArray] at hdata
    simpa using congrArg Array.toList hdata
  have hmk : ByteArray.mk bytes.toArray = bytes.toByteArray := by
    rw [← List.data_toByteArray]
  rw [← hinj, ← hbytes, utf8Text?, String.fromUTF8?, hmk]
  constructor
  · intro h
    split at h
    · cases h
      rfl
    · cases h
  · intro h
    rw [dif_pos (h ▸ text.isValidUTF8)]
    exact congrArg some (String.toByteArray_inj.1 h)

@[simp] theorem utf8Bytes_nil : utf8Bytes [] = [] := rfl

theorem utf8Bytes_cons (c : Char) (rest : List Char) :
    utf8Bytes (c :: rest) = String.utf8EncodeChar c ++ utf8Bytes rest := rfl

/-- Of two characters, the lower one has the lower bytes, whatever follows them: the encodings
differ first at a byte, where they differ as the characters do. -/
theorem utf8EncodeChar_append_lt {c d : Char} (h : c < d) (a b : List UInt8) :
    String.utf8EncodeChar c ++ a < String.utf8EncodeChar d ++ b := by
  have hcode : c.val.toNat < d.val.toNat := h
  have hmax : d.val.toNat < 0x110000 := by
    have hvalid := d.valid
    simp only [UInt32.isValidChar, Nat.isValidChar] at hvalid
    omega
  unfold String.utf8EncodeChar
  generalize c.val.toNat = m at *
  generalize d.val.toNat = n at *
  dsimp only
  -- one case for each two lengths; a longer encoding starts with a greater byte
  repeat' split
  all_goals
    simp only [List.cons_append, List.nil_append, List.cons_lt_cons_iff, UInt8.lt_iff_toNat_lt,
      ← UInt8.toNat_inj, UInt8.toNat_ofNat']
    simp (disch := omega) only [Nat.mod_eq_of_lt]
    omega

theorem utf8Bytes_lt_of_lt {a b : List Char} (h : a < b) : utf8Bytes a < utf8Bytes b := by
  induction a generalizing b with
  | nil =>
    cases b with
    | nil => exact absurd h (List.not_lt_nil _)
    | cons d more =>
      rw [utf8Bytes_cons]
      cases hd : String.utf8EncodeChar d with
      | nil => exact absurd hd (by simp)
      | cons byte bytes => exact List.nil_lt_cons byte _
  | cons c rest ih =>
    cases b with
    | nil => exact absurd h (List.not_lt_nil _)
    | cons d more =>
      rw [utf8Bytes_cons, utf8Bytes_cons]
      rcases List.cons_lt_cons_iff.1 h with hcd | ⟨rfl, hrest⟩
      · exact utf8EncodeChar_append_lt hcd _ _
      · exact List.append_left_lt (ih hrest)

/-- The order of texts is the order of their bytes. -/
theorem utf8Bytes_lt_iff {a b : List Char} : utf8Bytes a < utf8Bytes b ↔ a < b := by
  refine ⟨fun h => Decidable.byContradiction fun hab => ?_, utf8Bytes_lt_of_lt⟩
  have hba : ¬ b < a := fun hba => List.lt_asymm (utf8Bytes_lt_of_lt hba) h
  have heq : a = b := List.le_antisymm (List.not_lt.1 hba) (List.not_lt.1 hab)
  exact List.lt_irrefl _ (heq ▸ h)

/-- Whether the bytes of a text are less than those of another. -/
def BytesLt (a b : String) : Prop :=
  utf8Bytes a.toList < utf8Bytes b.toList

theorem bytesLt_iff {a b : String} : BytesLt a b ↔ a < b := by
  rw [BytesLt, utf8Bytes_lt_iff, String.lt_iff]

/-- Texts keep their order in front of one more character and a rest, where all characters of the
greater one are greater than that character. -/
theorem append_cons_lt_append_cons {a b : List Char} (h : a < b) {mark : Char}
    (hb : ∀ c ∈ b, mark < c) (rest : List Char) : a ++ mark :: rest < b ++ mark :: rest := by
  induction a generalizing b with
  | nil =>
    cases b with
    | nil => exact absurd h (List.not_lt_nil _)
    | cons d more => exact List.cons_lt_cons_iff.2 (.inl (hb d List.mem_cons_self))
  | cons c front ih =>
    cases b with
    | nil => exact absurd h (List.not_lt_nil _)
    | cons d more =>
      refine List.cons_lt_cons_iff.2 ((List.cons_lt_cons_iff.1 h).imp_right fun hrest => ?_)
      exact ⟨hrest.1, ih hrest.2 fun e he => hb e (List.mem_cons_of_mem d he)⟩

/-- Texts keep their order between a common front and a common back, where all characters of the
greater one are greater than the one behind it. -/
theorem BytesLt.between {a b : String} (h : BytesLt a b) (front : String) {back : String}
    {mark : Char} {rest : List Char} (hback : back.toList = mark :: rest)
    (hb : ∀ c ∈ b.toList, mark < c) : BytesLt (front ++ a ++ back) (front ++ b ++ back) := by
  rw [bytesLt_iff, String.lt_iff] at h ⊢
  simp only [String.toList_append, List.append_assoc, hback]
  exact List.append_left_lt (append_cons_lt_append_cons h hb rest)

end ProtoExtensions
