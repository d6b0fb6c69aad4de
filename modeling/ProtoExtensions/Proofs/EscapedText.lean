import ProtoExtensions.Literal
import ProtoExtensions.Proofs.EscapeScan

/-!
What literals say about the texts and bytes they are made from. A literal writes a character as it
is, or as a backslash and one more character, or as a backslash and three octal digits
(`Escaped`). Reading escapes takes each of these forms back, whatever follows it: an octal escape
with fewer digits could be continued by the text behind it, but reading stops at three.
-/

namespace ProtoExtensions

/-! ## Characters in literals -/

/-- Whether a character is a control character of ASCII. -/
def isAsciiControl (c : Char) : Bool :=
  c.toNat < 0x20 || c.toNat == 0x7F

/-- Whether a character stands for itself in literals. -/
def isPlain (c : Char) : Bool :=
  !isAsciiControl c && c != '\\' && c != '"' && c != '?'

theorem ne_of_isPlain {c : Char} (hc : isPlain c = true) : c ≠ '\\' ∧ c ≠ '"' ∧ c ≠ '?' := by
  simp only [isPlain, Bool.and_eq_true, bne_iff_ne, ne_eq] at hc
  exact ⟨hc.1.1.2, hc.1.2, hc.2⟩

theorem isAsciiControl_of_isPlain {c : Char} (hc : isPlain c = true) :
    isAsciiControl c = false := by
  simp only [isPlain, Bool.and_eq_true, Bool.not_eq_true'] at hc
  exact hc.1.1.1

theorem range_octalDigit (n : Nat) :
    0x20 ≤ (Literal.octalDigit n).toNat ∧ (Literal.octalDigit n).toNat ≤ 0x7E := by
  have hall : ∀ k < 8, 0x20 ≤ (Char.ofNat ('0'.toNat + k)).toNat ∧
      (Char.ofNat ('0'.toNat + k)).toNat ≤ 0x7E := by decide
  exact hall (n % 8) (Nat.mod_lt n (by decide))

theorem isPlain_octalDigit (n : Nat) : isPlain (Literal.octalDigit n) = true := by
  have hall : ∀ k < 8, isPlain (Char.ofNat ('0'.toNat + k)) = true := by decide
  exact hall (n % 8) (Nat.mod_lt n (by decide))

/-- The characters of a text that are not part of a two-character escape. A backslash at the end
escapes nothing. -/
def unescapedChars : List Char → List Char
  | [] => []
  | '\\' :: _ :: rest => unescapedChars rest
  | c :: rest => c :: unescapedChars rest

theorem unescapedChars_cons {c : Char} (hc : c ≠ '\\') (rest : List Char) :
    unescapedChars (c :: rest) = c :: unescapedChars rest := by
  rw [unescapedChars]
  intro _ _ hslash
  exact absurd hslash hc

/-- Only the first digit of an octal escape is escaped. -/
theorem unescapedChars_octalEscape (code : Nat) (rest : List Char) :
    unescapedChars (Literal.octalEscape code ++ rest) =
      Literal.octalDigit (code / 8) :: Literal.octalDigit code :: unescapedChars rest := by
  have hplain := fun n => (ne_of_isPlain (isPlain_octalDigit n)).1
  simp only [Literal.octalEscape, List.cons_append, List.nil_append, unescapedChars,
    unescapedChars_cons (hplain _)]

/-- A text in which characters are escaped, and the bytes that it stands for. -/
inductive Escaped : List Char → List UInt8 → Prop
  | nil : Escaped [] []
  | plain {c : Char} {rest : List Char} {bytes : List UInt8} (hc : isPlain c = true)
      (hrest : Escaped rest bytes) :
      Escaped (c :: rest) (String.utf8EncodeChar c ++ bytes)
  | single {c : Char} {byte : UInt8} {rest : List Char} {bytes : List UInt8}
      (hc : 0x20 ≤ c.toNat ∧ c.toNat < 0x7F)
      (hbyte : Escape.single? c.toNat.toUInt8 = some byte) (hrest : Escaped rest bytes) :
      Escaped ('\\' :: c :: rest) (byte :: bytes)
  | octal {code : Nat} {rest : List Char} {bytes : List UInt8} (hcode : code < 256)
      (hrest : Escaped rest bytes) :
      Escaped (Literal.octalEscape code ++ rest) (code.toUInt8 :: bytes)

/-! ## UTF-8 -/

theorem utf8EncodeChar_of_lt {c : Char} (h : c.toNat < 0x80) :
    String.utf8EncodeChar c = [c.toNat.toUInt8] := by
  have hc : c.val.toNat ≤ 0x7F := Nat.le_of_lt_succ h
  simp only [String.utf8EncodeChar, hc, if_true]
  rfl

theorem le_toNat_ofNat {m k : Nat} (hk : 0x80 ≤ k) (hm : m + k < 256) :
    0x80 ≤ (UInt8.ofNat (m + k)).toNat := by
  rw [UInt8.toNat_ofNat_of_lt' hm]
  omega

theorem le_of_mem_utf8EncodeChar {c : Char} (h : 0x80 ≤ c.toNat) {byte : UInt8}
    (hbyte : byte ∈ String.utf8EncodeChar c) : 0x80 ≤ byte.toNat := by
  have hc : ¬c.val.toNat ≤ 0x7F := Nat.not_le.2 h
  simp only [String.utf8EncodeChar, hc, if_false] at hbyte
  split at hbyte
  · simp only [List.mem_cons, List.not_mem_nil, or_false] at hbyte
    rcases hbyte with rfl | rfl
    · exact le_toNat_ofNat (by omega) (by omega)
    · exact le_toNat_ofNat (by omega) (by omega)
  · split at hbyte
    · simp only [List.mem_cons, List.not_mem_nil, or_false] at hbyte
      rcases hbyte with rfl | rfl | rfl
      · exact le_toNat_ofNat (by omega) (by omega)
      · exact le_toNat_ofNat (by omega) (by omega)
      · exact le_toNat_ofNat (by omega) (by omega)
    · simp only [List.mem_cons, List.not_mem_nil, or_false] at hbyte
      rcases hbyte with rfl | rfl | rfl | rfl
      · exact le_toNat_ofNat (by omega) (by omega)
      · exact le_toNat_ofNat (by omega) (by omega)
      · exact le_toNat_ofNat (by omega) (by omega)
      · exact le_toNat_ofNat (by omega) (by omega)

theorem ne_backslash_of_mem_utf8EncodeChar {c : Char} (hc : c ≠ '\\') {byte : UInt8}
    (hbyte : byte ∈ String.utf8EncodeChar c) : byte ≠ Escape.backslash := by
  rintro rfl
  by_cases h : c.toNat < 0x80
  · rw [utf8EncodeChar_of_lt h, List.mem_singleton] at hbyte
    have hcode : c.toNat = '\\'.toNat := by
      have hnat := congrArg UInt8.toNat hbyte
      rw [UInt8.toNat_ofNat_of_lt' (by simp [UInt8.size]; omega)] at hnat
      exact hnat.symm
    exact hc (Char.toNat_inj.1 hcode)
  · have hle := le_of_mem_utf8EncodeChar (Nat.le_of_not_lt h) hbyte
    exact absurd hle (by decide)

/-! ## Reading one form back -/

/-- The byte of an octal digit. -/
def octalByte (n : Nat) : UInt8 :=
  UInt8.ofNat (0x30 + n % 8)

theorem utf8EncodeChar_octalDigit (n : Nat) :
    String.utf8EncodeChar (Literal.octalDigit n) = [octalByte n] := by
  have hall : ∀ k < 8, String.utf8EncodeChar (Char.ofNat ('0'.toNat + k)) =
      [UInt8.ofNat (0x30 + k)] := by decide
  exact hall (n % 8) (Nat.mod_lt n (by decide))

theorem octalDigit?_octalByte (n : Nat) : Escape.octalDigit? (octalByte n) = some (n % 8) := by
  have hall : ∀ k < 8, Escape.octalDigit? (UInt8.ofNat (0x30 + k)) = some k := by decide
  exact hall (n % 8) (Nat.mod_lt n (by decide))

theorem single?_octalByte (n : Nat) : Escape.single? (octalByte n) = none := by
  have hall : ∀ k < 8, Escape.single? (UInt8.ofNat (0x30 + k)) = none := by decide
  exact hall (n % 8) (Nat.mod_lt n (by decide))

theorem unescapeBytes_append {bytes : List UInt8} (h : ∀ byte ∈ bytes, byte ≠ Escape.backslash)
    (rest : List UInt8) :
    unescapeBytes (bytes ++ rest) = (unescapeBytes rest).map (bytes ++ ·) := by
  induction bytes with
  | nil => cases hr : unescapeBytes rest <;> simp [hr, Except.map]
  | cons byte bytes ih =>
    have hbyte : byte ≠ Escape.backslash := h byte (by simp)
    rw [List.cons_append, unescapeBytes, if_neg hbyte, ih fun b hb => h b (by simp [hb])]
    cases unescapeBytes rest <;> simp [Except.map]

theorem read_single {byte value : UInt8} (h : Escape.single? byte = some value)
    (rest : List UInt8) : Escape.read (byte :: rest) = .ok (value, rest) := by
  rw [Escape.read.eq_def]
  simp only [h]

/-- Reading takes three octal digits and no more, whatever follows. -/
theorem read_octal {code : Nat} (hcode : code < 256) (rest : List UInt8) :
    Escape.read (octalByte (code / 64) :: octalByte (code / 8) :: octalByte code :: rest) =
      .ok (code.toUInt8, rest) := by
  have hdigits : Escape.digits 8 Escape.octalDigit? 2 (code / 64 % 8)
      (octalByte (code / 8) :: octalByte code :: rest) = (code, rest) := by
    simp only [Escape.digits, octalDigit?_octalByte, Prod.mk.injEq, and_true]
    omega
  rw [Escape.read.eq_def]
  simp only [single?_octalByte, octalDigit?_octalByte, hdigits, hcode, if_true]

/-! ## Escaped texts -/

namespace Escaped

variable {body : List Char} {bytes : List UInt8}

/-- **Reading takes escaping back.** -/
theorem unescapeBytes_eq (h : Escaped body bytes) : unescapeBytes (utf8Bytes body) = .ok bytes := by
  induction h with
  | nil => rw [utf8Bytes_nil, unescapeBytes]
  | @plain c rest bytes hc hrest ih =>
    obtain ⟨hslash, -⟩ := ne_of_isPlain hc
    rw [show utf8Bytes (c :: rest) = String.utf8EncodeChar c ++ utf8Bytes rest from rfl,
      unescapeBytes_append fun byte hb => ne_backslash_of_mem_utf8EncodeChar hslash hb, ih]
    rfl
  | @single c byte rest bytes hc hbyte hrest ih =>
    have hencoded : utf8Bytes ('\\' :: c :: rest) =
        Escape.backslash :: c.toNat.toUInt8 :: utf8Bytes rest := by
      simp only [utf8Bytes, List.flatMap_cons, utf8EncodeChar_of_lt (show c.toNat < 0x80 by omega)]
      rfl
    rw [hencoded, unescapeBytes_escape (read_single hbyte _), ih]
    rfl
  | @octal code rest bytes hcode hrest ih =>
    have hencoded : utf8Bytes (Literal.octalEscape code ++ rest) = Escape.backslash ::
        octalByte (code / 64) :: octalByte (code / 8) :: octalByte code :: utf8Bytes rest := by
      simp only [utf8Bytes, Literal.octalEscape, List.cons_append, List.nil_append,
        List.flatMap_cons, utf8EncodeChar_octalDigit]
      rfl
    rw [hencoded, unescapeBytes_escape (read_octal hcode _), ih]
    rfl

theorem unescape_eq (h : Escaped body bytes) : unescape (String.ofList body) = .ok bytes := by
  rw [ProtoExtensions.unescape_eq, String.toList_ofList]
  exact h.unescapeBytes_eq

/-- No escape is open at the end of the text, so what follows is not escaped. -/
theorem unescapedChars_append (h : Escaped body bytes) (after : List Char) :
    unescapedChars (body ++ after) = unescapedChars body ++ unescapedChars after := by
  induction h with
  | nil => rfl
  | @plain c rest bytes hc hrest ih =>
    obtain ⟨hslash, -⟩ := ne_of_isPlain hc
    rw [List.cons_append, unescapedChars_cons hslash, unescapedChars_cons hslash, ih]
    rfl
  | single hc hbyte hrest ih =>
    simp only [List.cons_append, unescapedChars, ih]
  | @octal code rest bytes hcode hrest ih =>
    rw [List.append_assoc, unescapedChars_octalEscape, unescapedChars_octalEscape, ih]
    rfl

/-- Neither quotes nor question marks are left without a backslash. -/
theorem of_mem_unescapedChars (h : Escaped body bytes) {c : Char} (hc : c ∈ unescapedChars body) :
    c ≠ '"' ∧ c ≠ '?' := by
  induction h with
  | nil => cases hc
  | @plain plain rest bytes hplain hrest ih =>
    rw [unescapedChars_cons (ne_of_isPlain hplain).1, List.mem_cons] at hc
    rcases hc with rfl | hc
    · exact (ne_of_isPlain hplain).2
    · exact ih hc
  | single _ _ _ ih =>
    rw [unescapedChars] at hc
    exact ih hc
  | @octal code rest bytes hcode hrest ih =>
    rw [unescapedChars_octalEscape, List.mem_cons, List.mem_cons] at hc
    rcases hc with rfl | rfl | hc
    · exact (ne_of_isPlain (isPlain_octalDigit _)).2
    · exact (ne_of_isPlain (isPlain_octalDigit _)).2
    · exact ih hc

theorem isAsciiControl_eq_false_of_mem (h : Escaped body bytes) {c : Char} (hc : c ∈ body) :
    isAsciiControl c = false := by
  induction h with
  | nil => cases hc
  | plain hc' _ ih =>
    rcases List.mem_cons.1 hc with rfl | hc
    · exact isAsciiControl_of_isPlain hc'
    · exact ih hc
  | single hc' _ _ ih =>
    simp only [List.mem_cons] at hc
    rcases hc with rfl | rfl | hc
    · decide
    · simp only [isAsciiControl, Bool.or_eq_false_iff, decide_eq_false_iff_not, beq_eq_false_iff_ne]
      omega
    · exact ih hc
  | octal _ _ ih =>
    simp only [Literal.octalEscape, List.cons_append, List.nil_append, List.mem_cons] at hc
    rcases hc with rfl | rfl | rfl | rfl | hc
    · decide
    · exact isAsciiControl_of_isPlain (isPlain_octalDigit _)
    · exact isAsciiControl_of_isPlain (isPlain_octalDigit _)
    · exact isAsciiControl_of_isPlain (isPlain_octalDigit _)
    · exact ih hc

end Escaped

/-! ## Literals are escaped texts -/

theorem toNat_ofNat_of_lt {n : Nat} (h : n < 0x80) : (Char.ofNat n).toNat = n := by
  have hvalid : n.isValidChar := .inl (by omega)
  rw [Char.ofNat, dif_pos hvalid]
  rfl

theorem isPlain_of_ne {c : Char} (hcontrol : isAsciiControl c = false) (hslash : c ≠ '\\')
    (hquote : c ≠ '"') (hmark : c ≠ '?') : isPlain c = true := by
  simp [isPlain, hcontrol, hslash, hquote, hmark]

/-- The three forms in which a byte is written. -/
theorem byteChars_forms (byte : UInt8) :
    (∃ c, Literal.byteChars byte = ['\\', c] ∧ (c = '"' ∨ c = '\\' ∨ c = '?') ∧
      c.toNat.toUInt8 = byte) ∨
    (∃ c, Literal.byteChars byte = [c] ∧ isPlain c = true ∧ c.toNat < 0x7F ∧
      c.toNat.toUInt8 = byte) ∨
    Literal.byteChars byte = Literal.octalEscape byte.toNat := by
  unfold Literal.byteChars
  by_cases hquote : byte = 0x22
  · subst hquote
    exact .inl ⟨'"', rfl, .inl rfl, rfl⟩
  by_cases hslash : byte = 0x5C
  · subst hslash
    exact .inl ⟨'\\', rfl, .inr (.inl rfl), rfl⟩
  by_cases hmark : byte = 0x3F
  · subst hmark
    exact .inl ⟨'?', rfl, .inr (.inr rfl), rfl⟩
  rw [if_neg hquote, if_neg hslash, if_neg hmark]
  by_cases hrange : 0x20 ≤ byte ∧ byte ≤ 0x7E
  · have hle : 0x20 ≤ byte.toNat ∧ byte.toNat ≤ 0x7E := hrange
    have hcode : (Char.ofNat byte.toNat).toNat = byte.toNat := toNat_ofNat_of_lt (by omega)
    have hbyte : (Char.ofNat byte.toNat).toNat.toUInt8 = byte := by
      rw [hcode]
      exact UInt8.ofNat_toNat
    have hne : ∀ c : Char, byte ≠ c.toNat.toUInt8 → Char.ofNat byte.toNat ≠ c := by
      rintro c hc rfl
      exact hc hbyte.symm
    refine .inr (.inl ⟨_, if_pos hrange, ?_, by omega, hbyte⟩)
    refine isPlain_of_ne ?_ (hne _ hslash) (hne _ hquote) (hne _ hmark)
    simp only [isAsciiControl, hcode, Bool.or_eq_false_iff, decide_eq_false_iff_not,
      beq_eq_false_iff_ne]
    omega
  · exact .inr (.inr (if_neg hrange))

theorem escaped_byteChars (byte : UInt8) {rest : List Char} {bytes : List UInt8}
    (hrest : Escaped rest bytes) : Escaped (Literal.byteChars byte ++ rest) (byte :: bytes) := by
  rcases byteChars_forms byte with ⟨c, hform, hc, rfl⟩ | ⟨c, hform, hplain, hlt, rfl⟩ | hform
  · rw [hform]
    rcases hc with rfl | rfl | rfl
    · exact .single (by decide) (by decide) hrest
    · exact .single (by decide) (by decide) hrest
    · exact .single (by decide) (by decide) hrest
  · have hescaped := Escaped.plain hplain hrest
    rw [utf8EncodeChar_of_lt (by omega)] at hescaped
    rw [hform]
    exact hescaped
  · have hescaped := Escaped.octal byte.toNat_lt hrest
    rw [show byte.toNat.toUInt8 = byte from UInt8.ofNat_toNat] at hescaped
    rw [hform]
    exact hescaped

theorem escaped_bytesBody (value : List UInt8) : Escaped (Literal.bytesBody value) value := by
  induction value with
  | nil => exact .nil
  | cons byte value ih => exact escaped_byteChars byte ih

theorem escaped_stringChar (c : Char) {rest : List Char} {bytes : List UInt8}
    (hrest : Escaped rest bytes) :
    Escaped (Literal.stringChar c ++ rest) (String.utf8EncodeChar c ++ bytes) := by
  unfold Literal.stringChar
  split
  · exact .single (by decide) (by decide) hrest
  · exact .single (by decide) (by decide) hrest
  · exact .single (by decide) (by decide) hrest
  · exact .single (by decide) (by decide) hrest
  · exact .single (by decide) (by decide) hrest
  · exact .single (by decide) (by decide) hrest
  · next _ hquote hslash _ _ _ hmark =>
    by_cases hcontrol : c.toNat < 0x20 ∨ c.toNat = 0x7F
    · rw [if_pos hcontrol, utf8EncodeChar_of_lt (by omega)]
      exact .octal (by omega) hrest
    · rw [if_neg hcontrol]
      exact .plain (isPlain_of_ne (by simpa [isAsciiControl] using hcontrol) hslash hquote hmark)
        hrest

theorem escaped_stringBody (text : String) :
    Escaped (Literal.stringBody text) (utf8Bytes text.toList) := by
  unfold Literal.stringBody
  induction text.toList with
  | nil => exact .nil
  | cons c chars ih => exact escaped_stringChar c ih

theorem printable_of_mem_bytesBody {value : List UInt8} {c : Char}
    (hc : c ∈ Literal.bytesBody value) : 0x20 ≤ c.toNat ∧ c.toNat ≤ 0x7E := by
  obtain ⟨byte, -, hbyte⟩ := List.mem_flatMap.1 hc
  rcases byteChars_forms byte with ⟨d, hform, hd, -⟩ | ⟨d, hform, hplain, hlt, -⟩ | hform
  · rw [hform, List.mem_cons, List.mem_singleton] at hbyte
    rcases hbyte with rfl | rfl
    · decide
    · rcases hd with rfl | rfl | rfl <;> decide
  · rw [hform, List.mem_singleton] at hbyte
    subst hbyte
    have hcontrol := isAsciiControl_of_isPlain hplain
    simp only [isAsciiControl, Bool.or_eq_false_iff, decide_eq_false_iff_not] at hcontrol
    omega
  · rw [hform] at hbyte
    simp only [Literal.octalEscape, List.mem_cons, List.not_mem_nil, or_false] at hbyte
    rcases hbyte with rfl | rfl | rfl | rfl
    · decide
    · exact range_octalDigit _
    · exact range_octalDigit _
    · exact range_octalDigit _

end ProtoExtensions
