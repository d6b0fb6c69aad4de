import Mathlib.Data.Int.ModEq
import ProtoExtensions.Literal
import ProtoExtensions.Proofs.Numerals

/-!
The integer literals of generated records, as C reads them. `CInteger.read?` takes a literal apart
into a cast, a sign, decimal or hexadecimal digits, and a suffix; `CInteger.value` is the number
that these stand for. All four writers of `Literal` give literals that stand for their number
modulo the width of the type, and that C reads without a constant too large for the type: a literal
that is not cast is decimal, and already its digits without the sign fit (`IsIntegerLiteral`).
-/

namespace ProtoExtensions

/-- The integer types of the runtime's records. -/
inductive IntegerType where
  | jint
  | jlong
  deriving DecidableEq, Repr

namespace IntegerType

/-- The number of bits of a type. -/
def width : IntegerType → Nat
  | jint => 32
  | jlong => 64

/-- The member of the default value union that has a type. -/
def member : IntegerType → String
  | jint => "valueInt"
  | jlong => "valueLong"

/-- A cast to a type, with the blank behind it. -/
def castText : IntegerType → String
  | jint => "(jint) "
  | jlong => "(jlong) "

end IntegerType

/-- How the type of an integer constant may be marked at its end. -/
inductive IntegerSuffix where
  | plain
  | longLong
  | unsignedLongLong
  deriving DecidableEq, Repr

namespace IntegerSuffix

/-- The text of a suffix. -/
def text : IntegerSuffix → String
  | plain => ""
  | longLong => "LL"
  | unsignedLongLong => "ULL"

/-- The suffix that a text is. -/
def ofChars? : List Char → Option IntegerSuffix
  | [] => some .plain
  | ['L', 'L'] => some .longLong
  | ['U', 'L', 'L'] => some .unsignedLongLong
  | _ => none

/-- Whether a suffix marks constants of a type. -/
def Marks (suffix : IntegerSuffix) (type : IntegerType) : Prop :=
  suffix = .plain ↔ type = .jint

end IntegerSuffix

/-! ## Reading as C does -/

/-- An integer literal in its parts. -/
structure CInteger where
  cast : Option IntegerType
  negative : Bool
  base : Nat
  magnitude : Nat
  suffix : IntegerSuffix
  deriving DecidableEq, Repr

namespace CInteger

/-- The cast that a text starts with, and what follows it. -/
def readCast : List Char → Option IntegerType × List Char
  | '(' :: 'j' :: 'i' :: 'n' :: 't' :: ')' :: ' ' :: rest => (some .jint, rest)
  | '(' :: 'j' :: 'l' :: 'o' :: 'n' :: 'g' :: ')' :: ' ' :: rest => (some .jlong, rest)
  | rest => (none, rest)

/-- Whether a text starts with a minus sign, and what follows it. -/
def readSign : List Char → Bool × List Char
  | '-' :: rest => (true, rest)
  | rest => (false, rest)

/-- The base of the digits that a text announces, and what follows. -/
def readBase : List Char → Nat × List Char
  | '0' :: 'x' :: rest => (16, rest)
  | '0' :: 'X' :: rest => (16, rest)
  | rest => (10, rest)

/-- The value of the digits that a text starts with, and what follows them. There must be digits,
and decimal digits have no zero in front, as C reads octal digits behind one. -/
def readDigits? (base : Nat) (text : List Char) : Option (Nat × List Char) :=
  let digits := text.takeWhile (isDigitOf base)
  if digits = [] ∨ (base = 10 ∧ digits.head? = some '0' ∧ digits ≠ ['0']) then none
  else (digitsFrom? base 0 digits).map fun n => (n, text.dropWhile (isDigitOf base))

/-- The parts of an integer literal. -/
def read? (text : List Char) : Option CInteger := do
  let (cast, text) := readCast text
  let (negative, text) := readSign text
  let (base, text) := readBase text
  let (magnitude, text) ← readDigits? base text
  let suffix ← IntegerSuffix.ofChars? text
  some ⟨cast, negative, base, magnitude, suffix⟩

/-- The number that a literal stands for. A cast takes it to the number of its type that has the
same bits. -/
def value (c : CInteger) : Int :=
  let number : Int := if c.negative then -c.magnitude else c.magnitude
  match c.cast with
  | none => number
  | some type => number.bmod (2 ^ type.width)

example : (read? "-017".toList) = none := by decide
example : (read? "(jint) 0xffffffff".toList).map value = some (-1) := by decide

/-- A literal gives a number to a member of some type: the number modulo the width of the type, in
the signed range. Where nothing is cast the digits are decimal, and their value fits the signed type
by itself, since the sign in front of them is an operator. -/
structure Gives (c : CInteger) (type : IntegerType) (n : Int) : Prop where
  congruent : c.value ≡ n [ZMOD 2 ^ type.width]
  inRange : -2 ^ (type.width - 1) ≤ c.value ∧ c.value < 2 ^ (type.width - 1)
  castTo : ∀ other, c.cast = some other → other = type
  uncast : c.cast = none → c.base = 10 ∧ c.magnitude < 2 ^ (type.width - 1)
  suffix : c.suffix.Marks type

end CInteger

/-- A text is a literal that C reads as a number, for a member of some type. -/
def IsIntegerLiteral (type : IntegerType) (literal : String) (n : Int) : Prop :=
  ∃ c, CInteger.read? literal.toList = some c ∧ c.Gives type n

namespace IsIntegerLiteral

variable {type : IntegerType} {literal : String} {n : Int}

theorem congr (h : IsIntegerLiteral type literal n) {m : Int} (hm : n ≡ m [ZMOD 2 ^ type.width]) :
    IsIntegerLiteral type literal m := by
  obtain ⟨c, hread, hgives⟩ := h
  exact ⟨c, hread, { hgives with congruent := hgives.congruent.trans hm }⟩

/-- The least number of a type is not written as a minus sign and digits: the digits do not fit. -/
theorem ne_negated_min (h : IsIntegerLiteral type literal n) :
    literal ≠ "-2147483648" ∧ literal ≠ "-9223372036854775808LL" := by
  obtain ⟨c, hread, hgives⟩ := h
  constructor
  · rintro rfl
    have hc : c = ⟨none, true, 10, 2147483648, .plain⟩ := by
      rw [show CInteger.read? "-2147483648".toList =
        some ⟨none, true, 10, 2147483648, .plain⟩ by decide] at hread
      exact (Option.some.inj hread).symm
    have htype := hgives.suffix.1 (by rw [hc])
    have hfits := (hgives.uncast (by rw [hc])).2
    rw [hc, htype] at hfits
    exact absurd hfits (by decide)
  · rintro rfl
    have hc : c = ⟨none, true, 10, 9223372036854775808, .longLong⟩ := by
      rw [show CInteger.read? "-9223372036854775808LL".toList =
        some ⟨none, true, 10, 9223372036854775808, .longLong⟩ by decide] at hread
      exact (Option.some.inj hread).symm
    have hfits := (hgives.uncast (by rw [hc])).2
    rw [hc] at hfits
    cases type <;> exact absurd hfits (by decide)

end IsIntegerLiteral

/-! ## Reading what has been written -/

namespace CInteger

theorem readCast_of_not_mem {text : List Char} (h : '(' ∉ text) : readCast text = (none, text) := by
  unfold readCast
  split
  · simp at h
  · simp at h
  · rfl

theorem readSign_of_not_mem {text : List Char} (h : '-' ∉ text) :
    readSign text = (false, text) := by
  unfold readSign
  split
  · simp at h
  · rfl

theorem readBase_of_not_mem {text : List Char} (hx : 'x' ∉ text) (hX : 'X' ∉ text) :
    readBase text = (10, text) := by
  unfold readBase
  split
  · simp at hx
  · simp at hX
  · rfl

/-- Digits and a suffix are read apart: no suffix starts with a digit. -/
theorem readDigits?_append {base n : Nat} (hbase : base = 10 ∨ base = 16) {digits : List Char}
    (hdigits : ∀ c ∈ digits, isDigitOf base c = true) (hne : digits ≠ [])
    (hleading : base = 10 → digits.head? = some '0' → digits = ['0'])
    (hn : digitsFrom? base 0 digits = some n) (suffix : IntegerSuffix) :
    readDigits? base (digits ++ suffix.text.toList) = some (n, suffix.text.toList) := by
  have hstop : suffix.text.toList.takeWhile (isDigitOf base) = [] ∧
      suffix.text.toList.dropWhile (isDigitOf base) = suffix.text.toList := by
    rcases hbase with rfl | rfl <;> cases suffix <;> decide
  have htake : (digits ++ suffix.text.toList).takeWhile (isDigitOf base) = digits := by
    rw [List.takeWhile_append_of_pos hdigits, hstop.1, List.append_nil]
  have hdrop : (digits ++ suffix.text.toList).dropWhile (isDigitOf base) =
      suffix.text.toList := by
    rw [List.dropWhile_append_of_pos hdigits, hstop.2]
  have hallowed : ¬(digits = [] ∨
      (base = 10 ∧ digits.head? = some '0' ∧ digits ≠ ['0'])) := by
    rintro (h | ⟨hdecimal, hhead, h⟩)
    · exact hne h
    · exact h (hleading hdecimal hhead)
  simp only [readDigits?, htake, hdrop]
  rw [if_neg hallowed, hn]
  rfl

@[simp] theorem ofChars?_text (suffix : IntegerSuffix) :
    IntegerSuffix.ofChars? suffix.text.toList = some suffix := by
  cases suffix <;> decide

/-- What is neither a decimal digit nor in a suffix is not in a decimal literal. -/
theorem not_mem_decimal {c : Char} (hc : isDigitOf 10 c = false) (hU : c ≠ 'U') (hL : c ≠ 'L')
    (n : Nat) (suffix : IntegerSuffix) : c ∉ Nat.toDigits 10 n ++ suffix.text.toList := by
  intro hmem
  rcases List.mem_append.1 hmem with hmem | hmem
  · rw [isDigitOf_of_mem_toDigits (by decide) (by decide) n c hmem] at hc
    cases hc
  · cases suffix <;> simp_all [IntegerSuffix.text]

theorem read?_decimal (negative : Bool) (n : Nat) (suffix : IntegerSuffix) :
    read? ((if negative then ['-'] else []) ++ (Nat.toDigits 10 n ++ suffix.text.toList)) =
      some ⟨none, negative, 10, n, suffix⟩ := by
  have hcast : '(' ∉ Nat.toDigits 10 n ++ suffix.text.toList :=
    not_mem_decimal (by decide) (by decide) (by decide) n suffix
  have hsign : '-' ∉ Nat.toDigits 10 n ++ suffix.text.toList :=
    not_mem_decimal (by decide) (by decide) (by decide) n suffix
  have hbase : readBase (Nat.toDigits 10 n ++ suffix.text.toList) =
      (10, Nat.toDigits 10 n ++ suffix.text.toList) :=
    readBase_of_not_mem (not_mem_decimal (by decide) (by decide) (by decide) n suffix)
      (not_mem_decimal (by decide) (by decide) (by decide) n suffix)
  have hdigits : readDigits? 10 (Nat.toDigits 10 n ++ suffix.text.toList) =
      some (n, suffix.text.toList) :=
    readDigits?_append (.inl rfl) (isDigitOf_of_mem_toDigits (by decide) (by decide) n)
      Nat.toDigits_ne_nil (fun _ => toDigits_leading (by decide) (by decide) n)
      (digitsFrom?_toDigits (by decide) (by decide) n) suffix
  cases negative with
  | false =>
    simp [read?, readCast_of_not_mem hcast, readSign_of_not_mem hsign, hbase, hdigits]
  | true =>
    have hcast' : '(' ∉ '-' :: (Nat.toDigits 10 n ++ suffix.text.toList) := by
      simpa using hcast
    simp [read?, readCast_of_not_mem hcast', readSign, hbase, hdigits]

theorem read?_hexadecimal (type : IntegerType) (width n : Nat) (suffix : IntegerSuffix) :
    read? (type.castText ++ "0x" ++ Literal.hexPadded width n ++ suffix.text).toList =
      some ⟨some type, false, 16, n, suffix⟩ := by
  have hmem : ∀ c ∈ (Literal.hexPadded width n).toList, isDigitOf 16 c = true := by
    intro c hc
    simp only [Literal.hexPadded, String.toList_ofList, List.mem_append] at hc
    rcases hc with hc | hc
    · rw [(List.mem_replicate.1 hc).2]
      decide
    · exact isDigitOf_of_mem_toDigits (by decide) (by decide) n c hc
  have hne : (Literal.hexPadded width n).toList ≠ [] := by
    simp [Literal.hexPadded]
  have hvalue : digitsFrom? 16 0 (Literal.hexPadded width n).toList = some n := by
    rw [Literal.hexPadded, String.toList_ofList, digitsFrom?_replicate_append (by decide)]
    exact digitsFrom?_toDigits (by decide) (by decide) n
  have hdigits : readDigits? 16 ((Literal.hexPadded width n).toList ++ suffix.text.toList) =
      some (n, suffix.text.toList) :=
    readDigits?_append (.inr rfl) hmem hne (fun h => absurd h (by decide)) hvalue suffix
  cases type <;>
    simp [read?, IntegerType.castText, readCast, readSign, readBase, hdigits]

end CInteger

namespace IsIntegerLiteral

theorem of_decimal {type : IntegerType} {suffix : IntegerSuffix} (hsuffix : suffix.Marks type)
    {n : Int} (hn : n.natAbs < 2 ^ (type.width - 1)) :
    IsIntegerLiteral type (toString n ++ suffix.text) n := by
  have htext : (toString n ++ suffix.text).toList =
      (if decide (n < 0) then ['-'] else []) ++
        (Nat.toDigits 10 n.natAbs ++ suffix.text.toList) := by
    rw [String.toList_append, toList_toString_int]
    simp
  have hvalue : CInteger.value ⟨none, decide (n < 0), 10, n.natAbs, suffix⟩ = n := by
    simp only [CInteger.value, decide_eq_true_eq]
    split <;> omega
  have hrange : -2 ^ (type.width - 1) ≤ n ∧ n < 2 ^ (type.width - 1) := by
    cases type <;> simp only [IntegerType.width] at hn ⊢ <;> omega
  refine ⟨⟨none, decide (n < 0), 10, n.natAbs, suffix⟩, ?_, ?_⟩
  · rw [htext]
    exact CInteger.read?_decimal _ _ _
  · exact ⟨by rw [hvalue], by rwa [hvalue], nofun, fun _ => ⟨rfl, hn⟩, hsuffix⟩

theorem of_decimal_nat {type : IntegerType} {suffix : IntegerSuffix} (hsuffix : suffix.Marks type)
    {n : Nat} (hn : n < 2 ^ (type.width - 1)) :
    IsIntegerLiteral type (toString n ++ suffix.text) n := by
  have htext : toString (n : Int) = toString n := rfl
  exact htext ▸ of_decimal hsuffix (n := n) hn

/-- Every number is a cast hexadecimal literal, modulo the width of the type. -/
theorem of_hexadecimal {type : IntegerType} {suffix : IntegerSuffix} (hsuffix : suffix.Marks type)
    (width n : Nat) :
    IsIntegerLiteral type (type.castText ++ "0x" ++ Literal.hexPadded width n ++ suffix.text)
      n := by
  have hvalue : CInteger.value ⟨some type, false, 16, n, suffix⟩ =
      (n : Int).bmod (2 ^ type.width) := rfl
  refine ⟨_, CInteger.read?_hexadecimal type width n suffix, ?_, ?_, ?_, nofun, hsuffix⟩
  · rw [hvalue, Int.ModEq]
    exact_mod_cast Int.bmod_emod
  · rw [hvalue]
    have hpositive : 0 < 2 ^ type.width := Nat.two_pow_pos type.width
    have hlow : -(((2 ^ type.width : Nat) : Int) / 2) ≤ (n : Int).bmod (2 ^ type.width) :=
      Int.le_bmod hpositive
    have hhigh : (n : Int).bmod (2 ^ type.width) < (((2 ^ type.width : Nat) : Int) + 1) / 2 :=
      Int.bmod_lt hpositive
    cases type <;> simp only [IntegerType.width] at hlow hhigh ⊢ <;> omega
  · rintro other h
    exact (Option.some.inj h).symm

end IsIntegerLiteral

/-! ## The four writers -/

theorem isIntegerLiteral_int32 (value : Int32) :
    IsIntegerLiteral .jint (Literal.int32 value) value.toInt := by
  have hsuffix : IntegerSuffix.plain.Marks .jint := by simp [IntegerSuffix.Marks]
  unfold Literal.int32
  split
  · next hmin =>
    have hpattern := IsIntegerLiteral.of_hexadecimal hsuffix 8 0x80000000
    rw [hmin]
    exact hpattern.congr (by decide)
  · next hmin =>
    have hlow := value.le_toInt
    have hhigh := value.toInt_lt
    have hfits : value.toInt.natAbs < 2 ^ (IntegerType.jint.width - 1) := by
      simp only [IntegerType.width]
      omega
    simpa [IntegerSuffix.text] using IsIntegerLiteral.of_decimal hsuffix hfits

theorem isIntegerLiteral_uint32 (value : UInt32) :
    IsIntegerLiteral .jint (Literal.uint32 value) value.toNat := by
  have hsuffix : IntegerSuffix.plain.Marks .jint := by simp [IntegerSuffix.Marks]
  unfold Literal.uint32
  split
  · have hpattern := IsIntegerLiteral.of_hexadecimal hsuffix 8 value.toNat
    simpa [IntegerSuffix.text, IntegerType.castText] using hpattern
  · next hsmall =>
    have hfits : value.toNat < 2 ^ (IntegerType.jint.width - 1) := by
      simp only [IntegerType.width]
      omega
    simpa [IntegerSuffix.text] using IsIntegerLiteral.of_decimal_nat hsuffix hfits

theorem isIntegerLiteral_int64 (value : Int64) :
    IsIntegerLiteral .jlong (Literal.int64 value) value.toInt := by
  have hsuffix : IntegerSuffix.longLong.Marks .jlong := by simp [IntegerSuffix.Marks]
  unfold Literal.int64
  split
  · next hmin =>
    have hpattern := IsIntegerLiteral.of_hexadecimal hsuffix 16 0x8000000000000000
    rw [hmin]
    exact hpattern.congr (by decide)
  · next hmin =>
    have hlow := value.le_toInt
    have hhigh := value.toInt_lt
    have hfits : value.toInt.natAbs < 2 ^ (IntegerType.jlong.width - 1) := by
      simp only [IntegerType.width]
      omega
    exact IsIntegerLiteral.of_decimal hsuffix hfits

theorem isIntegerLiteral_uint64 (value : UInt64) :
    IsIntegerLiteral .jlong (Literal.uint64 value) value.toNat := by
  unfold Literal.uint64
  split
  · have hsuffix : IntegerSuffix.unsignedLongLong.Marks .jlong := by simp [IntegerSuffix.Marks]
    have hpattern := IsIntegerLiteral.of_hexadecimal hsuffix 16 value.toNat
    simpa [IntegerSuffix.text, IntegerType.castText, String.append_assoc] using hpattern
  · next hsmall =>
    have hsuffix : IntegerSuffix.longLong.Marks .jlong := by simp [IntegerSuffix.Marks]
    have hfits : value.toNat < 2 ^ (IntegerType.jlong.width - 1) := by
      simp only [IntegerType.width]
      omega
    exact IsIntegerLiteral.of_decimal_nat hsuffix hfits

end ProtoExtensions
