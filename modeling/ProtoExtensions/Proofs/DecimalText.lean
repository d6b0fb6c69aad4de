import ProtoExtensions.Float.Notation
import ProtoExtensions.Float.Reading
import ProtoExtensions.Proofs.IntegerGrammar

/-!
The text of decimals. A floating-point constant has digits around a point and an exponent, and may
lack one of these parts, but not both the point and the exponent (`FloatingConstant.IsFormed`).
Reading takes such a text apart as it is meant (`Numeral.read?_chars`). In both notations a decimal
is written as such a constant, whose digits and power of ten are those of the decimal, perhaps with
zeros behind the digits (`Decimal.exists_constant_write`).
-/

namespace ProtoExtensions

/-- A floating-point constant in its parts: the digits in front of the point, those behind it, if
there is a point, and the exponent, if there is one. -/
structure FloatingConstant where
  whole : List Char
  fraction : Option (List Char)
  exponent : Option (Sign × List Char)
  deriving DecidableEq, Repr

namespace FloatingConstant

/-- The characters from the point on, up to the exponent. -/
def fractionChars (c : FloatingConstant) : List Char :=
  match c.fraction with
  | none => []
  | some digits => '.' :: digits

/-- The characters of the exponent. -/
def exponentChars (c : FloatingConstant) : List Char :=
  match c.exponent with
  | none => []
  | some (sign, digits) => 'e' :: (sign.chars ++ digits)

/-- The characters of a constant. -/
def chars (c : FloatingConstant) : List Char :=
  c.whole ++ (c.fractionChars ++ c.exponentChars)

/-- The number that the exponent stands for. -/
def exponentValue (c : FloatingConstant) : Int :=
  match c.exponent with
  | none => 0
  | some (sign, digits) => sign.apply (digitsValue digits)

/-- The numeral that a constant is read as. -/
def numeral (c : FloatingConstant) : Numeral :=
  ⟨c.whole, c.fraction.getD [], c.exponentValue⟩

/-- Whether a constant follows the grammar of C: there are digits on some side of the point, there
is a point or an exponent, and the exponent has digits. -/
structure IsFormed (c : FloatingConstant) : Prop where
  whole : ∀ x ∈ c.whole, x.isDigit = true
  fraction : ∀ x ∈ c.fraction.getD [], x.isDigit = true
  exponent : ∀ sign digits, c.exponent = some (sign, digits) →
    digits ≠ [] ∧ ∀ x ∈ digits, x.isDigit = true
  ne_nil : c.whole ≠ [] ∨ c.fraction.getD [] ≠ []
  marked : c.fraction ≠ none ∨ c.exponent ≠ none

variable {c : FloatingConstant}

theorem IsFormed.point_or_exponent (h : c.IsFormed) : '.' ∈ c.chars ∨ 'e' ∈ c.chars := by
  rcases h.marked with hmarked | hmarked
  · obtain ⟨digits, hdigits⟩ := Option.ne_none_iff_exists'.1 hmarked
    simp [chars, fractionChars, hdigits]
  · obtain ⟨⟨sign, digits⟩, hdigits⟩ := Option.ne_none_iff_exists'.1 hmarked
    simp [chars, exponentChars, hdigits]

theorem IsFormed.mem_chars (h : c.IsFormed) {x : Char} (hx : x ∈ c.chars) :
    x.isDigit = true ∨ x ∈ ['.', 'e', '+', '-'] := by
  simp only [chars, List.mem_append] at hx
  rcases hx with hx | hx | hx
  · exact .inl (h.whole x hx)
  · cases hfraction : c.fraction with
    | none => simp [fractionChars, hfraction] at hx
    | some digits =>
      simp only [fractionChars, hfraction, List.mem_cons] at hx
      rcases hx with rfl | hx
      · exact .inr (by simp)
      · exact .inl (h.fraction x (by simpa [hfraction] using hx))
  · cases hexponent : c.exponent with
    | none => simp [exponentChars, hexponent] at hx
    | some exponent =>
      obtain ⟨sign, digits⟩ := exponent
      simp only [exponentChars, hexponent, List.mem_cons, List.mem_append] at hx
      rcases hx with rfl | hx | hx
      · exact .inr (by simp)
      · cases sign <;> simp [Sign.chars] at hx <;> simp [hx]
      · exact .inl ((h.exponent sign digits hexponent).2 x hx)

end FloatingConstant

/-! ## Reading a constant -/

namespace Numeral

theorem takeWhile_digits_append {digits rest : List Char}
    (hdigits : ∀ x ∈ digits, x.isDigit = true) (hrest : ∀ x ∈ rest.head?, x.isDigit = false) :
    (digits ++ rest).takeWhile Char.isDigit = digits ∧
      (digits ++ rest).dropWhile Char.isDigit = rest := by
  rw [List.takeWhile_append_of_pos hdigits, List.dropWhile_append_of_pos hdigits]
  cases rest with
  | nil => simp
  | cons x rest => simp [hrest x rfl]

theorem readExponent?_chars {sign : Sign} {digits : List Char} (hne : digits ≠ [])
    (hdigits : ∀ x ∈ digits, x.isDigit = true) :
    readExponent? (sign.chars ++ digits) = some (sign.apply (digitsValue digits)) := by
  have hall : (digits.isEmpty || !digits.all Char.isDigit) = false := by
    simpa [hne] using hdigits
  cases sign with
  | plus | minus => simp [readExponent?, Sign.chars, Sign.apply, hall]
  | none =>
    obtain ⟨first, rest, rfl⟩ := List.exists_cons_of_ne_nil hne
    have hfirst := hdigits first (by simp)
    have hminus : first ≠ '-' := by
      rintro rfl
      cases hfirst
    have hplus : first ≠ '+' := by
      rintro rfl
      cases hfirst
    simpa [readExponent?, Sign.chars, Sign.apply, hminus, hplus] using hdigits

theorem read?_chars {c : FloatingConstant} (h : c.IsFormed) : read? c.chars = some c.numeral := by
  have hexponent : ∀ x ∈ c.exponentChars.head?, x.isDigit = false := by
    cases hexponent : c.exponent <;> simp [FloatingConstant.exponentChars, hexponent]
  have hfraction : ∀ x ∈ (c.fractionChars ++ c.exponentChars).head?, x.isDigit = false := by
    cases hfraction : c.fraction with
    | none => simpa [FloatingConstant.fractionChars, hfraction] using hexponent
    | some digits => simp [FloatingConstant.fractionChars, hfraction]
  obtain ⟨htake, hdrop⟩ := takeWhile_digits_append h.whole hfraction
  obtain ⟨htakeMore, hdropMore⟩ := takeWhile_digits_append h.fraction hexponent
  have hread : ∀ sign digits, c.exponent = some (sign, digits) →
      readExponent? (sign.chars ++ digits) = some (sign.apply (digitsValue digits)) :=
    fun sign digits heq => readExponent?_chars (h.exponent sign digits heq).1
      (h.exponent sign digits heq).2
  have hsome : (c.whole.isEmpty && (c.fraction.getD []).isEmpty) = false := by
    rw [Bool.and_eq_false_iff]
    exact h.ne_nil.imp List.isEmpty_eq_false_iff.2 List.isEmpty_eq_false_iff.2
  obtain ⟨whole, fraction, exponent⟩ := c
  unfold read? FloatingConstant.chars
  simp only [htake, hdrop]
  simp only [FloatingConstant.fractionChars, FloatingConstant.exponentChars,
    FloatingConstant.numeral, FloatingConstant.exponentValue] at htakeMore hdropMore hread hsome ⊢
  -- What follows the digits in front depends on which of the other parts are there.
  rcases fraction with _ | digits <;> rcases exponent with _ | ⟨sign, exponentDigits⟩
  · simp at hsome
    simp [hsome]
  · simp at hsome
    simp [hsome, hread sign exponentDigits rfl]
  · simp only [Option.getD_some, List.append_nil] at htakeMore hdropMore hsome
    simp only [List.append_nil, htakeMore, hdropMore, hsome]
    rfl
  · simp only [Option.getD_some] at htakeMore hdropMore hsome
    simp [htakeMore, hdropMore, hsome, hread sign exponentDigits rfl]

end Numeral

/-! ## Digits -/

theorem digitsValue_eq (digits : List Char) : digitsValue digits = Nat.ofDigitChars 10 digits 0 :=
  rfl

theorem digitsValue_toDigits (n : Nat) : digitsValue (Nat.toDigits 10 n) = n :=
  Nat.ofDigitChars_toDigits (by decide) (by decide)

theorem digitsValue_append_zeros (digits : List Char) (zeros : Nat) :
    digitsValue (digits ++ List.replicate zeros '0') = digitsValue digits * 10 ^ zeros := by
  rw [digitsValue_eq, Nat.ofDigitChars_append, Nat.ofDigitChars_replicate_zero, Nat.mul_comm]
  rfl

theorem digitsValue_zeros_append (zeros : Nat) (digits : List Char) :
    digitsValue (List.replicate zeros '0' ++ digits) = digitsValue digits := by
  rw [digitsValue_eq, Nat.ofDigitChars_append, Nat.ofDigitChars_replicate_zero, Nat.mul_zero]
  rfl

/-! ## Writing a decimal -/

namespace FloatingConstant

/-- Whether a constant is a decimal: its digits are those of the decimal, perhaps with zeros behind
them, and its power of ten makes up for the zeros. -/
structure Denotes (c : FloatingConstant) (d : Decimal) : Prop where
  formed : c.IsFormed
  value : ∃ zeros : Nat, c.numeral.digits = d.digits * 10 ^ zeros ∧
    c.numeral.power = d.exponent - zeros

end FloatingConstant

namespace Decimal

variable {d : Decimal}

theorem isDigit_of_mem_digitChars {x : Char} (hx : x ∈ d.digitChars) : x.isDigit = true :=
  Nat.isDigit_of_mem_toDigits (by decide) (by decide) hx

theorem digitChars_ne_nil (d : Decimal) : d.digitChars ≠ [] :=
  Nat.toDigits_ne_nil

theorem digitsValue_digitChars (d : Decimal) : digitsValue d.digitChars = d.digits :=
  digitsValue_toDigits d.digits

/-- Digits on both sides of a point are a decimal. -/
theorem exists_constant_of_point (whole fraction : List Char) (zeros : Nat)
    (hdigits : ∀ x ∈ whole ++ fraction, x.isDigit = true) (hne : whole ≠ [])
    (hvalue : digitsValue (whole ++ fraction) = d.digits * 10 ^ zeros)
    (hexponent : d.exponent = zeros - fraction.length) :
    ∃ c : FloatingConstant, c.chars = whole ++ '.' :: fraction ∧ c.Denotes d := by
  refine ⟨⟨whole, some fraction, none⟩, ?_, ?_, zeros, hvalue, ?_⟩
  · simp [FloatingConstant.chars, FloatingConstant.fractionChars, FloatingConstant.exponentChars]
  · exact {
      whole := fun x hx => hdigits x (List.mem_append_left _ hx)
      fraction := fun x hx => hdigits x (List.mem_append_right _ hx)
      exponent := nofun
      ne_nil := .inl hne
      marked := .inl (by simp) }
  · rw [hexponent]
    simp [FloatingConstant.numeral, FloatingConstant.exponentValue, Numeral.power]

theorem exists_constant_positional (d : Decimal) :
    ∃ c : FloatingConstant, c.chars = d.positional ∧ c.Denotes d := by
  have hpoint : d.point = d.digitChars.length + d.exponent := rfl
  have hzero {n : Nat} {x : Char} (hx : x ∈ List.replicate n '0') : x.isDigit = true := by
    rw [List.eq_of_mem_replicate hx]
    rfl
  unfold positional
  simp only
  split
  · next hsmall =>
    refine exists_constant_of_point ['0'] _ 0 (fun x hx => ?_) (by simp) ?_ ?_
    · simp only [List.mem_append, List.mem_singleton] at hx
      rcases hx with rfl | hx | hx
      · rfl
      · exact hzero hx
      · exact isDigit_of_mem_digitChars hx
    · have hzeros : ['0'] ++ (List.replicate (-d.point).toNat '0' ++ d.digitChars) =
          List.replicate ((-d.point).toNat + 1) '0' ++ d.digitChars := rfl
      rw [hzeros, digitsValue_zeros_append, digitsValue_digitChars, Nat.pow_zero, Nat.mul_one]
    · rw [List.length_append, List.length_replicate]
      omega
  · next hsmall =>
    split
    · next hgreat =>
      refine exists_constant_of_point _ ['0'] ((d.point - d.digitChars.length).toNat + 1)
        (fun x hx => ?_) (by simp [d.digitChars_ne_nil]) ?_ ?_
      · simp only [List.mem_append, List.mem_singleton] at hx
        rcases hx with (hx | hx) | rfl
        · exact isDigit_of_mem_digitChars hx
        · exact hzero hx
        · rfl
      · rw [List.append_assoc, ← List.replicate_succ', digitsValue_append_zeros,
          digitsValue_digitChars]
      · rw [List.length_singleton]
        omega
    · next hgreat =>
      refine exists_constant_of_point _ _ 0 (fun x hx => ?_) ?_ ?_ ?_
      · rw [List.take_append_drop] at hx
        exact isDigit_of_mem_digitChars hx
      · rw [Ne, List.take_eq_nil_iff]
        rintro (hzero | hnil)
        · omega
        · exact d.digitChars_ne_nil hnil
      · rw [List.take_append_drop, digitsValue_digitChars, Nat.pow_zero, Nat.mul_one]
      · rw [List.length_drop]
        omega

/-- The sign of an exponent, which may be shown also where it is positive. -/
def exponentSign (exponent : Int) (signedExponent : Bool) : Sign :=
  if exponent < 0 then .minus else if signedExponent then .plus else .none

theorem chars_exponentSign (exponent : Int) (signedExponent : Bool) :
    (exponentSign exponent signedExponent).chars =
      if exponent < 0 then ['-'] else if signedExponent then ['+'] else [] := by
  unfold exponentSign
  split
  · rfl
  · split <;> rfl

theorem apply_exponentSign (exponent : Int) (signedExponent : Bool) :
    (exponentSign exponent signedExponent).apply exponent.natAbs = exponent := by
  unfold exponentSign
  split
  · next hnegative => simp only [Sign.apply]; omega
  · next hnegative => split <;> simp only [Sign.apply] <;> omega

theorem exists_constant_scientific (d : Decimal) (signedExponent : Bool) :
    ∃ c : FloatingConstant, c.chars = d.scientific signedExponent ∧ c.Denotes d := by
  obtain ⟨first, rest, hcons⟩ := List.exists_cons_of_ne_nil d.digitChars_ne_nil
  have hdigits : ∀ x ∈ first :: rest, x.isDigit = true :=
    fun x hx => isDigit_of_mem_digitChars (hcons ▸ hx)
  have hvalue : digitsValue (first :: rest) = d.digits := hcons ▸ d.digitsValue_digitChars
  have hpoint : d.point = rest.length + 1 + d.exponent := by
    rw [point, hcons]
    rfl
  have hfraction : (if rest = [] then none else some rest).getD [] = rest := by
    split
    · next hnil => exact hnil.symm
    · rfl
  refine ⟨⟨[first], if rest = [] then none else some rest,
    some (exponentSign (d.point - 1) signedExponent, Nat.toDigits 10 (d.point - 1).natAbs)⟩,
    ?_, ?_, 0, ?_, ?_⟩
  · unfold scientific FloatingConstant.chars FloatingConstant.exponentChars
    rw [hcons]
    simp only [chars_exponentSign]
    cases rest <;> simp [FloatingConstant.fractionChars]
  · exact {
      whole := fun x hx => hdigits x (List.mem_cons.2 (.inl (List.mem_singleton.1 hx)))
      fraction := fun x hx => hdigits x (List.mem_cons_of_mem first (hfraction ▸ hx))
      exponent := by
        rintro sign digits heq
        cases heq
        exact ⟨Nat.toDigits_ne_nil,
          fun x hx => Nat.isDigit_of_mem_toDigits (by decide) (by decide) hx⟩
      ne_nil := .inl (by simp)
      marked := .inr (by simp) }
  · simp only [FloatingConstant.numeral, Numeral.digits, hfraction]
    rw [List.singleton_append, hvalue, Nat.pow_zero, Nat.mul_one]
  · simp only [FloatingConstant.numeral, Numeral.power, FloatingConstant.exponentValue, hfraction,
      digitsValue_toDigits, apply_exponentSign]
    omega

/-- **Both notations write a constant that is the decimal.** -/
theorem exists_constant_write (d : Decimal) (style : FloatStyle) :
    ∃ c : FloatingConstant, c.chars = d.write style ∧ c.Denotes d := by
  unfold write
  split
  · exact d.exists_constant_positional
  · exact d.exists_constant_scientific style.signedExponent

end Decimal

end ProtoExtensions
