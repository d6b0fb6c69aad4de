import ProtoExtensions.Default
import ProtoExtensions.Literal
import ProtoExtensions.Proofs.DecimalText
import ProtoExtensions.Proofs.ShortestDecimal

/-!
The literals of floating-point numbers are lossless (`floatLiterals_lossless`). Every bit pattern
that stands for a number is read back from its literal, as the default of a field of its type: both
zeros, the subnormal and the greatest numbers, and the infinities. The literal of a finite number is
a floating-point constant of C, behind a minus sign for a negative number.
-/

namespace ProtoExtensions

/-! ## Patterns and their parts -/

namespace FloatFormat

variable {f : FloatFormat} {bits : Nat}

/-- Whether a pattern stands for a finite number. -/
def IsFinite (f : FloatFormat) (bits : Nat) : Prop :=
  f.magnitude bits < f.infinity

instance (f : FloatFormat) (bits : Nat) : Decidable (f.IsFinite bits) :=
  inferInstanceAs (Decidable (f.magnitude bits < f.infinity))

theorem withSign_magnitude (h : bits < 2 * f.signBit) :
    f.withSign (f.isNegative bits) (f.magnitude bits) = bits := by
  simp only [withSign, isNegative, magnitude, decide_eq_true_eq]
  split
  · next hnegative =>
    rw [Nat.mod_eq_sub_mod hnegative, Nat.mod_eq_of_lt (by omega)]
    omega
  · next hnegative => exact Nat.mod_eq_of_lt (by omega)

theorem classify_of_isFinite (h : f.IsFinite bits) :
    f.classify bits = .finite (f.isNegative bits) (f.magnitude bits) :=
  if_pos h

/-- A pattern that stands for no finite number, and yet for a number, stands for an infinity. -/
theorem classify_of_not_isFinite (h : ¬f.IsFinite bits) (hnumber : f.classify bits ≠ .notANumber) :
    f.classify bits = .infinite (f.isNegative bits) ∧ f.magnitude bits = f.infinity := by
  have hclass : f.classify bits =
      if f.magnitude bits = f.infinity then .infinite (f.isNegative bits) else .notANumber :=
    if_neg h
  rw [hclass] at hnumber ⊢
  split
  · next hinfinity => exact ⟨rfl, hinfinity⟩
  · next hinfinity => exact absurd (if_neg hinfinity) hnumber

/-! ## Reading signs and words -/

theorem read?_eq {sign : Sign} {body : List Char} (hheads : sign.Heads body) :
    f.read? (sign.chars ++ body) =
      (f.readMagnitude? body).map (f.withSign (sign = .minus)) := by
  have hplus : f.withSign false = id := rfl
  cases sign with
  | minus => rfl
  | plus => simp [read?, Sign.chars, hplus]
  | none =>
    have hfirst := hheads rfl
    cases body with
    | nil => simp [read?, Sign.chars, hplus]
    | cons first rest =>
      obtain ⟨hp, hm⟩ := hfirst first rfl
      simp [read?, Sign.chars, hplus, hp, hm]

end FloatFormat

theorem toLower_of_isDigit {x : Char} (h : x.isDigit = true) : x.toLower = x := by
  have hless := (Char.isDigit_iff_toNat.1 h).2
  refine dif_neg fun hupper => ?_
  have hge := UInt32.le_iff_toNat_le.1 hupper.1
  exact absurd (Nat.le_trans hge hless) (by decide)

theorem isBlank_of_isDigit {x : Char} (h : x.isDigit = true) : isBlank x = false := by
  obtain ⟨hlow, hhigh⟩ := Char.isDigit_iff_toNat.1 h
  exact isBlank_of_range ⟨hlow, Nat.le_trans hhigh (by decide)⟩

namespace FloatingConstant.IsFormed

variable {c : FloatingConstant} {x : Char}

/-- All the words have a letter that no constant has. -/
theorem not_mem_toLower (h : c.IsFormed) : 'n' ∉ c.chars.map Char.toLower := by
  intro hmem
  obtain ⟨x, hx, hlower⟩ := List.mem_map.1 hmem
  rcases h.mem_chars hx with hdigit | hother
  · rw [toLower_of_isDigit hdigit] at hlower
    subst hlower
    cases hdigit
  · simp only [List.mem_cons, List.not_mem_nil, or_false] at hother
    rcases hother with rfl | rfl | rfl | rfl <;> exact absurd hlower (by decide)

theorem isBlank_of_mem (h : c.IsFormed) (hx : x ∈ c.chars) : isBlank x = false := by
  rcases h.mem_chars hx with hdigit | hother
  · exact isBlank_of_isDigit hdigit
  · simp only [List.mem_cons, List.not_mem_nil, or_false] at hother
    rcases hother with rfl | rfl | rfl | rfl <;> decide

theorem head_ne_sign (h : c.IsFormed) (hx : x ∈ c.chars.head?) : x ≠ '+' ∧ x ≠ '-' := by
  have hstart : x.isDigit = true ∨ x = '.' := by
    rcases hwhole : c.whole with _ | ⟨first, rest⟩
    · obtain ⟨digits, hdigits⟩ : ∃ digits, c.fraction = some digits := by
        refine Option.ne_none_iff_exists'.1 fun hnone => ?_
        simpa [hwhole, hnone] using h.ne_nil
      right
      simpa [chars, fractionChars, hwhole, hdigits, eq_comm] using hx
    · left
      obtain rfl : first = x := by simpa [chars, hwhole] using hx
      exact h.whole first (by simp [hwhole])
  rcases hstart with hdigit | rfl
  · constructor <;> rintro rfl <;> cases hdigit
  · decide

end FloatingConstant.IsFormed

namespace FloatFormat

variable {f : FloatFormat} {bits magnitude : Nat}

theorem readMagnitude?_chars {c : FloatingConstant} (h : c.IsFormed) :
    f.readMagnitude? c.chars = some (f.ofDecimal c.numeral.digits c.numeral.power) := by
  have hword (word : String) (hn : 'n' ∈ word.toList) :
      String.ofList (c.chars.map Char.toLower) ≠ word := by
    rintro rfl
    exact h.not_mem_toLower (by simpa using hn)
  unfold readMagnitude?
  simp only [hword "inf" (by decide), hword "infinity" (by decide), hword "nan" (by decide),
    or_self, if_false, Numeral.read?_chars h]
  rfl

/-- The characters of a finite magnitude, without its sign. -/
def finiteChars (f : FloatFormat) (style : FloatStyle) (magnitude : Nat) : List Char :=
  if magnitude = 0 then ['0', '.', '0'] else (f.shortest style.tie magnitude).write style

/-- A finite magnitude is written as a constant that reads back. -/
theorem exists_constant_finiteChars (hreach : f.WithinReach) (style : FloatStyle)
    (hfinite : magnitude < f.infinity) :
    ∃ c : FloatingConstant, c.IsFormed ∧ c.chars = f.finiteChars style magnitude ∧
      f.readMagnitude? c.chars = some magnitude := by
  unfold finiteChars
  split
  · next hzero =>
    have hformed : FloatingConstant.IsFormed ⟨['0'], some ['0'], none⟩ :=
      ⟨List.all_eq_true.1 rfl, List.all_eq_true.1 rfl, nofun, by decide, by decide⟩
    refine ⟨_, hformed, rfl, ?_⟩
    rw [readMagnitude?_chars hformed, hzero]
    rfl
  · next hzero =>
    obtain ⟨c, hchars, hformed, zeros, hdigits, hpower⟩ :=
      (f.shortest style.tie magnitude).exists_constant_write style
    refine ⟨c, hformed, hchars, ?_⟩
    rw [readMagnitude?_chars hformed, hdigits, hpower,
      ofDecimal_shortest hreach (Nat.pos_of_ne_zero hzero) hfinite]

end FloatFormat

/-! ## Literals -/

/-- Whether a text is a floating-point constant, perhaps behind a minus sign. -/
def IsFloatingLiteral (text : String) : Prop :=
  ∃ (sign : Sign) (c : FloatingConstant), sign ≠ .plus ∧ c.IsFormed ∧
    text.toList = sign.chars ++ c.chars

theorem IsFloatingLiteral.point_or_exponent {text : String} (h : IsFloatingLiteral text) :
    '.' ∈ text.toList ∨ 'e' ∈ text.toList := by
  obtain ⟨sign, c, -, hformed, htext⟩ := h
  rw [htext]
  exact hformed.point_or_exponent.imp (List.mem_append_right _) (List.mem_append_right _)

/-- The sign in front of a text for a number. -/
def Sign.ofNegative (negative : Bool) : Sign :=
  if negative then .minus else .none

theorem Sign.chars_ofNegative_append (negative : Bool) (body : List Char) :
    (ofNegative negative).chars ++ body = if negative then '-' :: body else body := by
  cases negative <;> rfl

section

variable {f : FloatFormat} {bits : Nat}

theorem readFloat_ofList (hbits : bits < 2 * f.signBit) (type : FieldType) {body : List Char}
    (hread : f.readMagnitude? body = some (f.magnitude bits))
    (hhead : ∀ x ∈ body.head?, x ≠ '+' ∧ x ≠ '-') (hblank : ∀ x ∈ body, isBlank x = false) :
    readFloat f type (String.ofList ((Sign.ofNegative (f.isNegative bits)).chars ++ body)) =
      .ok bits := by
  have htrim : trim ((Sign.ofNegative (f.isNegative bits)).chars ++ body) =
      (Sign.ofNegative (f.isNegative bits)).chars ++ body := by
    refine trim_eq_self fun x hx => ?_
    rcases List.mem_append.1 hx with hx | hx
    · cases hnegative : f.isNegative bits <;> simp [Sign.ofNegative, Sign.chars, hnegative] at hx
      subst hx
      decide
    · exact hblank x hx
  have hsign : decide (Sign.ofNegative (f.isNegative bits) = .minus) = f.isNegative bits := by
    cases f.isNegative bits <;> rfl
  unfold readFloat
  rw [String.toList_ofList, htrim, FloatFormat.read?_eq fun _ => hhead, hread, hsign,
    Option.map_some, FloatFormat.withSign_magnitude hbits]

/-- The literal of a pattern reads back without its suffix, which only finite numbers have. -/
theorem exists_text_floating (hreach : f.WithinReach) (hbits : bits < 2 * f.signBit)
    (hnumber : f.classify bits ≠ .notANumber) (type : FieldType) (suffix : String) :
    ∃ text, readFloat f type text = .ok bits ∧
      (f.IsFinite bits → Literal.floating f suffix bits = text ++ suffix ∧ IsFloatingLiteral text) ∧
      (¬f.IsFinite bits → Literal.floating f suffix bits = text) := by
  unfold Literal.floating
  by_cases hfinite : f.IsFinite bits
  · obtain ⟨c, hformed, hchars, hread⟩ :=
      FloatFormat.exists_constant_finiteChars hreach Literal.floatStyle hfinite
    refine ⟨_, readFloat_ofList hbits type hread (fun x => hformed.head_ne_sign)
      (fun x => hformed.isBlank_of_mem), fun _ => ⟨?_, ?_⟩, fun h => absurd hfinite h⟩
    · rw [FloatFormat.classify_of_isFinite hfinite, Sign.chars_ofNegative_append, hchars]
      rfl
    · refine ⟨Sign.ofNegative (f.isNegative bits), c, ?_, hformed, String.toList_ofList⟩
      cases f.isNegative bits <;> decide
  · obtain ⟨hclass, hinfinity⟩ := FloatFormat.classify_of_not_isFinite hfinite hnumber
    have hread : f.readMagnitude? "INFINITY".toList = some (f.magnitude bits) := by
      rw [hinfinity]
      unfold FloatFormat.readMagnitude?
      exact if_pos (Or.inr (by decide))
    have hblank : ∀ x ∈ "INFINITY".toList, isBlank x = false := by simp [isBlank, blankRanges]
    refine ⟨_, readFloat_ofList hbits type hread (by simp) hblank,
      fun h => absurd h hfinite, fun _ => ?_⟩
    rw [hclass, Sign.chars_ofNegative_append]
    cases f.isNegative bits <;> rfl

end

/-- **Literals of floating-point numbers are lossless.** The literal of every pattern that stands
for a number declares just this pattern as the default of a field of its type; in the narrower
format that is without the suffix, which only finite numbers have. The literal of a finite number is
a constant of C, and as such has a point or an exponent. -/
theorem floatLiterals_lossless :
    (∀ (bits : UInt32) (value : ValueKind), FloatFormat.single.classify bits.toNat ≠ .notANumber →
      ∃ text, DefaultValue.read .float text value = .ok (.float bits) ∧
        (FloatFormat.single.IsFinite bits.toNat → Literal.float bits = text ++ "f" ∧
          IsFloatingLiteral text ∧ ('.' ∈ text.toList ∨ 'e' ∈ text.toList)) ∧
        (¬FloatFormat.single.IsFinite bits.toNat → Literal.float bits = text)) ∧
    ∀ (bits : UInt64) (value : ValueKind), FloatFormat.double.classify bits.toNat ≠ .notANumber →
      DefaultValue.read .double (Literal.double bits) value = .ok (.double bits) ∧
        (FloatFormat.double.IsFinite bits.toNat → IsFloatingLiteral (Literal.double bits) ∧
          ('.' ∈ (Literal.double bits).toList ∨ 'e' ∈ (Literal.double bits).toList)) := by
  refine ⟨fun bits value hnumber => ?_, fun bits value hnumber => ?_⟩
  · have hbits : bits.toNat < 2 * FloatFormat.single.signBit := bits.toNat_lt
    obtain ⟨text, hread, hfinite, hinfinite⟩ := exists_text_floating
      FloatFormat.withinReach_single hbits hnumber .float "f"
    refine ⟨text, ?_, fun h => ?_, hinfinite⟩
    · simp [DefaultValue.read, hread, Except.map]
    · obtain ⟨hliteral, hconstant⟩ := hfinite h
      exact ⟨hliteral, hconstant, hconstant.point_or_exponent⟩
  · have hbits : bits.toNat < 2 * FloatFormat.double.signBit := bits.toNat_lt
    obtain ⟨text, hread, hfinite, hinfinite⟩ := exists_text_floating
      FloatFormat.withinReach_double hbits hnumber .double ""
    have hliteral : Literal.double bits = text := by
      by_cases h : FloatFormat.double.IsFinite bits.toNat
      · rw [← String.append_empty (s := text)]
        exact (hfinite h).1
      · exact hinfinite h
    rw [hliteral]
    refine ⟨?_, fun h => ⟨(hfinite h).2, (hfinite h).2.point_or_exponent⟩⟩
    simp [DefaultValue.read, hread, Except.map]

/-- The greatest number below zero, and in the wider format the negative zero, the greatest number
and the negative infinity. -/
theorem floatLiterals_lossless_extremes :
    (∃ text, DefaultValue.read .float text .scalar = .ok (.float 0x80000001) ∧
      Literal.float 0x80000001 = text ++ "f" ∧ ('.' ∈ text.toList ∨ 'e' ∈ text.toList)) ∧
    DefaultValue.read .double "-0.0" .scalar = .ok (.double 0x8000000000000000) ∧
    DefaultValue.read .double "1.7976931348623157e308" .scalar =
      .ok (.double 0x7FEFFFFFFFFFFFFF) ∧
    DefaultValue.read .double "-INFINITY" .scalar = .ok (.double 0xFFF0000000000000) := by
  obtain ⟨hfloat, hdouble⟩ := floatLiterals_lossless
  have hsubnormal : FloatFormat.single.IsFinite (0x80000001 : UInt32).toNat := by decide +kernel
  have hzero : Literal.double 0x8000000000000000 = "-0.0" := by decide +kernel
  have hgreatest : Literal.double 0x7FEFFFFFFFFFFFFF = "1.7976931348623157e308" := by
    decide +kernel
  have hinfinity : Literal.double 0xFFF0000000000000 = "-INFINITY" := by decide +kernel
  obtain ⟨text, hread, hfinite, -⟩ := hfloat 0x80000001 .scalar (by decide +kernel)
  obtain ⟨hliteral, -, hpoint⟩ := hfinite hsubnormal
  refine ⟨⟨text, hread, hliteral, hpoint⟩, ?_, ?_, ?_⟩
  · rw [← hzero]
    exact (hdouble _ .scalar (by decide +kernel)).1
  · rw [← hgreatest]
    exact (hdouble _ .scalar (by decide +kernel)).1
  · rw [← hinfinity]
    exact (hdouble _ .scalar (by decide +kernel)).1

end ProtoExtensions
