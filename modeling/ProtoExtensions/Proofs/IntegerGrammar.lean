import Mathlib.Data.Nat.Digits.Defs
import ProtoExtensions.Proofs.Numerals

/-!
The grammar of integer texts. A numeral is an optional sign, a mark that announces the base, and
digits of this base; a decimal numeral has no zero in front, which would announce octal digits.
Reading an integer text accepts exactly what a numeral is written with, between any blanks, and
gives the numeral's value (`readInteger?_followsGrammar`). So an integer that is written in any of
the bases reads back, and no text with a second sign is accepted.
-/

namespace ProtoExtensions

/-- The sign in front of an integer, if there is one. -/
inductive Sign where
  | none
  | plus
  | minus
  deriving DecidableEq, Repr

namespace Sign

/-- The characters of a sign. -/
def chars : Sign → List Char
  | none => []
  | plus => ['+']
  | minus => ['-']

/-- A magnitude with a sign. -/
def apply : Sign → Nat → Int
  | minus, n => -n
  | _, n => n

end Sign

/-- The ways to write the magnitude of an integer. -/
inductive Radix where
  | decimal
  | octal
  | hexadecimal
  | capitalHexadecimal
  deriving DecidableEq, Repr

namespace Radix

/-- What announces the digits. -/
def mark : Radix → List Char
  | decimal => []
  | octal => ['0']
  | hexadecimal => ['0', 'x']
  | capitalHexadecimal => ['0', 'X']

/-- The base that the digits are in. -/
def base : Radix → Nat
  | decimal => 10
  | octal => 8
  | hexadecimal | capitalHexadecimal => 16

theorem base_le (radix : Radix) : 1 < radix.base ∧ radix.base ≤ 16 := by
  cases radix <;> decide

end Radix

/-- An integer text in its parts. -/
structure IntegerNumeral where
  sign : Sign
  radix : Radix
  digits : List Char
  deriving DecidableEq, Repr

namespace IntegerNumeral

/-- The characters of a numeral behind its sign. -/
def body (numeral : IntegerNumeral) : List Char :=
  numeral.radix.mark ++ numeral.digits

/-- The characters of a numeral. -/
def chars (numeral : IntegerNumeral) : List Char :=
  numeral.sign.chars ++ numeral.body

/-- The number that the digits stand for. -/
def magnitude (numeral : IntegerNumeral) : Nat :=
  Nat.ofDigits numeral.radix.base (numeral.digits.reverse.filterMap digitValue?)

/-- The number that a numeral stands for. -/
def value (numeral : IntegerNumeral) : Int :=
  numeral.sign.apply numeral.magnitude

/-- Whether a numeral follows the grammar: it has digits, all of them of its base, there is no zero
in front of decimal ones, and its magnitude is not too large. -/
structure IsFormed (numeral : IntegerNumeral) : Prop where
  ne_nil : numeral.digits ≠ []
  isDigit : ∀ c ∈ numeral.digits, isDigitOf numeral.radix.base c = true
  leading : numeral.radix = .decimal → numeral.digits.head? = some '0' → numeral.digits = ['0']
  bounded : numeral.magnitude ≤ 2 ^ 127 - 1

/-- The numeral that an integer is written as. -/
def ofInt (sign : Sign) (radix : Radix) (n : Int) : IntegerNumeral :=
  ⟨sign, radix, Nat.toDigits radix.base n.natAbs⟩

end IntegerNumeral

/-! ## Digits -/

theorem appendDigit?_eq_some_iff {base value next : Nat} {c : Char} :
    appendDigit? base value c = some next ↔
      ∃ digit, digitValue? c = some digit ∧ digit < base ∧ base * value + digit = next := by
  unfold appendDigit?
  cases digitValue? c with
  | none => simp
  | some digit =>
    by_cases hdigit : digit < base
    · simp [hdigit]
    · simp [hdigit]

theorem isDigitOf_iff {base : Nat} {c : Char} :
    isDigitOf base c = true ↔ ∃ digit, digitValue? c = some digit ∧ digit < base := by
  unfold isDigitOf
  cases digitValue? c <;> simp

theorem ofDigits_append_pair (base digit value : Nat) (digits : List Nat) :
    Nat.ofDigits base (digits ++ [digit, value]) =
      Nat.ofDigits base (digits ++ [base * value + digit]) := by
  simp only [Nat.ofDigits_append, Nat.ofDigits_cons, Nat.ofDigits_nil]
  simp [Nat.add_comm]

theorem digitsFrom?_eq_some_iff {base value n : Nat} {digits : List Char} :
    digitsFrom? base value digits = some n ↔
      (∀ c ∈ digits, isDigitOf base c = true) ∧
        Nat.ofDigits base (digits.reverse.filterMap digitValue? ++ [value]) = n := by
  induction digits generalizing value with
  | nil => simp [digitsFrom?]
  | cons c rest ih =>
    simp only [digitsFrom?, Option.bind_eq_some_iff, appendDigit?_eq_some_iff, ih,
      List.forall_mem_cons, isDigitOf_iff]
    constructor
    · rintro ⟨_, ⟨digit, hdigit, hlt, rfl⟩, hrest, rfl⟩
      refine ⟨⟨⟨digit, hdigit, hlt⟩, hrest⟩, ?_⟩
      simp [hdigit, ofDigits_append_pair]
    · rintro ⟨⟨⟨digit, hdigit, hlt⟩, hrest⟩, rfl⟩
      refine ⟨_, ⟨digit, hdigit, hlt, rfl⟩, hrest, ?_⟩
      simp [hdigit, ofDigits_append_pair]

theorem digitsFrom?_zero_eq_some_iff {base n : Nat} {digits : List Char} :
    digitsFrom? base 0 digits = some n ↔
      (∀ c ∈ digits, isDigitOf base c = true) ∧
        Nat.ofDigits base (digits.reverse.filterMap digitValue?) = n := by
  rw [digitsFrom?_eq_some_iff, Nat.ofDigits_append]
  simp

/-! ## Taking a numeral apart -/

theorem ne_of_isDigitOf {base : Nat} {c other : Char} (hc : isDigitOf base c = true)
    (hother : digitValue? other = none) : c ≠ other := by
  rintro rfl
  simp [isDigitOf, hother] at hc

/-- All digits lie behind the blanks of ASCII and in front of those beyond it. -/
theorem isBlank_of_range {c : Char} (h : 48 ≤ c.toNat ∧ c.toNat ≤ 102) : isBlank c = false := by
  simp only [isBlank, blankRanges, List.any_cons, List.any_nil]
  simp
  omega

theorem isBlank_of_isDigitOf {base : Nat} {c : Char} (h : isDigitOf base c = true) :
    isBlank c = false := by
  refine isBlank_of_range ?_
  obtain ⟨digit, hdigit, -⟩ := isDigitOf_iff.1 h
  unfold digitValue? at hdigit
  simp only [Char.le_def, UInt32.le_iff_toNat_le] at hdigit
  split at hdigit
  · next hc => exact ⟨hc.1, Nat.le_trans hc.2 (by decide)⟩
  · split at hdigit
    · next hc => exact ⟨Nat.le_trans (by decide) hc.1, hc.2⟩
    · split at hdigit
      · next hc => exact ⟨Nat.le_trans (by decide) hc.1, Nat.le_trans hc.2 (by decide)⟩
      · cases hdigit

namespace IntegerNumeral

variable {radix : Radix} {digits : List Char}

/-- The mark of a numeral announces its base: octal digits do not go on as a hexadecimal mark does,
and decimal digits do not start as a mark. -/
theorem integerBody_append (hne : digits ≠ [])
    (hdigits : ∀ c ∈ digits, isDigitOf radix.base c = true)
    (hleading : radix = .decimal → digits.head? = some '0' → digits = ['0']) :
    integerBody (radix.mark ++ digits) = (radix.base, digits) := by
  obtain ⟨c, rest, rfl⟩ := List.exists_cons_of_ne_nil hne
  have hc := hdigits c (by simp)
  cases radix with
  | hexadecimal | capitalHexadecimal => rfl
  | octal =>
    have hx : c ≠ 'x' := ne_of_isDigitOf hc rfl
    have hX : c ≠ 'X' := ne_of_isDigitOf hc rfl
    exact integerBody.eq_3 c rest (fun h => hx h) (fun h => hX h)
  | decimal =>
    have hsingle : c = '0' → rest = [] := fun h => by simpa [h] using hleading rfl
    refine integerBody.eq_4 _ (fun _ h => ?_) (fun _ h => ?_) (fun _ _ h => ?_)
    all_goals
      obtain ⟨rfl, rfl⟩ := List.cons.inj h
      cases hsingle rfl

/-- Some mark stands in front of every text, if only the empty one of decimal numerals. -/
theorem exists_integerBody (text : List Char) :
    ∃ radix digits, text = Radix.mark radix ++ digits ∧ integerBody text = (radix.base, digits) ∧
      (radix = .decimal → digits.head? = some '0' → digits = ['0']) := by
  fun_cases integerBody text with
  | case1 rest => exact ⟨.hexadecimal, rest, rfl, rfl, nofun⟩
  | case2 rest => exact ⟨.capitalHexadecimal, rest, rfl, rfl, nofun⟩
  | case3 c rest hx hX => exact ⟨.octal, c :: rest, rfl, rfl, nofun⟩
  | case4 text hlower hcapital hzero =>
    refine ⟨.decimal, text, rfl, rfl, fun _ hhead => ?_⟩
    cases text with
    | nil => cases hhead
    | cons first rest =>
      obtain rfl : first = '0' := by simpa using hhead
      cases rest with
      | nil => rfl
      | cons c rest => exact absurd rfl (hzero c rest)

theorem integerBound_eq : integerBound = 2 ^ 127 - 1 := by decide

theorem readUnsigned?_eq_some_iff (sign : Sign) {text : List Char} {n : Nat} :
    readUnsigned? text = some n ↔ ∃ numeral : IntegerNumeral,
      numeral.sign = sign ∧ numeral.IsFormed ∧ numeral.body = text ∧ numeral.magnitude = n := by
  constructor
  · intro h
    obtain ⟨radix, digits, rfl, hbody, hleading⟩ := exists_integerBody text
    rw [readUnsigned?, hbody] at h
    have hne : digits ≠ [] := by
      rintro rfl
      cases h
    have hread : (digitsFrom? radix.base 0 digits).filter (· ≤ integerBound) = some n := by
      split at h
      · cases h
      · next heq =>
        cases heq
        exact h
    obtain ⟨hdigits, hbound⟩ := Option.filter_eq_some_iff.1 hread
    obtain ⟨hall, hvalue⟩ := digitsFrom?_zero_eq_some_iff.1 hdigits
    refine ⟨⟨sign, radix, digits⟩, rfl, ⟨hne, hall, hleading, ?_⟩, rfl, hvalue⟩
    rw [magnitude, hvalue, ← integerBound_eq]
    simpa using hbound
  · rintro ⟨⟨sign, radix, digits⟩, rfl, ⟨hne, hall, hleading, hbound⟩, rfl, rfl⟩
    have hdigits := digitsFrom?_zero_eq_some_iff.2 ⟨hall, rfl⟩
    unfold readUnsigned? body
    rw [integerBody_append hne hall hleading]
    split
    · next heq => exact absurd (congrArg Prod.snd heq) hne
    · next heq =>
      cases heq
      rw [hdigits]
      refine Option.filter_eq_some_iff.2 ⟨rfl, ?_⟩
      rw [integerBound_eq]
      simpa [magnitude] using hbound

theorem IsFormed.mem_body {numeral : IntegerNumeral} (h : numeral.IsFormed) {c : Char}
    (hc : c ∈ numeral.body) : isDigitOf 16 c = true ∨ c = 'x' ∨ c = 'X' := by
  rcases List.mem_append.1 hc with hc | hc
  · cases hradix : numeral.radix <;> simp [Radix.mark, hradix] at hc
    · exact .inl (by rw [hc]; decide)
    · exact hc.imp (fun h => by rw [h]; decide) .inl
    · exact hc.imp (fun h => by rw [h]; decide) .inr
  · obtain ⟨digit, hdigit, hlt⟩ := isDigitOf_iff.1 (h.isDigit c hc)
    exact .inl (isDigitOf_iff.2 ⟨digit, hdigit, Nat.lt_of_lt_of_le hlt numeral.radix.base_le.2⟩)

theorem IsFormed.ne_sign {numeral : IntegerNumeral} (h : numeral.IsFormed) {c : Char}
    (hc : c ∈ numeral.body) : c ≠ '+' ∧ c ≠ '-' := by
  rcases h.mem_body hc with hc | rfl | rfl
  · exact ⟨ne_of_isDigitOf hc rfl, ne_of_isDigitOf hc rfl⟩
  · decide
  · decide

theorem IsFormed.isBlank_of_mem {numeral : IntegerNumeral} (h : numeral.IsFormed) {c : Char}
    (hc : c ∈ numeral.chars) : isBlank c = false := by
  rcases List.mem_append.1 hc with hc | hc
  · cases hsign : numeral.sign <;> simp [Sign.chars, hsign] at hc <;> subst hc <;> decide
  · rcases h.mem_body hc with hc | rfl | rfl
    · exact isBlank_of_isDigitOf hc
    · decide
    · decide

end IntegerNumeral

/-- Whether a sign can stand in front of a text: if there is none, the text starts with none. -/
def Sign.Heads (sign : Sign) (body : List Char) : Prop :=
  sign = .none → ∀ c ∈ body.head?, c ≠ '+' ∧ c ≠ '-'

theorem exists_sign (text : List Char) :
    ∃ sign body, text = Sign.chars sign ++ body ∧ sign.Heads body := by
  match text with
  | [] => exact ⟨.none, [], rfl, fun _ => by simp⟩
  | c :: rest =>
    by_cases hplus : c = '+'
    · exact ⟨.plus, rest, by rw [hplus]; rfl, nofun⟩
    · by_cases hminus : c = '-'
      · exact ⟨.minus, rest, by rw [hminus]; rfl, nofun⟩
      · exact ⟨.none, c :: rest, rfl, fun _ => by simp [hplus, hminus]⟩

theorem readInteger?_eq {text : String} {sign : Sign} {body : List Char}
    (h : trim text.toList = sign.chars ++ body) (hheads : sign.Heads body) :
    readInteger? text = (readUnsigned? body).map sign.apply := by
  unfold readInteger?
  rw [h]
  cases sign with
  | plus | minus => cases hread : readUnsigned? body <;> simp [Sign.chars, hread, Sign.apply]
  | none =>
    cases body with
    | nil => rfl
    | cons c rest =>
      have hc := hheads rfl c rfl
      simp only [Sign.chars, List.nil_append]
      split
      · simp_all
      · simp_all
      · cases readUnsigned? (c :: rest) <;> rfl

theorem readInteger?_eq_some_iff {text : String} {n : Int} :
    readInteger? text = some n ↔ ∃ numeral : IntegerNumeral,
      numeral.IsFormed ∧ numeral.chars = trim text.toList ∧ numeral.value = n := by
  constructor
  · intro h
    obtain ⟨sign, body, htext, hheads⟩ := exists_sign (trim text.toList)
    rw [readInteger?_eq htext hheads] at h
    obtain ⟨magnitude, hread, rfl⟩ := Option.map_eq_some_iff.1 h
    obtain ⟨numeral, rfl, hformed, rfl, rfl⟩ :=
      (IntegerNumeral.readUnsigned?_eq_some_iff sign).1 hread
    exact ⟨numeral, hformed, htext.symm, rfl⟩
  · rintro ⟨numeral, hformed, htext, rfl⟩
    have hheads : numeral.sign.Heads numeral.body :=
      fun _ c hc => hformed.ne_sign (List.mem_of_mem_head? hc)
    rw [readInteger?_eq htext.symm hheads, (IntegerNumeral.readUnsigned?_eq_some_iff
      numeral.sign).2 ⟨numeral, rfl, hformed, rfl, rfl⟩]
    rfl

namespace IntegerNumeral

/-- What is written for an integer follows the grammar. -/
theorem isFormed_ofInt (sign : Sign) (radix : Radix) {n : Int} (hn : n.natAbs ≤ 2 ^ 127 - 1) :
    (ofInt sign radix n).IsFormed ∧ (ofInt sign radix n).magnitude = n.natAbs := by
  obtain ⟨hlow, hhigh⟩ := radix.base_le
  obtain ⟨hdigits, hvalue⟩ :=
    digitsFrom?_zero_eq_some_iff.1 (digitsFrom?_toDigits hlow hhigh n.natAbs)
  have hmagnitude : (ofInt sign radix n).magnitude = n.natAbs := hvalue
  exact ⟨⟨Nat.toDigits_ne_nil, hdigits, fun _ => toDigits_leading hlow hhigh n.natAbs,
    hmagnitude ▸ hn⟩, hmagnitude⟩

end IntegerNumeral

/-- **Reading accepts exactly the grammar of integers**, with any blanks around a numeral, and gives
the numeral's value. Every integer up to the bound that is written with its sign in some base reads
back, and behind the first character of an accepted text there is no sign. -/
theorem readInteger?_followsGrammar :
    (∀ (text : String) (n : Int), readInteger? text = some n ↔
      ∃ (before after : List Char) (numeral : IntegerNumeral),
        (∀ c ∈ before, isBlank c = true) ∧ (∀ c ∈ after, isBlank c = true) ∧
          text.toList = before ++ numeral.chars ++ after ∧ numeral.IsFormed ∧ numeral.value = n) ∧
    (∀ (sign : Sign) (radix : Radix) (n : Int), n.natAbs ≤ 2 ^ 127 - 1 → sign.apply n.natAbs = n →
      readInteger? (String.ofList (IntegerNumeral.ofInt sign radix n).chars) = some n) ∧
    ∀ (text : String) (n : Int), readInteger? text = some n →
      ∀ c ∈ (trim text.toList).tail, c ≠ '+' ∧ c ≠ '-' := by
  refine ⟨fun text n => ?_, fun sign radix n hn hsign => ?_, fun text n h c hc => ?_⟩
  · rw [readInteger?_eq_some_iff]
    constructor
    · rintro ⟨numeral, hformed, htrim, rfl⟩
      obtain ⟨before, after, hbefore, hafter, htext⟩ := exists_blanks_append_trim text.toList
      exact ⟨before, after, numeral, hbefore, hafter, htrim ▸ htext, hformed, rfl⟩
    · rintro ⟨before, after, numeral, hbefore, hafter, htext, hformed, rfl⟩
      refine ⟨numeral, hformed, ?_, rfl⟩
      rw [htext, trim_append_append hbefore hafter
        (fun c hc => hformed.isBlank_of_mem (List.mem_of_mem_head? hc))
        fun c hc => hformed.isBlank_of_mem (List.mem_of_mem_getLast? hc)]
  · obtain ⟨hformed, hmagnitude⟩ := IntegerNumeral.isFormed_ofInt sign radix hn
    refine readInteger?_eq_some_iff.2 ⟨_, hformed, ?_, ?_⟩
    · rw [String.toList_ofList, trim_eq_self fun c hc => hformed.isBlank_of_mem hc]
    · rw [IntegerNumeral.value, hmagnitude]
      exact hsign
  · obtain ⟨numeral, hformed, htrim, -⟩ := readInteger?_eq_some_iff.1 h
    refine hformed.ne_sign ?_
    rw [← htrim, IntegerNumeral.chars] at hc
    cases hsign : numeral.sign <;> rw [hsign] at hc
    · exact List.mem_of_mem_tail hc
    · exact hc
    · exact hc

/-- A capital hexadecimal numeral between blanks, and the least integer in octal digits. -/
theorem readInteger?_followsGrammar_extremes :
    readInteger? "\t-0X1f " = some (-31) ∧
    (∀ c ∈ (trim "\t-0X1f ".toList).tail, c ≠ '+' ∧ c ≠ '-') ∧
    readInteger? (String.ofList (IntegerNumeral.ofInt .minus .octal (1 - 2 ^ 127)).chars) =
      some (1 - 2 ^ 127) := by
  obtain ⟨haccepted, hwritten, hsigns⟩ := readInteger?_followsGrammar
  have hformed : (⟨.minus, .capitalHexadecimal, ['1', 'f']⟩ : IntegerNumeral).IsFormed :=
    ⟨by decide, List.all_eq_true.1 rfl, by decide, by decide⟩
  have hread : readInteger? "\t-0X1f " = some (-31) := (haccepted _ _).2
    ⟨['\t'], [' '], _, List.all_eq_true.1 rfl, List.all_eq_true.1 rfl, by decide, hformed,
      by decide⟩
  exact ⟨hread, hsigns _ _ hread, hwritten .minus .octal _ (by decide) (by decide)⟩

end ProtoExtensions
