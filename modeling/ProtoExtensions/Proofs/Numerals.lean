import ProtoExtensions.Default.Integer

/-!
Numbers written in digits, and what the digits read back as. `Nat.toDigits` writes a number in a
base, and `digitsFrom?` reads digits; for bases up to sixteen reading gives back what was written
(`digitsFrom?_toDigits`), also behind any number of zeros. A written number has digits of its base
only and starts with no zero unless it is zero.
-/

namespace ProtoExtensions

/-- Whether a character is a digit of a base. -/
def isDigitOf (base : Nat) (c : Char) : Bool :=
  (digitValue? c).any (· < base)

theorem digitsFrom?_append (base value : Nat) (a b : List Char) :
    digitsFrom? base value (a ++ b) =
      (digitsFrom? base value a).bind fun value => digitsFrom? base value b := by
  induction a generalizing value with
  | nil => rfl
  | cons c a ih =>
    simp only [List.cons_append, digitsFrom?]
    cases appendDigit? base value c with
    | none => rfl
    | some next => exact ih next

theorem digitValue?_digitChar : ∀ {digit : Nat}, digit < 16 →
    digitValue? digit.digitChar = some digit := by
  decide

section

variable {base digit : Nat}

theorem appendDigit?_digitChar (hdigit : digit < base) (hbase : base ≤ 16) (value : Nat) :
    appendDigit? base value digit.digitChar = some (base * value + digit) := by
  rw [appendDigit?, digitValue?_digitChar (by omega)]
  exact if_pos hdigit

theorem isDigitOf_digitChar (hdigit : digit < base) (hbase : base ≤ 16) :
    isDigitOf base digit.digitChar = true := by
  simpa [isDigitOf, digitValue?_digitChar (Nat.lt_of_lt_of_le hdigit hbase)] using hdigit

end

/-- A statement about the digits of numbers holds when it holds of the digits below the base and
carries over to a number from what is left without its last digit. -/
theorem toDigits_induction {base : Nat} (hbase : 1 < base) {P : Nat → List Char → Prop}
    (single : ∀ digit, digit < base → P digit [digit.digitChar])
    (append : ∀ n, base ≤ n → P (n / base) (Nat.toDigits base (n / base)) →
      P n (Nat.toDigits base (n / base) ++ [(n % base).digitChar])) (n : Nat) :
    P n (Nat.toDigits base n) := by
  induction n using Nat.strongRecOn with
  | ind n ih =>
    rw [Nat.toDigits_eq_if hbase]
    split
    · next hn => exact single n hn
    · next hn =>
      have hlt : n / base < n := Nat.div_lt_self (by omega) hbase
      exact append n (by omega) (ih _ hlt)

section

variable {base : Nat}

/-- **Reading gives back what was written.** -/
theorem digitsFrom?_toDigits (hlow : 1 < base) (hhigh : base ≤ 16) (n : Nat) :
    digitsFrom? base 0 (Nat.toDigits base n) = some n := by
  refine toDigits_induction hlow (P := fun n digits => digitsFrom? base 0 digits = some n)
    (fun digit hdigit => ?_) (fun n _ ih => ?_) n
  · simp [digitsFrom?, appendDigit?_digitChar hdigit hhigh]
  · have hdigit : n % base < base := Nat.mod_lt n (by omega)
    rw [digitsFrom?_append, ih]
    simp [digitsFrom?, appendDigit?_digitChar hdigit hhigh, Nat.div_add_mod]

theorem digitsFrom?_replicate_append (hlow : 1 < base) (count : Nat) (digits : List Char) :
    digitsFrom? base 0 (List.replicate count '0' ++ digits) = digitsFrom? base 0 digits := by
  induction count with
  | zero => rfl
  | succ count ih =>
    have hzero : appendDigit? base 0 '0' = some 0 := by
      rw [appendDigit?, show digitValue? '0' = some 0 by decide]
      simpa using Nat.ne_of_gt (Nat.lt_of_succ_lt hlow)
    simpa [List.replicate_succ, digitsFrom?, hzero] using ih

theorem isDigitOf_of_mem_toDigits (hlow : 1 < base) (hhigh : base ≤ 16) (n : Nat) :
    ∀ c ∈ Nat.toDigits base n, isDigitOf base c = true := by
  refine toDigits_induction hlow (P := fun _ digits => ∀ c ∈ digits, isDigitOf base c = true)
    (fun digit hdigit c hc => ?_) (fun n _ ih c hc => ?_) n
  · rw [List.mem_singleton.1 hc]
    exact isDigitOf_digitChar hdigit hhigh
  · rcases List.mem_append.1 hc with hc | hc
    · exact ih c hc
    · rw [List.mem_singleton.1 hc]
      exact isDigitOf_digitChar (Nat.mod_lt n (by omega)) hhigh

/-- A written number starts with no zero, unless it is the zero. -/
theorem toDigits_leading (hlow : 1 < base) (hhigh : base ≤ 16) (n : Nat) :
    (Nat.toDigits base n).head? = some '0' → Nat.toDigits base n = ['0'] := by
  have hzero : ∀ {digit}, digit < 16 → digit.digitChar = '0' → digit = 0 := by decide
  suffices h : n ≠ 0 → (Nat.toDigits base n).head? ≠ some '0' by
    intro hhead
    by_cases hn : n = 0
    · simp [hn]
    · exact absurd hhead (h hn)
  refine toDigits_induction hlow (P := fun n digits => n ≠ 0 → digits.head? ≠ some '0')
    (fun digit hdigit hne hhead => ?_) (fun n hn ih _ hhead => ?_) n
  · exact hne (hzero (Nat.lt_of_lt_of_le hdigit hhigh) (by simpa using hhead))
  · have hquotient : n / base ≠ 0 := Nat.div_ne_zero_iff.2 ⟨by omega, hn⟩
    obtain ⟨first, rest, hcons⟩ := List.exists_cons_of_ne_nil
      (Nat.toDigits_ne_nil : Nat.toDigits base (n / base) ≠ [])
    rw [hcons] at ih hhead
    exact ih hquotient hhead

end

theorem not_mem_toDigits {c : Char} (hc : c.isDigit = false) (n : Nat) :
    c ∉ Nat.toDigits 10 n := by
  intro hmem
  have hdigit := Nat.isDigit_of_mem_toDigits (by decide) (by decide) hmem
  rw [hc] at hdigit
  cases hdigit

theorem newline_not_mem_toDigits (n : Nat) : '\n' ∉ Nat.toDigits 10 n :=
  not_mem_toDigits rfl n

theorem toList_toString_int (n : Int) :
    (toString n).toList = (if n < 0 then ['-'] else []) ++ Nat.toDigits 10 n.natAbs := by
  cases n with
  | ofNat m =>
    have hpositive : ¬Int.ofNat m < 0 := Int.not_lt.2 (Int.natCast_nonneg m)
    rw [if_neg hpositive]
    exact Nat.toList_repr
  | negSucc m =>
    rw [if_pos (Int.negSucc_lt_zero m)]
    exact (String.toList_append ..).trans (congrArg _ Nat.toList_repr)

end ProtoExtensions
