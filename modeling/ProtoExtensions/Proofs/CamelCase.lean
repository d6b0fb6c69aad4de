import Mathlib
import ProtoExtensions.Naming.ClassName

/-!
What camel case makes of a name. Although it carries a flag along the name, each letter or digit is
spelled by its place alone, by what stands right before it (`camelCase_followsLocalRule`). Camel
case leaves ASCII letters and digits only, so no underscore and no slash, and nothing at all exactly
of a name that has neither letters nor digits. Its two forms differ in the first character, and it
does not change its capitalized form.
-/

namespace ProtoExtensions

/-! ## Letter by letter -/

theorem isAlphanum_toUpper (c : Char) : c.toUpper.isAlphanum = c.isAlphanum := by
  by_cases hlower : c.isLower = true
  · have hletter : c.isAlpha = true := by simp [Char.isAlpha, hlower]
    simp [Char.isAlphanum, hletter]
  · rw [Char.toUpper_eq_of_not_isLower hlower]

theorem isAlphanum_toLower (c : Char) : c.toLower.isAlphanum = c.isAlphanum := by
  rw [← isAlphanum_toUpper, Char.toUpper_toLower_eq_toUpper, isAlphanum_toUpper]

/-- Behind the first character, a letter or digit is kept, and raised where no letter is before it.
A capital and a digit are their own capitals. -/
theorem camelTail_cons (raise : Bool) (c : Char) (rest : List Char) :
    camelTail raise (c :: rest) =
      (if c.isAlphanum then [if raise then c.toUpper else c] else []) ++
        camelTail (!c.isAlpha) rest := by
  rw [camelTail]
  by_cases hlower : c.isLower = true
  · simp [Char.isAlphanum, Char.isAlpha, hlower]
  · have hself : c.toUpper = c := Char.toUpper_eq_of_not_isLower hlower
    by_cases hupper : c.isUpper = true
    · simp [Char.isAlphanum, Char.isAlpha, hlower, hupper, hself]
    · by_cases hdigit : c.isDigit = true <;>
        simp [Char.isAlphanum, Char.isAlpha, hlower, hupper, hdigit, hself]

theorem camelChars_cons (capital : Bool) (c : Char) (rest : List Char) :
    camelChars capital (c :: rest) =
      (if c.isAlphanum then [if capital then c.toUpper else c.toLower] else []) ++
        camelTail (!c.isAlpha) rest := by
  rw [camelChars]
  cases capital with
  | true => simp [camelTail_cons]
  | false =>
    by_cases hupper : c.isUpper = true
    · simp [Char.isAlphanum, Char.isAlpha, hupper]
    · simp [camelTail_cons, hupper, Char.toLower_eq_of_not_isUpper hupper]

/-! ## What is left of a name -/

theorem isAlphanum_of_mem_camelTail {raise : Bool} {text : List Char} {c : Char}
    (h : c ∈ camelTail raise text) : c.isAlphanum = true := by
  induction text generalizing raise with
  | nil => simp [camelTail] at h
  | cons first rest ih =>
    rw [camelTail_cons, List.mem_append] at h
    rcases h with h | h
    · by_cases hkept : first.isAlphanum = true
      · rw [if_pos hkept, List.mem_singleton] at h
        cases raise <;> simp [h, hkept, isAlphanum_toUpper]
      · simp [hkept] at h
    · exact ih h

theorem isAlphanum_of_mem_camelCase {name : String} {capital : Bool} {c : Char}
    (h : c ∈ (camelCase name capital).toList) : c.isAlphanum = true := by
  rw [camelCase, String.toList_ofList] at h
  cases hname : name.toList with
  | nil => simp [hname, camelChars] at h
  | cons first rest =>
    rw [hname, camelChars_cons, List.mem_append] at h
    rcases h with h | h
    · by_cases hkept : first.isAlphanum = true
      · rw [if_pos hkept, List.mem_singleton] at h
        cases capital <;> simp [h, hkept, isAlphanum_toUpper, isAlphanum_toLower]
      · simp [hkept] at h
    · exact isAlphanum_of_mem_camelTail h

theorem ProtoFile.isAlphanum_of_mem_inferredOuterClass {file : ProtoFile} {c : Char}
    (h : c ∈ file.inferredOuterClass.toList) : c.isAlphanum = true := by
  have hsuffix := List.all_eq_true.1 (show "OuterClass".toList.all Char.isAlphanum = true by decide)
  unfold inferredOuterClass at h
  simp only at h
  split at h
  · rw [String.toList_append, List.mem_append] at h
    exact h.elim isAlphanum_of_mem_camelCase (hsuffix c)
  · exact isAlphanum_of_mem_camelCase h

theorem camelTail_eq_nil_iff {raise : Bool} {text : List Char} :
    camelTail raise text = [] ↔ ∀ c ∈ text, c.isAlphanum = false := by
  induction text generalizing raise with
  | nil => simp [camelTail]
  | cons c rest ih => simp [camelTail_cons, ih]

/-- Nothing is left of a name exactly if it has no ASCII letter and no digit. -/
theorem camelCase_eq_empty_iff {name : String} {capital : Bool} :
    camelCase name capital = "" ↔ ∀ c ∈ name.toList, c.isAlphanum = false := by
  rw [camelCase, ← String.toList_inj, String.toList_ofList]
  cases name.toList with
  | nil => simp [camelChars]
  | cons c rest => simp [camelChars_cons, camelTail_eq_nil_iff]

/-! ## The local rule -/

/-- Whether a letter at a position of a text starts a word: the character right before it is no
letter, or it is the first character, where the first word is to be capitalized. -/
def startsWord (capital : Bool) (text : List Char) : Nat → Bool
  | 0 => capital
  | i + 1 => text[i]?.any fun before => !before.isAlpha

/-- How camel case spells the letter or digit at a position of a text: a lower-case letter is raised
where it starts a word, and an upper-case letter is lowered where it is the first character and the
first word is not to be capitalized. -/
def spelledAt (capital : Bool) (text : List Char) (i : Nat) (c : Char) : Char :=
  if c.isLower && startsWord capital text i then c.toUpper
  else if c.isUpper && i == 0 && !capital then c.toLower
  else c

/-- Behind the first character, camel case follows the rule. -/
theorem camelTail_eq_map (capital : Bool) {before : List Char} (hbefore : before ≠ [])
    (text : List Char) :
    camelTail (startsWord capital (before ++ text) before.length) text =
      ((text.zipIdx before.length).filter fun kept => kept.1.isAlphanum).map fun kept =>
        spelledAt capital (before ++ text) kept.2 kept.1 := by
  induction text generalizing before with
  | nil => rfl
  | cons c rest ih =>
    have hnext : startsWord capital (before ++ c :: rest) (before.length + 1) = !c.isAlpha := by
      simp [startsWord]
    have hlonger : before ++ [c] ≠ [] := by simp
    have hrest := ih hlonger
    rw [List.append_assoc, List.singleton_append, List.length_append, List.length_singleton,
      hnext] at hrest
    have hspelled : spelledAt capital (before ++ c :: rest) before.length c =
        if startsWord capital (before ++ c :: rest) before.length then c.toUpper else c := by
      have hlength : before.length ≠ 0 := by simpa using hbefore
      by_cases hlower : c.isLower = true
      · simp [spelledAt, hlower, hlength]
      · simp [spelledAt, hlower, hlength, Char.toUpper_eq_of_not_isLower hlower]
    rw [camelTail_cons, hrest, List.zipIdx_cons]
    by_cases hkept : c.isAlphanum = true
    · simp [hkept, hspelled]
    · simp [hkept]

theorem camelChars_eq_map (capital : Bool) (text : List Char) :
    camelChars capital text = (text.zipIdx.filter fun kept => kept.1.isAlphanum).map fun kept =>
      spelledAt capital text kept.2 kept.1 := by
  cases text with
  | nil => rfl
  | cons c rest =>
    have hnext : startsWord capital ([c] ++ rest) [c].length = !c.isAlpha := by
      simp [startsWord]
    have hrest := camelTail_eq_map capital (List.cons_ne_nil c []) rest
    rw [hnext] at hrest
    have hspelled : spelledAt capital (c :: rest) 0 c =
        if capital then c.toUpper else c.toLower := by
      by_cases hlower : c.isLower = true
      · have hupper := Char.not_isUpper_of_isLower hlower
        cases capital <;>
          simp [spelledAt, startsWord, hlower, hupper, Char.toLower_eq_of_not_isUpper hupper]
      · by_cases hupper : c.isUpper = true <;> cases capital <;>
          simp [spelledAt, hlower, hupper, Char.toUpper_eq_of_not_isLower hlower,
            Char.toLower_eq_of_not_isUpper]
    rw [camelChars_cons, hrest, List.zipIdx_cons]
    by_cases hkept : c.isAlphanum = true
    · simp [hkept, hspelled]
    · simp [hkept]

/-! ## The two spellings of a name -/

theorem capitals_of_isAlphanum {c : Char} (h : c.isAlphanum = true) : capitals c = [c.toUpper] := by
  refine capitals_of_ascii ?_
  simp only [Char.isAlphanum, Char.isAlpha, Char.isUpper, Char.isLower, Char.isDigit,
    Bool.or_eq_true, Bool.and_eq_true, decide_eq_true_eq, UInt32.le_iff_toNat_le, ge_iff_le,
    UInt32.reduceToNat, Char.reduceVal] at h
  have hcode : c.toNat = c.val.toNat := rfl
  omega

/-- A word that starts with a capital or a digit is not changed by capitalizing it. -/
theorem capitalize_camelTail (text : List Char) :
    capitalize (camelTail true text) = camelTail true text := by
  induction text with
  | nil => rfl
  | cons c rest ih =>
    rw [camelTail_cons]
    by_cases hkept : c.isAlphanum = true
    · have hraised : c.toUpper.isAlphanum = true := (isAlphanum_toUpper c).trans hkept
      simp [hkept, capitalize, capitals_of_isAlphanum hraised]
    · have hletter : c.isAlpha = false := by simp_all [Char.isAlphanum]
      simpa [hkept, hletter] using ih

theorem capitalize_camelChars (text : List Char) :
    capitalize (camelChars false text) = camelChars true text := by
  cases text with
  | nil => rfl
  | cons c rest =>
    rw [camelChars_cons, camelChars_cons]
    by_cases hkept : c.isAlphanum = true
    · have hlowered : c.toLower.isAlphanum = true := (isAlphanum_toLower c).trans hkept
      simp [hkept, capitalize, capitals_of_isAlphanum hlowered]
    · have hletter : c.isAlpha = false := by simp_all [Char.isAlphanum]
      simpa [hkept, hletter] using capitalize_camelTail rest

/-- Camel case is camel case of itself, where the first word is not raised now and was not then. -/
theorem camelTail_camelTail {raise again : Bool} (h : again = true → raise = true)
    (text : List Char) : camelTail again (camelTail raise text) = camelTail raise text := by
  induction text generalizing raise again with
  | nil => rfl
  | cons c rest ih =>
    rw [camelTail_cons raise]
    by_cases hkept : c.isAlphanum = true
    · have hrest : camelTail (!c.isAlpha) (camelTail (!c.isAlpha) rest) =
          camelTail (!c.isAlpha) rest := ih id
      -- a letter that is not raised now may have been raised before, and then stays so
      cases raise with
      | true =>
        have hraised : c.toUpper.isAlphanum = true := (isAlphanum_toUpper c).trans hkept
        simp [hkept, camelTail_cons again, hraised, hrest]
      | false =>
        obtain rfl : again = false := by simpa using h
        simp [hkept, camelTail_cons false, hrest]
    · have hletter : c.isAlpha = false := by simp_all [Char.isAlphanum]
      have hrest : camelTail again (camelTail true rest) = camelTail true rest := ih fun _ => rfl
      simpa [hkept, hletter] using hrest

theorem toList_camelCase_true (name : String) :
    (camelCase name true).toList = capitalize (camelCase name false).toList := by
  rw [camelCase, camelCase, String.toList_ofList, String.toList_ofList, capitalize_camelChars]

theorem camelCase_camelCase (name : String) :
    camelCase (camelCase name true) true = camelCase name true := by
  have hcamel (text : List Char) : camelChars true text = camelTail true text := by
    cases text <;> simp [camelChars, camelTail]
  rw [camelCase, camelCase, String.toList_ofList, hcamel, hcamel, camelTail_camelTail id]

/-- **Camel case is a local rule.** It consists of the ASCII letters and digits of the name in their
order, each spelled by what stands right before it: a lower-case letter is raised behind anything
that is not a letter, and the first character is raised or lowered as asked. So the capitalized form
of a name is the other form with its first character in upper case, and camel case leaves it as it
is; in particular this holds of the capitalized name of a field. -/
theorem camelCase_followsLocalRule (name : String) :
    (∀ capital, camelCase name capital =
      String.ofList ((name.toList.zipIdx.filter fun kept => kept.1.isAlphanum).map fun kept =>
        spelledAt capital name.toList kept.2 kept.1)) ∧
    (camelCase name true).toList = capitalize (camelCase name false).toList ∧
    camelCase (camelCase name true) true = camelCase name true ∧
    ∀ field : ExtensionField,
      field.javaName.toList = capitalize (camelCase field.name false).toList ∧
      camelCase field.javaName true = field.javaName := by
  refine ⟨fun capital => ?_, toList_camelCase_true name, camelCase_camelCase name,
    fun field => ⟨toList_camelCase_true field.name, camelCase_camelCase field.name⟩⟩
  rw [camelCase, camelChars_eq_map]

end ProtoExtensions
