/-!
Blank characters and trimming. A character is blank when it has the `White_Space` property of the
Unicode standard; the zero-width space and the byte order mark do not have it. Trimming removes
blanks at the start of a text, at its end, or at both.
-/

namespace ProtoExtensions

/-- The ranges of the `White_Space` property. -/
def blankRanges : List (Nat × Nat) :=
  [(0x09, 0x0D), (0x20, 0x20), (0x85, 0x85), (0xA0, 0xA0), (0x1680, 0x1680), (0x2000, 0x200A),
   (0x2028, 0x2029), (0x202F, 0x202F), (0x205F, 0x205F), (0x3000, 0x3000)]

/-- Whether a character is blank. -/
def isBlank (c : Char) : Bool :=
  blankRanges.any fun (first, last) => first ≤ c.toNat && c.toNat ≤ last

/-- A text without the blanks it starts with. -/
def trimStart (text : List Char) : List Char :=
  text.dropWhile isBlank

/-- A text without the blanks it ends with. -/
def trimEnd (text : List Char) : List Char :=
  (text.reverse.dropWhile isBlank).reverse

/-- A text without the blanks at either end. -/
def trim (text : List Char) : List Char :=
  trimEnd (trimStart text)

@[simp] theorem trimStart_nil : trimStart [] = [] := rfl

@[simp] theorem trimEnd_nil : trimEnd [] = [] := rfl

@[simp] theorem trim_nil : trim [] = [] := rfl

theorem trimStart_eq_self {text : List Char} (h : ∀ c ∈ text.head?, isBlank c = false) :
    trimStart text = text := by
  cases text with
  | nil => rfl
  | cons c rest => simp [trimStart, h c (by simp)]

theorem trimEnd_eq_self {text : List Char} (h : ∀ c ∈ text.getLast?, isBlank c = false) :
    trimEnd text = text := by
  have : trimStart text.reverse = text.reverse :=
    trimStart_eq_self (by simpa [List.head?_reverse] using h)
  simpa [trimEnd, trimStart] using congrArg List.reverse this

theorem suffix_trimStart (text : List Char) : trimStart text <:+ text :=
  List.dropWhile_suffix isBlank

theorem prefix_trimEnd (text : List Char) : trimEnd text <+: text := by
  have : trimStart text.reverse <:+ text.reverse := suffix_trimStart _
  simpa [trimEnd, trimStart] using List.reverse_prefix.2 this

theorem mem_of_mem_trim {text : List Char} {c : Char} (h : c ∈ trim text) : c ∈ text :=
  (suffix_trimStart text).mem ((prefix_trimEnd _).mem h)

theorem isBlank_of_mem_head?_trimStart {text : List Char} {c : Char}
    (h : c ∈ (trimStart text).head?) : isBlank c = false := by
  induction text with
  | nil => simp at h
  | cons first rest ih =>
    by_cases hfirst : isBlank first
    · exact ih (by simpa [trimStart, hfirst] using h)
    · obtain rfl : first = c := by simpa [trimStart, hfirst] using h
      simpa using hfirst

theorem isBlank_of_mem_head?_trim {text : List Char} {c : Char} (h : c ∈ (trim text).head?) :
    isBlank c = false := by
  obtain ⟨rest, hrest⟩ := prefix_trimEnd (trimStart text)
  have hhead : c ∈ (trimStart text).head? := by
    rw [trim, Option.mem_def] at h
    rw [← hrest, List.head?_append, h]
    rfl
  exact isBlank_of_mem_head?_trimStart hhead

theorem isBlank_of_mem_getLast?_trim {text : List Char} {c : Char}
    (h : c ∈ (trim text).getLast?) : isBlank c = false := by
  have hhead : c ∈ (trimStart (trimStart text).reverse).head? := by
    simpa [trim, trimEnd, trimStart] using h
  exact isBlank_of_mem_head?_trimStart hhead

theorem trimStart_append {before : List Char} (h : ∀ c ∈ before, isBlank c = true)
    (text : List Char) : trimStart (before ++ text) = trimStart text :=
  List.dropWhile_append_of_pos h

theorem trimEnd_append {after : List Char} (h : ∀ c ∈ after, isBlank c = true)
    (text : List Char) : trimEnd (text ++ after) = trimEnd text := by
  have hreverse : ∀ c ∈ after.reverse, isBlank c = true := fun c hc => h c (List.mem_reverse.1 hc)
  rw [trimEnd, List.reverse_append, List.dropWhile_append_of_pos hreverse]
  rfl

/-- A text without blanks at its ends is what is left of it between blanks. -/
theorem trim_append_append {before text after : List Char}
    (hbefore : ∀ c ∈ before, isBlank c = true) (hafter : ∀ c ∈ after, isBlank c = true)
    (hhead : ∀ c ∈ text.head?, isBlank c = false) (hlast : ∀ c ∈ text.getLast?, isBlank c = false) :
    trim (before ++ text ++ after) = text := by
  cases text with
  | nil =>
    rw [trim, List.append_nil, trimStart_append hbefore]
    exact trimEnd_append (fun c hc => hafter c ((suffix_trimStart after).mem hc)) []
  | cons c rest =>
    rw [trim, List.append_assoc, trimStart_append hbefore, trimStart_eq_self (by simpa using hhead),
      trimEnd_append hafter, trimEnd_eq_self hlast]

theorem trim_eq_self {text : List Char} (h : ∀ c ∈ text, isBlank c = false) : trim text = text := by
  rw [trim, trimStart_eq_self fun c hc => h c (List.mem_of_mem_head? hc),
    trimEnd_eq_self fun c hc => h c (List.mem_of_mem_getLast? hc)]

/-- What trimming takes away at the ends is blank. -/
theorem exists_blanks_append_trim (text : List Char) :
    ∃ before after, (∀ c ∈ before, isBlank c = true) ∧ (∀ c ∈ after, isBlank c = true) ∧
      text = before ++ trim text ++ after := by
  refine ⟨text.takeWhile isBlank, ((trimStart text).reverse.takeWhile isBlank).reverse,
    List.all_eq_true.1 List.all_takeWhile, fun c hc => ?_, ?_⟩
  · exact List.all_eq_true.1 List.all_takeWhile c (List.mem_reverse.1 hc)
  · rw [trim, trimEnd, List.append_assoc, ← List.reverse_append, List.takeWhile_append_dropWhile,
      List.reverse_reverse, trimStart, List.takeWhile_append_dropWhile]

end ProtoExtensions
