import ProtoExtensions.Printer

/-!
What writing a text does. The loop over the lines of a text takes the text character by character
(`Printer.writeText_cons`), so a text can be written in parts (`Printer.writeText_append`). Where
the indentation of the level fits into a string, writing adds the text with the indentation in front
of each line that it starts and that is not empty (`Printer.writeText_of_fits`). Where it does not
fit, writing stops at the first character that would stand behind it, and what comes before that
character has been written (`Printer.leftBy_writeText_of_not_fits`).
-/

namespace ProtoExtensions

theorem bind_eq_ok_iff {x : Except ε α} {f : α → Except ε β} {b : β} :
    (x >>= f) = .ok b ↔ ∃ a, x = .ok a ∧ f a = .ok b := by
  cases x <;> simp [bind, Except.bind]

theorem map_eq_ok_iff {x : Except ε α} {f : α → β} {b : β} :
    x.map f = .ok b ↔ ∃ a, x = .ok a ∧ f a = b := by
  cases x <;> simp [Except.map]

/-! ## Indentations -/

/-- A line behind an indentation. An empty line stays empty. -/
def indentLine (indentation line : List Char) : List Char :=
  if line = [] then [] else indentation ++ line

namespace IndentStyle

/-- The indentation of a level. -/
def indentation (style : IndentStyle) (level : Nat) : List Char :=
  List.replicate (level * style.width) style.mark

/-- Whether the indentation of a level fits into a string. -/
def Fits (style : IndentStyle) (level : Nat) : Prop :=
  level * style.width ≤ maxCapacity

/-- Whether there is a level, and its indentation fits into a string. -/
def Holds (style : IndentStyle) (level : Nat) : Prop :=
  level ≤ maxWord ∧ style.Fits level

instance (style : IndentStyle) (level : Nat) : Decidable (style.Fits level) :=
  inferInstanceAs (Decidable (_ ≤ _))

instance (style : IndentStyle) (level : Nat) : Decidable (style.Holds level) :=
  inferInstanceAs (Decidable (_ ∧ _))

variable {style : IndentStyle} {level other : Nat}

theorem Fits.mono (h : style.Fits level) (hle : other ≤ level) : style.Fits other :=
  Nat.le_trans (Nat.mul_le_mul_right style.width hle) h

theorem Holds.mono (h : style.Holds level) (hle : other ≤ level) : style.Holds other :=
  ⟨Nat.le_trans hle h.1, h.2.mono hle⟩

theorem holds_zero (style : IndentStyle) : style.Holds 0 :=
  ⟨Nat.zero_le _, by simp [Fits]⟩

@[simp] theorem indentation_zero (style : IndentStyle) : style.indentation 0 = [] := by
  simp [indentation]

theorem indentation_succ (style : IndentStyle) (level : Nat) :
    style.indentation (level + 1) = style.indentation level ++ style.indentation 1 := by
  rw [indentation, Nat.succ_mul, ← List.replicate_append_replicate, indentation, indentation,
    Nat.one_mul]

theorem newline_not_mem_indentation (style : IndentStyle) (level : Nat) :
    '\n' ∉ style.indentation level := by
  cases style <;> simp [indentation, mark, List.mem_replicate]

/-- The style with the longest indentation that can be asked for. -/
def widest : IndentStyle := .spaces 0xFFFFFFFFFFFFFFFF

end IndentStyle

namespace Printer

variable {printer : Printer}

/-- The indentation of the current level. -/
def indentation (printer : Printer) : List Char :=
  printer.style.indentation printer.level.toNat

/-- Whether the indentation of the current level fits into a string. -/
def Fits (printer : Printer) : Prop :=
  printer.style.Fits printer.level.toNat

instance (printer : Printer) : Decidable printer.Fits :=
  inferInstanceAs (Decidable (printer.style.Fits _))

theorem indentString_of_fits (h : printer.Fits) :
    printer.indentString = .ok (String.ofList printer.indentation) := by
  have hcapacity : ¬ maxCapacity < printer.level.toNat * printer.style.width := Nat.not_lt.2 h
  have hword : ¬ maxWord < printer.level.toNat * printer.style.width :=
    Nat.not_lt.2 (Nat.le_trans h (by decide))
  simp only [indentString, if_neg hword, if_neg hcapacity]
  rfl

theorem indentString_of_not_fits (h : ¬printer.Fits) :
    ∃ overflow, printer.indentString = .error overflow := by
  have hcapacity : maxCapacity < printer.level.toNat * printer.style.width := Nat.lt_of_not_le h
  by_cases hword : maxWord < printer.level.toNat * printer.style.width
  · exact ⟨.length, by simp only [indentString, if_pos hword]⟩
  · exact ⟨.capacity, by simp only [indentString, if_neg hword, if_pos hcapacity]⟩

/-! ## Levels -/

/-- The printer one level further in. -/
def deeper (printer : Printer) : Printer :=
  { printer with level := printer.level + 1 }

theorem toNat_level_deeper {printer : Printer} (h : printer.level.toNat < maxWord) :
    printer.deeper.level.toNat = printer.level.toNat + 1 := by
  have hword : printer.level.toNat + 1 < 2 ^ 64 := Nat.lt_of_le_of_lt h (by decide)
  simp only [deeper, UInt64.toNat_add, UInt64.toNat_one]
  exact Nat.mod_eq_of_lt hword

theorem indent_of_lt {printer : Printer} (h : printer.level.toNat < maxWord) :
    printer.indent = .ok printer.deeper := by
  rw [indent, if_neg (Nat.ne_of_lt h), deeper]

theorem outdent_deeper {printer : Printer} (h : printer.level.toNat < maxWord) :
    printer.deeper.outdent = printer := by
  have hlevel : printer.deeper.level ≠ 0 := by
    intro hzero
    have := toNat_level_deeper h
    simp [hzero] at this
  have hback : printer.level + 1 - 1 = printer.level := by simp
  simp only [outdent, if_neg hlevel]
  simp only [deeper, hback]

theorem toNat_level_outdent (printer : Printer) :
    printer.outdent.level.toNat = printer.level.toNat - 1 := by
  by_cases hzero : printer.level = 0
  · simp [outdent, hzero]
  · have hpositive : (1 : UInt64) ≤ printer.level := by
      rw [UInt64.le_iff_toNat_le, UInt64.toNat_one, Nat.one_le_iff_ne_zero]
      exact fun h => hzero (UInt64.toNat_inj.1 h)
    simp only [outdent, if_neg hzero]
    exact UInt64.toNat_sub_of_le _ _ hpositive

theorem toNat_level_outdent_le (printer : Printer) :
    printer.outdent.level.toNat ≤ printer.level.toNat := by
  rw [toNat_level_outdent]
  exact Nat.sub_le _ _

/-- The printer that a call leaves behind, whether it stops or not. -/
def leftBy : Except Stopped Printer → Printer
  | .ok after => after
  | .error stopped => stopped.printer

theorem writeLine_append (printer : Printer) (a b : List Char) :
    printer.writeLine (a ++ b) = printer.writeLine a >>= (·.writeLine b) := by
  by_cases ha : a = []
  · subst ha
    rfl
  have hempty (line : List Char) (h : line ≠ []) : line.isEmpty = false := by simpa using h
  have hab : a ++ b ≠ [] := by simp [ha]
  unfold writeLine
  rw [hempty a ha, hempty _ hab]
  cases printer.atLineStart with
  | true =>
    cases hindent : printer.indentString with
    | error overflow => simp [bind, Except.bind]
    | ok indentation =>
      by_cases hb : b = []
      · simp [hb, bind, Except.bind]
      · simp [hb, bind, Except.bind, String.append_assoc]
  | false =>
    by_cases hb : b = []
    · simp [hb, bind, Except.bind]
    · simp [hb, bind, Except.bind, String.append_assoc]

/-- What writing one character of a line does: it stops where an indentation that does not fit would
stand in front of the character. -/
theorem writeLine_singleton_cases (printer : Printer) (c : Char) :
    ((printer.Fits ∨ printer.atLineStart = false) ∧ printer.writeLine [c] = .ok { printer with
      text := printer.text ++
        String.ofList (if printer.atLineStart then printer.indentation else []) ++
        String.ofList [c]
      atLineStart := false }) ∨
    (¬printer.Fits ∧ printer.atLineStart = true ∧
      ∃ overflow, printer.writeLine [c] = .error ⟨.overflow overflow, printer⟩) := by
  cases hstart : printer.atLineStart with
  | false => exact .inl ⟨.inr rfl, by simp [writeLine, hstart]⟩
  | true =>
    by_cases h : printer.Fits
    · exact .inl ⟨.inl h, by simp [writeLine, hstart, indentString_of_fits h]⟩
    · obtain ⟨overflow, hindent⟩ := indentString_of_not_fits h
      exact .inr ⟨h, rfl, overflow, by simp [writeLine, hstart, hindent]⟩

@[simp] theorem writeText_nil (printer : Printer) : printer.writeText [] = .ok printer := rfl

theorem writeText_newline_cons (printer : Printer) (rest : List Char) :
    printer.writeText ('\n' :: rest) = printer.newline.writeText rest := by
  obtain ⟨line, more, hsplit⟩ := List.exists_cons_of_ne_nil (split_ne_nil '\n' rest)
  have hcons : split '\n' ('\n' :: rest) = [] :: line :: more := by simp [split, hsplit]
  rw [writeText, hcons, writeText, hsplit]
  rfl

theorem writeText_cons (printer : Printer) {c : Char} (hc : c ≠ '\n') (rest : List Char) :
    printer.writeText (c :: rest) = printer.writeLine [c] >>= (·.writeText rest) := by
  obtain ⟨line, more, hsplit⟩ := List.exists_cons_of_ne_nil (split_ne_nil '\n' rest)
  have hcons : split '\n' (c :: rest) = ([c] ++ line) :: more := by simp [split, hsplit, hc]
  simp only [writeText, hcons, hsplit, writeLine_append]
  exact bind_assoc _ _ _

/-- **A text can be written in parts.** -/
theorem writeText_append (printer : Printer) (a b : List Char) :
    printer.writeText (a ++ b) = printer.writeText a >>= (·.writeText b) := by
  induction a generalizing printer with
  | nil => rfl
  | cons c rest ih =>
    rw [List.cons_append]
    by_cases hc : c = '\n'
    · subst hc
      rw [writeText_newline_cons, writeText_newline_cons, ih]
    · rw [writeText_cons printer hc, writeText_cons printer hc, bind_assoc]
      exact bind_congr fun next => ih next

/-! ## What writing adds -/

/-- What a line adds that goes on where the printer stands. -/
def addedLine (printer : Printer) (line : List Char) : List Char :=
  if printer.atLineStart then indentLine printer.indentation line else line

/-- What a text adds: the indentation stands in front of each line that it starts and that is not
empty. -/
def added (printer : Printer) (chars : List Char) : List Char :=
  match split '\n' chars with
  | [] => []
  | line :: rest =>
    joinWith '\n' (printer.addedLine line :: rest.map (indentLine printer.indentation))

theorem writeLine_of_fits (h : printer.Fits) (line : List Char) :
    printer.writeLine line = .ok { printer with
      text := printer.text ++ String.ofList (printer.addedLine line)
      atLineStart := printer.atLineStart && line.isEmpty } := by
  by_cases hline : line = []
  · simp [writeLine, addedLine, indentLine, hline]
  · cases hstart : printer.atLineStart <;>
      simp [writeLine, addedLine, indentLine, hline, hstart, indentString_of_fits h,
        String.append_assoc]

theorem writeLines_of_fits (h : printer.Fits) (lines : List (List Char)) :
    ∃ start, printer.writeLines lines = .ok { printer with
      text := printer.text ++
        String.ofList ((lines.map (indentLine printer.indentation)).flatMap ('\n' :: ·))
      atLineStart := start } := by
  induction lines generalizing printer with
  | nil => exact ⟨printer.atLineStart, by simp [writeLines]⟩
  | cons line rest ih =>
    have hline := @writeLine_of_fits printer.newline h line
    obtain ⟨start, hrest⟩ := @ih { printer.newline with
      text := printer.newline.text ++ String.ofList (printer.newline.addedLine line)
      atLineStart := printer.newline.atLineStart && line.isEmpty } h
    refine ⟨start, bind_eq_ok_iff.2 ⟨_, hline, hrest.trans ?_⟩⟩
    simp [newline, addedLine, indentation, ← String.toList_inj]

/-- **Writing adds the text**, where the indentation fits. -/
theorem writeText_of_fits (h : printer.Fits) (chars : List Char) :
    ∃ start, printer.writeText chars = .ok { printer with
      text := printer.text ++ String.ofList (printer.added chars), atLineStart := start } := by
  obtain ⟨line, more, hsplit⟩ := List.exists_cons_of_ne_nil (split_ne_nil '\n' chars)
  obtain ⟨start, hmore⟩ := @writeLines_of_fits { printer with
    text := printer.text ++ String.ofList (printer.addedLine line)
    atLineStart := printer.atLineStart && line.isEmpty } h more
  refine ⟨start, ?_⟩
  simp only [writeText, hsplit, added, joinWith_cons_eq_append_flatMap]
  refine bind_eq_ok_iff.2 ⟨_, writeLine_of_fits h line, hmore.trans ?_⟩
  simp [indentation, ← String.toList_inj]

/-- Whether a printer comes from another one by writing: it is in the same style and on the same
level, and has more text. -/
structure GoesOn (printer after : Printer) : Prop where
  style : after.style = printer.style
  level : after.level = printer.level
  text : printer.text.toList <+: after.text.toList

theorem GoesOn.fits {after : Printer} (h : printer.GoesOn after) (hfits : printer.Fits) :
    after.Fits := by
  rwa [Fits, h.style, h.level]

theorem GoesOn.trans {next after : Printer} (h : printer.GoesOn next) (hnext : next.GoesOn after) :
    printer.GoesOn after :=
  ⟨hnext.style.trans h.style, hnext.level.trans h.level, h.text.trans hnext.text⟩

theorem exists_writeText (h : printer.Fits) (chars : List Char) :
    ∃ after, printer.writeText chars = .ok after ∧ printer.GoesOn after := by
  obtain ⟨start, hwritten⟩ := writeText_of_fits h chars
  refine ⟨_, hwritten, rfl, rfl, ?_⟩
  rw [String.toList_append]
  exact List.prefix_append _ _

/-- A line is written in one piece, behind the indentation if it starts there. -/
theorem suffix_text_of_writeText_line (h : printer.Fits) {line : List Char} (hline : '\n' ∉ line)
    {after : Printer} (hafter : printer.writeText (line ++ ['\n']) = .ok after) :
    line ++ ['\n'] <:+ after.text.toList := by
  have hsplit : split '\n' (line ++ ['\n']) = [line, []] := by
    rw [split_append, split_of_not_mem hline]
    rfl
  have hadded : line ++ ['\n'] <:+ printer.added (line ++ ['\n']) := by
    rw [added, hsplit]
    refine List.suffix_append_self_iff.2 ?_
    unfold addedLine indentLine
    split
    · split
      · next hempty => exact hempty ▸ List.suffix_rfl
      · exact List.suffix_append _ _
    · exact List.suffix_rfl
  obtain ⟨start, hwritten⟩ := writeText_of_fits h (line ++ ['\n'])
  cases hwritten.symm.trans hafter
  rw [String.toList_append, String.toList_ofList]
  exact hadded.trans (List.suffix_append _ _)

/-! ## What writing leaves behind -/

/-- What comes before the first character that stands behind an indentation, if the text starts a
line or goes on with one. -/
def beforeIndentation : Bool → List Char → List Char
  | _, [] => []
  | start, c :: rest =>
    if c = '\n' then c :: beforeIndentation true rest
    else if start then []
    else c :: beforeIndentation false rest

theorem leftBy_writeText_of_not_fits (h : ¬printer.Fits) (chars : List Char) :
    ∃ start, leftBy (printer.writeText chars) = { printer with
      text := printer.text ++ String.ofList (beforeIndentation printer.atLineStart chars)
      atLineStart := start } := by
  induction chars generalizing printer with
  | nil => exact ⟨printer.atLineStart, by simp [leftBy, beforeIndentation]⟩
  | cons c rest ih =>
    by_cases hc : c = '\n'
    · subst hc
      obtain ⟨start, hrest⟩ := @ih printer.newline h
      refine ⟨start, ?_⟩
      rw [writeText_newline_cons, hrest]
      simp [newline, beforeIndentation, ← String.toList_inj]
    · rw [writeText_cons printer hc]
      rcases printer.writeLine_singleton_cases c with ⟨hgoes, hline⟩ | ⟨-, hstart, overflow, hline⟩
      · have hstart : printer.atLineStart = false := hgoes.resolve_left h
        obtain ⟨start, hrest⟩ := @ih { printer with
          text := printer.text ++ String.ofList [c], atLineStart := false } h
        refine ⟨start, ?_⟩
        rw [hline, hstart, if_neg Bool.false_ne_true, String.ofList_nil, String.append_empty]
        refine hrest.trans ?_
        simp [beforeIndentation, hc, ← String.toList_inj]
      · refine ⟨printer.atLineStart, ?_⟩
        have hnothing : String.ofList (beforeIndentation printer.atLineStart (c :: rest)) = "" := by
          simp [beforeIndentation, hc, hstart]
        rw [hline, hnothing, String.append_empty]
        rfl

/-- In the widest style no string holds the indentation of the first level. -/
theorem writeLine_widest (hstyle : printer.style = .widest) (hlevel : printer.level = 1)
    (hstart : printer.atLineStart = true) (c : Char) :
    printer.writeLine [c] = .error ⟨.overflow .capacity, printer⟩ := by
  have hindent : printer.indentString = .error .capacity := by
    rw [indentString, hstyle, hlevel]
    rfl
  simp [writeLine, hstart, hindent]

/-! ## What writing stops at -/

/-- Whether nothing but an overflow can stop a call. -/
def OnlyOverflows (result : Except Stopped α) : Prop :=
  ∀ stopped, result = .error stopped → ∃ overflow, stopped.fault = .overflow overflow

theorem OnlyOverflows.ok (a : α) : OnlyOverflows (.ok a) :=
  fun _ h => nomatch h

theorem OnlyOverflows.bind {result : Except Stopped α} {next : α → Except Stopped β}
    (hresult : OnlyOverflows result) (hnext : ∀ a, OnlyOverflows (next a)) :
    OnlyOverflows (result >>= next) := by
  intro stopped h
  cases result with
  | ok a => exact hnext a stopped h
  | error first =>
    cases h
    exact hresult stopped rfl

theorem onlyOverflows_indent (printer : Printer) : OnlyOverflows printer.indent := by
  intro stopped h
  unfold indent at h
  split at h
  · cases h
    exact ⟨.level, rfl⟩
  · cases h

theorem onlyOverflows_writeText (printer : Printer) (chars : List Char) :
    OnlyOverflows (printer.writeText chars) := by
  induction chars generalizing printer with
  | nil => exact .ok printer
  | cons c rest ih =>
    by_cases hc : c = '\n'
    · subst hc
      rw [writeText_newline_cons]
      exact ih printer.newline
    · rw [writeText_cons printer hc]
      refine .bind (fun stopped hstopped => ?_) ih
      rcases printer.writeLine_singleton_cases c with ⟨-, hline⟩ | ⟨-, -, overflow, hline⟩
      · cases hline.symm.trans hstopped
      · cases hline.symm.trans hstopped
        exact ⟨overflow, rfl⟩

end Printer

end ProtoExtensions
