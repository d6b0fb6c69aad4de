import Mathlib.Data.List.Infix
import ProtoExtensions.Proofs.Template

/-!
How written text is laid out. A text that ends its last line, written at the start of a line, is
added with the indentation in front of each line that is not empty, and leaves the printer at the
start of a line (`Printer.writeText_afterLines`). So what a sequence of such pieces adds is put
together from what each of them adds (`Printer.Adds`): of all that is written before a piece, only
the level shows in it. A piece goes so and so many levels further in; it prints its lines wherever a
printer holds these levels (`Printer.PrintsLines`).
-/

namespace ProtoExtensions

/-- A text with an indentation in front of each line that is not empty. -/
def indented (indentation : List Char) (text : String) : String :=
  String.ofList (joinWith '\n' ((split '\n' text.toList).map (indentLine indentation)))

/-- Whether the last line of a text is ended. -/
def EndsLine (text : String) : Prop :=
  ∃ lines, text.toList = lines ++ ['\n']

theorem EndsLine.append_left {text : String} (h : EndsLine text) (before : String) :
    EndsLine (before ++ text) := by
  obtain ⟨lines, hlines⟩ := h
  exact ⟨before.toList ++ lines, by rw [String.toList_append, hlines, List.append_assoc]⟩

theorem endsLine_of_getLast? {text : String} (h : text.toList.getLast? = some '\n') :
    EndsLine text := by
  obtain ⟨lines, hlines⟩ := List.getLast?_eq_some_iff.1 h
  exact ⟨lines, hlines⟩

theorem endsLine_append {a b : String} (h : b.toList.getLast? = some '\n') : EndsLine (a ++ b) :=
  (endsLine_of_getLast? h).append_left a

/-! ## Indented texts -/

@[simp] theorem indented_nil (text : String) : indented [] text = text := by
  have hline : indentLine [] = id := by
    funext line
    by_cases h : line = [] <;> simp [indentLine, h]
  rw [indented, hline, List.map_id, joinWith_split, String.ofList_toList]

theorem toList_indented_append (indentation : List Char) {a : String} {lines : List Char}
    (ha : a.toList = lines ++ ['\n']) (b : String) :
    (indented indentation (a ++ b)).toList =
      joinWith '\n' ((split '\n' lines).map (indentLine indentation)) ++
        '\n' :: (indented indentation b).toList := by
  have hsplit : split '\n' (a ++ b).toList = split '\n' lines ++ split '\n' b.toList := by
    rw [String.toList_append, ha, List.append_assoc, List.singleton_append, split_append]
  rw [indented, String.toList_ofList, hsplit, List.map_append,
    joinWith_append _ (by simp [split_ne_nil]) (by simp [split_ne_nil]), indented,
    String.toList_ofList]

theorem toList_indented_lines (indentation : List Char) {a : String} {lines : List Char}
    (ha : a.toList = lines ++ ['\n']) :
    (indented indentation a).toList =
      joinWith '\n' ((split '\n' lines).map (indentLine indentation)) ++ ['\n'] := by
  have hempty : (indented indentation "").toList = [] := by
    simp [indented, split, indentLine, joinWith]
  have hlines := toList_indented_append indentation ha ""
  rwa [String.append_empty, hempty] at hlines

theorem EndsLine.indented {a : String} (ha : EndsLine a) (indentation : List Char) :
    EndsLine (indented indentation a) := by
  obtain ⟨lines, hlines⟩ := ha
  exact ⟨_, toList_indented_lines indentation hlines⟩

/-- Texts behind one another are indented one by one where a line ends between them. -/
theorem indented_append (indentation : List Char) {a : String} (ha : EndsLine a) (b : String) :
    indented indentation (a ++ b) = indented indentation a ++ indented indentation b := by
  obtain ⟨lines, hlines⟩ := ha
  rw [← String.toList_inj, String.toList_append, toList_indented_append indentation hlines,
    toList_indented_lines indentation hlines, List.append_assoc, List.singleton_append]

theorem indented_line (indentation : List Char) {line : String} (h : '\n' ∉ line.toList)
    (hline : line.toList ≠ []) :
    indented indentation (line ++ "\n") = String.ofList indentation ++ line ++ "\n" := by
  have hlines : (line ++ "\n").toList = line.toList ++ ['\n'] := String.toList_append
  rw [← String.toList_inj, toList_indented_lines indentation hlines, split_of_not_mem h]
  simp [joinWith, indentLine, hline]

theorem indented_join (indentation : List Char) {texts : List String}
    (h : ∀ text ∈ texts, EndsLine text) :
    indented indentation (String.join texts) = String.join (texts.map (indented indentation)) := by
  induction texts with
  | nil => simp [String.join, indented, split, indentLine, joinWith]
  | cons text texts ih =>
    rw [String.join_cons, indented_append indentation (h text (by simp)), List.map_cons,
      String.join_cons, ih fun other hother => h other (List.mem_cons_of_mem _ hother)]

theorem indentLine_indentLine (a b line : List Char) :
    indentLine a (indentLine b line) = indentLine (a ++ b) line := by
  by_cases hline : line = []
  · simp [indentLine, hline]
  · have hinner : b ++ line ≠ [] := by simp [hline]
    rw [indentLine, indentLine, if_neg hline, if_neg hinner, indentLine, if_neg hline,
      List.append_assoc]

/-- A text that is indented twice stands behind both indentations. -/
theorem indented_indented (a : List Char) {b : List Char} (hb : '\n' ∉ b) (text : String) :
    indented a (indented b text) = indented (a ++ b) text := by
  have hlines : ∀ line ∈ (split '\n' text.toList).map (indentLine b), '\n' ∉ line := by
    intro line hline
    obtain ⟨inner, hinner, rfl⟩ := List.mem_map.1 hline
    by_cases hempty : inner = []
    · simp [indentLine, hempty]
    · rw [indentLine, if_neg hempty, List.mem_append, not_or]
      exact ⟨hb, not_mem_of_mem_split hinner⟩
  have htwice : indentLine a ∘ indentLine b = indentLine (a ++ b) :=
    funext fun line => indentLine_indentLine a b line
  rw [indented, indented, String.toList_ofList, split_joinWith (by simp [split_ne_nil]) hlines,
    List.map_map, htwice, indented]

/-! ## Parts of texts -/

/-- Whether one text is part of another. -/
def StandsIn (piece text : String) : Prop :=
  ∃ before after, text = before ++ piece ++ after

theorem StandsIn.refl (piece : String) : StandsIn piece piece :=
  ⟨"", "", by rw [String.empty_append, String.append_empty]⟩

theorem StandsIn.append_left {piece text : String} (h : StandsIn piece text) (front : String) :
    StandsIn piece (front ++ text) := by
  obtain ⟨before, after, rfl⟩ := h
  exact ⟨front ++ before, after, by simp only [String.append_assoc]⟩

theorem StandsIn.append_right {piece text : String} (h : StandsIn piece text) (back : String) :
    StandsIn piece (text ++ back) := by
  obtain ⟨before, after, rfl⟩ := h
  exact ⟨before, after ++ back, by simp only [String.append_assoc]⟩

theorem standsIn_iff {piece text : String} :
    StandsIn piece text ↔ piece.toList <:+: text.toList := by
  constructor
  · rintro ⟨before, after, rfl⟩
    exact ⟨before.toList, after.toList, by simp only [String.toList_append]⟩
  · rintro ⟨before, after, h⟩
    refine ⟨String.ofList before, String.ofList after, ?_⟩
    rw [← String.toList_inj, String.toList_append, String.toList_append, String.toList_ofList,
      String.toList_ofList, h]

instance (piece text : String) : Decidable (StandsIn piece text) :=
  decidable_of_iff _ standsIn_iff.symm

theorem StandsIn.trans {piece text whole : String} (h : StandsIn piece text)
    (hwhole : StandsIn text whole) : StandsIn piece whole := by
  obtain ⟨before, after, rfl⟩ := hwhole
  exact (h.append_left before).append_right after

theorem standsIn_join_map {α : Type} {items : List α} {item : α} (h : item ∈ items)
    (text : α → String) : StandsIn (text item) (String.join (items.map text)) := by
  obtain ⟨earlier, later, rfl⟩ := List.append_of_mem h
  rw [List.map_append, List.map_cons, String.join_append, String.join_cons]
  exact ((StandsIn.refl _).append_right _).append_left _

/-! ## Whole lines -/

namespace Printer

/-- The printer with some text at the start of a line. -/
def afterLines (printer : Printer) (text : String) : Printer :=
  { printer with text := text, atLineStart := true }

@[simp] theorem outdent_afterLines (printer : Printer) (text : String) :
    (printer.afterLines text).outdent = printer.outdent.afterLines text := rfl

/-- Writing whole lines gives the start of a line again. -/
theorem writeText_afterLines {printer : Printer} (h : printer.Fits) (before : String)
    {text : String} (hend : EndsLine text) :
    (printer.afterLines before).writeText text.toList =
      .ok (printer.afterLines (before ++ indented printer.indentation text)) := by
  obtain ⟨lines, hlines⟩ := hend
  have hfits : (printer.afterLines before).Fits := h
  obtain ⟨start, hwritten⟩ := writeText_of_fits hfits lines
  have hadded : (printer.afterLines before).added lines =
      joinWith '\n' ((split '\n' lines).map (indentLine printer.indentation)) := by
    obtain ⟨line, rest, hsplit⟩ := List.exists_cons_of_ne_nil (split_ne_nil '\n' lines)
    rw [added, hsplit]
    rfl
  rw [hlines, writeText_append]
  refine bind_eq_ok_iff.2 ⟨_, hwritten, ?_⟩
  rw [writeText_newline_cons, writeText_nil, hadded]
  simp [newline, afterLines, ← String.toList_inj, toList_indented_lines _ hlines]

theorem indentation_deeper {printer : Printer} (h : printer.level.toNat < maxWord) :
    printer.deeper.indentation = printer.indentation ++ printer.style.indentation 1 := by
  rw [indentation, toNat_level_deeper h]
  exact printer.style.indentation_succ printer.level.toNat

/-! ## Pieces that add whole lines -/

/-- A piece of code that adds a text of whole lines: it starts and ends at the start of a line, on
the level and in the style of two given printers. -/
def Adds (piece : Printer → Except Stopped Printer) (start finish : Printer) (text : String) :
    Prop :=
  ∀ before, piece (start.afterLines before) = .ok (finish.afterLines (before ++ text))

section Adds

variable {first second : Printer → Except Stopped Printer} {start middle finish : Printer}
  {a b : String}

theorem Adds.bind (hfirst : Adds first start middle a) (hsecond : Adds second middle finish b) :
    Adds (fun p => first p >>= second) start finish (a ++ b) := by
  intro before
  refine bind_eq_ok_iff.2 ⟨_, hfirst before, ?_⟩
  rw [hsecond, String.append_assoc]

theorem Adds.ok (printer : Printer) : Adds Except.ok printer printer "" := by
  intro before
  rw [String.append_empty]

/-- A piece that runs one level further in. -/
theorem Adds.after_indent (h : Adds first start.deeper finish a)
    (hlevel : start.level.toNat < maxWord) :
    Adds (fun p => p.indent >>= first) start finish a := by
  intro before
  have hafter : (start.afterLines before).level.toNat < maxWord := hlevel
  exact bind_eq_ok_iff.2 ⟨_, indent_of_lt hafter, h before⟩

theorem Adds.after_outdent (h : Adds first start finish a) (hlevel : start.level.toNat < maxWord) :
    Adds (fun p => first p.outdent) start.deeper finish a := by
  intro before
  have hback := h before
  rwa [← outdent_deeper hlevel, ← outdent_afterLines] at hback

theorem Adds.ite_bind {choice : Prop} [Decidable choice]
    {yes no : Printer → Except Stopped Printer} {c : String} (hyes : Adds yes start middle a)
    (hno : Adds no start middle b) (hsecond : Adds second middle finish c) :
    Adds (fun p => if choice then yes p >>= second else no p >>= second) start finish
      ((if choice then a else b) ++ c) := by
  by_cases h : choice
  · simpa only [if_pos h] using hyes.bind hsecond
  · simpa only [if_neg h] using hno.bind hsecond

/-- Pieces that run one after the other add their texts in this order. -/
theorem Adds.foldlM {α : Type} {piece : α → Printer → Except Stopped Printer} {text : α → String}
    (h : ∀ item, Adds (piece item) start start (text item)) (items : List α) :
    Adds (fun p => items.foldlM (fun p item => piece item p) p) start start
      (String.join (items.map text)) := by
  induction items with
  | nil => exact Adds.ok start
  | cons item items ih =>
    rw [List.map_cons, String.join_cons]
    simp only [List.foldlM_cons]
    exact (h item).bind ih

end Adds

/-- A piece of code that prints whole lines, which depend on the style alone: wherever a line starts
and the levels that the piece goes further in are held, it adds them behind the indentation. -/
def PrintsLines (piece : Printer → Except Stopped Printer) (depth : Nat)
    (lines : IndentStyle → String) : Prop :=
  ∀ printer : Printer, printer.style.Holds (printer.level.toNat + depth) →
    Adds piece printer printer (indented printer.indentation (lines printer.style))

/-- What a piece of code prints on a fresh printer. -/
def rendered (piece : Printer → Except Stopped Printer) (style : IndentStyle := .standard) :
    Except Stopped String :=
  (piece { style := style }).map text

theorem PrintsLines.of_writeText {piece : Printer → Except Stopped Printer} {text : String}
    (hend : EndsLine text)
    (h : ∀ printer : Printer, piece printer = printer.writeText text.toList) :
    PrintsLines piece 0 fun _ => text :=
  fun _ hholds before => by rw [h, writeText_afterLines hholds.2 before hend]

theorem PrintsLines.print {template text : String} {chars : List Char}
    {bindings : List (String × String)} (hend : EndsLine text) (ht : template.toList = chars)
    (h : (Template.pieces? bindings (split '$' chars)).map Template.joined = some text) :
    PrintsLines (fun p => p.print template bindings) 0 fun _ => text :=
  .of_writeText hend (print_eq_writeText ht h)

theorem PrintsLines.print_of_not_mem {template : String} (hend : EndsLine template)
    (h : '$' ∉ template.toList) :
    PrintsLines (fun p => p.print template) 0 fun _ => template :=
  .of_writeText hend (Printer.print_of_not_mem h [])

/-- On the outermost level the lines are added as they are. -/
theorem PrintsLines.adds_fresh {piece : Printer → Except Stopped Printer} {depth : Nat}
    {lines : IndentStyle → String} (h : PrintsLines piece depth lines) {style : IndentStyle}
    (hholds : style.Holds depth) : Adds piece { style := style } { style := style }
      (lines style) := by
  have hlevel : ({ style := style } : Printer).level.toNat + depth = depth := Nat.zero_add depth
  have hindentation : ({ style := style } : Printer).indentation = [] := style.indentation_zero
  have hlines := h { style := style } (by rwa [hlevel])
  rwa [hindentation, indented_nil] at hlines

theorem Adds.rendered_eq {piece : Printer → Except Stopped Printer} {style : IndentStyle}
    {finish : Printer} {text : String} (h : Adds piece { style := style } finish text) :
    rendered piece style = .ok text := by
  have hfresh : ({ style := style } : Printer) = afterLines { style := style } "" := rfl
  rw [rendered, hfresh, h, String.empty_append]
  rfl

theorem PrintsLines.rendered_eq {piece : Printer → Except Stopped Printer} {depth : Nat}
    {lines : IndentStyle → String} (h : PrintsLines piece depth lines) {style : IndentStyle}
    (hholds : style.Holds depth) : rendered piece style = .ok (lines style) :=
  (h.adds_fresh hholds).rendered_eq

end Printer

end ProtoExtensions
