import ProtoExtensions.Proofs.Template

/-!
Substitution is exact (`Printer.print_substitutes`): printing a template is writing one text, up to
the first dollar sign that opens no variable if there is one, and what writing a text adds is the
text itself with indentations. A text with every dollar sign doubled is a template that stands for
the text (`Template.isFilled_doubled`).
-/

namespace ProtoExtensions

namespace Template

variable {bindings : List (String × String)}

/-! ## Doubled dollar signs -/

/-- A text with every dollar sign written twice. -/
def doubled (chars : List Char) : List Char :=
  chars.flatMap fun c => if c = '$' then ['$', '$'] else [c]

theorem textOf_cons_append (a first : List Char) (rest : List (List Char)) :
    textOf bindings ((a ++ first) :: rest) = a ++ textOf bindings (first :: rest) := by
  simp [textOf, List.mapIdx_cons, segmentText]

/-- With doubled dollar signs, a text is a template that stands for the text. -/
theorem isFilled_doubled (bindings : List (String × String)) (chars : List Char) :
    IsFilled bindings (split '$' (doubled chars)) ∧
      textOf bindings (split '$' (doubled chars)) = chars := by
  induction chars with
  | nil => exact ⟨isFilled_singleton [], rfl⟩
  | cons c rest ih =>
    obtain ⟨hfilled, htext⟩ := ih
    by_cases hc : c = '$'
    · have hsegments : split '$' (doubled (c :: rest)) = [] :: [] :: split '$' (doubled rest) := by
        simp [doubled, split, hc]
      rw [hsegments, textOf_cons_cons, htext, hc]
      exact ⟨isFilled_cons_cons.2 ⟨fun h => absurd rfl h, hfilled⟩, rfl⟩
    · obtain ⟨first, more, hmore⟩ :=
        List.exists_cons_of_ne_nil (split_ne_nil '$' (doubled rest))
      have hsegments : split '$' (doubled (c :: rest)) = ([c] ++ first) :: more := by
        have hdoubled : doubled (c :: rest) = c :: doubled rest := by simp [doubled, hc]
        simp [hdoubled, split, hc, hmore]
      rw [hsegments, textOf_cons_append, ← hmore, htext]
      exact ⟨(hmore ▸ hfilled).replaceFirst _, rfl⟩

end Template

namespace Printer

open Template in
/-- **Substitution is exact.** Cut at its dollar signs, a template whose last segment is text and
whose names all have values is printed as one text: the texts and the first values of the names,
which are not looked at again, and one dollar sign for a variable without a name. Any other template
stops the print at the first dollar sign that opens no variable; what stands in front of it has been
written. So a text with doubled dollar signs prints itself. And writing a text adds it to the text
that is there, with the indentation of the level in front of each line that it starts and that is
not empty; where no string holds that indentation, it adds what comes before the first character
that would stand behind it. -/
theorem print_substitutes (printer : Printer) (template : String)
    (bindings : List (String × String)) :
    (IsFilled bindings (split '$' template.toList) → printer.print template bindings =
      printer.writeText (textOf bindings (split '$' template.toList))) ∧
    (¬IsFilled bindings (split '$' template.toList) →
      ∃ before after fault, template.toList = before ++ '$' :: after ∧
        IsFilled bindings (split '$' before) ∧
        Unfilled template bindings (split '$' after) fault ∧
        printer.print template bindings =
          printer.writeText (textOf bindings (split '$' before)) >>= fun written =>
            .error ⟨.template fault, written⟩) ∧
    (∀ text : String, printer.print (String.ofList (doubled text.toList)) bindings =
      printer.writeText text.toList) ∧
    ∀ chars : List Char,
      (printer.Fits → ∃ after line rest, printer.writeText chars = .ok after ∧
        split '\n' chars = line :: rest ∧
        after.text.toList = printer.text.toList ++
          joinWith '\n' ((if printer.atLineStart then indentLine printer.indentation line
            else line) :: rest.map (indentLine printer.indentation))) ∧
      (¬printer.Fits → (leftBy (printer.writeText chars)).text.toList =
        printer.text.toList ++ beforeIndentation printer.atLineStart chars) := by
  refine ⟨fun h => print_of_isFilled h printer, fun h => ?_, fun text => ?_, fun chars => ⟨?_, ?_⟩⟩
  · obtain ⟨before, after, fault, htemplate, hbefore, hafter⟩ := exists_split_unfilled h
    exact ⟨before, after, fault, htemplate, hbefore, hafter,
      print_of_unfilled htemplate hbefore hafter printer⟩
  · obtain ⟨hfilled, htext⟩ := isFilled_doubled bindings text.toList
    rw [← String.toList_ofList (l := doubled text.toList)] at hfilled htext
    rw [print_of_isFilled hfilled, htext]
  · intro hfits
    obtain ⟨line, rest, hsplit⟩ := List.exists_cons_of_ne_nil (split_ne_nil '\n' chars)
    obtain ⟨start, hwritten⟩ := writeText_of_fits hfits chars
    refine ⟨_, line, rest, hwritten, hsplit, ?_⟩
    rw [String.toList_append, String.toList_ofList, added, hsplit]
    rfl
  · intro hfits
    obtain ⟨start, hleft⟩ := leftBy_writeText_of_not_fits hfits chars
    rw [hleft, String.toList_append, String.toList_ofList]

open Template in
/-- The first value counts, and its dollar signs are plain text; a name without a value stops the
print. -/
theorem print_substitutes_valueWithDollars :
    (∃ after, ({} : Printer).print "$x$ for $$5" [("x", "$y$"), ("x", "z")] = .ok after ∧
      after.text = "$y$ for $5") ∧
    ∃ before after fault, "$x$, $y$".toList = before ++ '$' :: after ∧
      IsFilled [("x", "$y$"), ("x", "z")] (split '$' before) ∧
      Unfilled "$x$, $y$" [("x", "$y$"), ("x", "z")] (split '$' after) fault ∧
      ({} : Printer).print "$x$, $y$" [("x", "$y$"), ("x", "z")] =
        ({} : Printer).writeText (textOf [("x", "$y$"), ("x", "z")] (split '$' before)) >>=
          fun written => .error ⟨.template fault, written⟩ := by
  have hfilled : IsFilled [("x", "$y$"), ("x", "z")] (split '$' "$x$ for $$5".toList) := by decide
  have htext : textOf [("x", "$y$"), ("x", "z")] (split '$' "$x$ for $$5".toList) =
      "$y$ for $5".toList := by decide
  obtain ⟨hprint, -, -, hadded⟩ :=
    print_substitutes {} "$x$ for $$5" [("x", "$y$"), ("x", "z")]
  obtain ⟨after, line, rest, hwritten, hsplit, hafter⟩ :=
    (hadded "$y$ for $5".toList).1 (by decide)
  cases hsplit.symm.trans (split_of_not_mem (by decide))
  refine ⟨⟨after, ?_, ?_⟩, (print_substitutes {} "$x$, $y$" _).2.1 (by decide)⟩
  · rw [hprint hfilled, htext, hwritten]
  · rw [← String.toList_inj, hafter]
    rfl

end Printer

end ProtoExtensions
