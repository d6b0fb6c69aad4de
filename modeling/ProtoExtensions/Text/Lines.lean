/-!
Cutting a text apart. `split` cuts at every occurrence of a separator and keeps the empty pieces;
joining the pieces again with the separator gives the text back. `lines` cuts a text into physical
lines: a line ends at a line feed, a carriage return just before the line feed belongs to the line
end, and a text that ends with a line feed has no empty line after it.
-/

namespace ProtoExtensions

/-- The pieces of a text between the occurrences of a separator. -/
def split (separator : Char) : List Char → List (List Char)
  | [] => [[]]
  | c :: rest =>
    if c = separator then [] :: split separator rest
    else match split separator rest with
      | [] => [[c]]
      | piece :: pieces => (c :: piece) :: pieces

/-- What stands before the first separator of a text, and what stands behind it. -/
def cutAt? (separator : Char) : List Char → Option (List Char × List Char)
  | [] => none
  | c :: rest =>
    if c = separator then some ([], rest)
    else (cutAt? separator rest).map fun (before, after) => (c :: before, after)

/-- Pieces put together with a separator between each two. -/
def joinWith (separator : Char) : List (List Char) → List Char
  | [] => []
  | [piece] => piece
  | piece :: pieces => piece ++ separator :: joinWith separator pieces

/-- The physical lines of a text. -/
def lines : List Char → List (List Char)
  | [] => []
  | '\r' :: '\n' :: rest => [] :: lines rest
  | '\n' :: rest => [] :: lines rest
  | c :: rest =>
    match lines rest with
    | [] => [[c]]
    | line :: more => (c :: line) :: more

theorem eq_append_of_cutAt?_eq_some {separator : Char} {text before after : List Char}
    (h : cutAt? separator text = some (before, after)) :
    text = before ++ separator :: after ∧ separator ∉ before := by
  induction text generalizing before after with
  | nil => cases h
  | cons c rest ih =>
    rw [cutAt?] at h
    split at h
    · next hc =>
      cases h
      exact ⟨by rw [hc, List.nil_append], by simp⟩
    · next hc =>
      obtain ⟨⟨inner, back⟩, hinner, heq⟩ := Option.map_eq_some_iff.1 h
      obtain ⟨rfl, rfl⟩ := Prod.mk.inj heq
      obtain ⟨rfl, hmem⟩ := ih hinner
      exact ⟨rfl, by simp [Ne.symm hc, hmem]⟩

theorem length_lt_of_cutAt?_eq_some {separator : Char} {text before after : List Char}
    (h : cutAt? separator text = some (before, after)) : after.length < text.length := by
  rw [(eq_append_of_cutAt?_eq_some h).1, List.length_append, List.length_cons]
  omega

theorem cutAt?_eq_none_iff {separator : Char} {text : List Char} :
    cutAt? separator text = none ↔ separator ∉ text := by
  induction text with
  | nil => simp [cutAt?]
  | cons c rest ih =>
    rw [cutAt?, List.mem_cons, not_or, ← ih]
    by_cases hc : c = separator
    · simp [hc]
    · simp [hc, Ne.symm hc]

theorem cutAt?_append {separator : Char} {before : List Char} (h : separator ∉ before)
    (after : List Char) :
    cutAt? separator (before ++ separator :: after) = some (before, after) := by
  induction before with
  | nil => simp [cutAt?]
  | cons c rest ih =>
    simp only [List.mem_cons, not_or] at h
    simp [cutAt?, Ne.symm h.1, ih h.2]

theorem split_ne_nil (separator : Char) (text : List Char) : split separator text ≠ [] := by
  cases text with
  | nil => simp [split]
  | cons c rest =>
    rw [split]
    split
    · simp
    · split <;> simp

theorem joinWith_cons_cons (separator : Char) (c : Char) (piece : List Char)
    (pieces : List (List Char)) :
    joinWith separator ((c :: piece) :: pieces) = c :: joinWith separator (piece :: pieces) := by
  cases pieces <;> simp [joinWith]

theorem joinWith_split (separator : Char) (text : List Char) :
    joinWith separator (split separator text) = text := by
  induction text with
  | nil => rfl
  | cons c rest ih =>
    rw [split]
    have hne := split_ne_nil separator rest
    cases hs : split separator rest with
    | nil => exact absurd hs hne
    | cons piece pieces =>
      rw [hs] at ih
      by_cases hc : c = separator
      · simp [hc, joinWith, ih]
      · simp [hc, joinWith_cons_cons, ih]

theorem joinWith_cons_of_ne_nil (separator : Char) (piece : List Char) {pieces : List (List Char)}
    (h : pieces ≠ []) :
    joinWith separator (piece :: pieces) = piece ++ separator :: joinWith separator pieces := by
  cases pieces with
  | nil => exact absurd rfl h
  | cons next rest => rfl

theorem joinWith_cons_eq_append_flatMap (separator : Char) (piece : List Char)
    (pieces : List (List Char)) :
    joinWith separator (piece :: pieces) = piece ++ pieces.flatMap (separator :: ·) := by
  induction pieces generalizing piece with
  | nil => simp [joinWith]
  | cons next rest ih =>
    rw [joinWith_cons_of_ne_nil separator piece (List.cons_ne_nil next rest), ih]
    rfl

theorem joinWith_append (separator : Char) {a b : List (List Char)} (ha : a ≠ []) (hb : b ≠ []) :
    joinWith separator (a ++ b) = joinWith separator a ++ separator :: joinWith separator b := by
  induction a with
  | nil => exact absurd rfl ha
  | cons piece pieces ih =>
    cases pieces with
    | nil => exact joinWith_cons_of_ne_nil separator piece hb
    | cons next rest =>
      have hrest : next :: rest ≠ [] := List.cons_ne_nil _ _
      have hmore : next :: rest ++ b ≠ [] := List.cons_ne_nil _ _
      rw [List.cons_append, joinWith_cons_of_ne_nil separator piece hmore, ih hrest,
        joinWith_cons_of_ne_nil separator piece hrest, List.append_assoc, List.cons_append]

/-- A text is cut at a separator in it as its two sides are. -/
theorem split_append (separator : Char) (a b : List Char) :
    split separator (a ++ separator :: b) = split separator a ++ split separator b := by
  induction a with
  | nil => simp [split]
  | cons c rest ih =>
    rw [List.cons_append, split, split, ih]
    by_cases hc : c = separator
    · rw [if_pos hc, if_pos hc, List.cons_append]
    · rw [if_neg hc, if_neg hc]
      cases hs : split separator rest with
      | nil => exact absurd hs (split_ne_nil separator rest)
      | cons piece pieces => rfl

/-- The pieces of one text begin those of another where the other text ends, or has a separator,
just behind the first one. -/
theorem split_prefix_split_iff {separator : Char} {a text : List Char} :
    split separator a <+: split separator text ↔
      text = a ∨ ∃ rest, text = a ++ separator :: rest := by
  constructor
  · rintro ⟨pieces, hpieces⟩
    have htext : text = joinWith separator (split separator a ++ pieces) := by
      rw [hpieces, joinWith_split]
    by_cases hnil : pieces = []
    · rw [hnil, List.append_nil, joinWith_split] at htext
      exact .inl htext
    · rw [joinWith_append separator (split_ne_nil separator a) hnil, joinWith_split] at htext
      exact .inr ⟨_, htext⟩
  · rintro (rfl | ⟨rest, rfl⟩)
    · exact List.prefix_rfl
    · rw [split_append]
      exact List.prefix_append _ _

/-- Joining the pieces with something else puts it in place of the separator. -/
theorem joinWith_split_eq_map (separator other : Char) (text : List Char) :
    joinWith other (split separator text) =
      text.map fun c => if c = separator then other else c := by
  induction text with
  | nil => rfl
  | cons c rest ih =>
    rw [split, List.map_cons, ← ih]
    by_cases hc : c = separator
    · rw [if_pos hc, if_pos hc, joinWith_cons_of_ne_nil other [] (split_ne_nil separator rest)]
      rfl
    · rw [if_neg hc, if_neg hc]
      cases hs : split separator rest with
      | nil => exact absurd hs (split_ne_nil separator rest)
      | cons piece pieces => exact joinWith_cons_cons other c piece pieces

theorem split_of_not_mem {separator : Char} {text : List Char} (h : separator ∉ text) :
    split separator text = [text] := by
  induction text with
  | nil => rfl
  | cons c rest ih =>
    simp only [List.mem_cons, not_or] at h
    rw [split, if_neg (Ne.symm h.1), ih h.2]

theorem split_joinWith {separator : Char} :
    ∀ {pieces : List (List Char)}, pieces ≠ [] → (∀ piece ∈ pieces, separator ∉ piece) →
      split separator (joinWith separator pieces) = pieces
  | [], h, _ => absurd rfl h
  | [piece], _, h => split_of_not_mem (h piece (by simp))
  | piece :: next :: rest, _, h => by
    rw [joinWith_cons_of_ne_nil separator piece (List.cons_ne_nil next rest), split_append,
      split_of_not_mem (h piece (by simp)), split_joinWith (List.cons_ne_nil next rest)
        fun other hother => h other (List.mem_cons_of_mem _ hother)]
    rfl

theorem joinWith_eq_intercalate (separator : Char) :
    ∀ pieces : List (List Char), joinWith separator pieces = [separator].intercalate pieces
  | [] => by simp [joinWith]
  | [piece] => by simp [joinWith]
  | piece :: next :: rest => by
    rw [joinWith_cons_of_ne_nil separator piece (List.cons_ne_nil next rest),
      joinWith_eq_intercalate separator (next :: rest)]
    simp

/-- A text is found again in what is put together from it, a separator, and a text without one. -/
theorem append_separator_inj {separator : Char} {a b m n : List Char} (hm : separator ∉ m)
    (hn : separator ∉ n) : a ++ separator :: m = b ++ separator :: n ↔ a = b ∧ m = n := by
  constructor
  · intro h
    have hsplit := congrArg (split separator) h
    rw [split_append, split_append, split_of_not_mem hm, split_of_not_mem hn] at hsplit
    obtain ⟨hab, hmn⟩ := List.append_inj' hsplit rfl
    refine ⟨?_, List.singleton_inj.1 hmn⟩
    rw [← joinWith_split separator a, hab, joinWith_split]
  · rintro ⟨rfl, rfl⟩
    rfl

theorem not_mem_of_mem_split {separator : Char} {text piece : List Char}
    (h : piece ∈ split separator text) : separator ∉ piece := by
  induction text generalizing piece with
  | nil => simp_all [split]
  | cons c rest ih =>
    rw [split] at h
    cases hs : split separator rest with
    | nil => exact absurd hs (split_ne_nil separator rest)
    | cons first pieces =>
      rw [hs] at h ih
      by_cases hc : c = separator
      · rw [if_pos hc] at h
        rcases List.mem_cons.1 h with rfl | h
        · simp
        · exact ih h
      · rw [if_neg hc] at h
        rcases List.mem_cons.1 h with rfl | h
        · simp [Ne.symm hc, ih (List.mem_cons_self ..)]
        · exact ih (List.mem_cons_of_mem _ h)

theorem mem_of_mem_split {separator c : Char} {text piece : List Char}
    (h : piece ∈ split separator text) (hc : c ∈ piece) : c ∈ text := by
  induction text generalizing piece with
  | nil => simp_all [split]
  | cons first rest ih =>
    rw [split] at h
    cases hs : split separator rest with
    | nil => exact absurd hs (split_ne_nil separator rest)
    | cons next pieces =>
      rw [hs] at h ih
      split at h
      · rcases List.mem_cons.1 h with rfl | h
        · simp at hc
        · exact List.mem_cons_of_mem _ (ih h hc)
      · rcases List.mem_cons.1 h with rfl | h
        · rcases List.mem_cons.1 hc with rfl | hc
          · simp
          · exact List.mem_cons_of_mem _ (ih (List.mem_cons_self ..) hc)
        · exact List.mem_cons_of_mem _ (ih (List.mem_cons_of_mem _ h) hc)

/-- What follows a text without a separator belongs to its last piece. -/
theorem split_append_of_not_mem {separator : Char} {more : List Char} (h : separator ∉ more)
    (text : List Char) :
    ∃ last, split separator (text ++ more) =
      (split separator text).dropLast ++ [last ++ more] := by
  induction text with
  | nil => exact ⟨[], by simp [split, split_of_not_mem h]⟩
  | cons c rest ih =>
    obtain ⟨last, hlast⟩ := ih
    rw [List.cons_append, split, split, hlast]
    cases hs : split separator rest with
    | nil => exact absurd hs (split_ne_nil separator rest)
    | cons next pieces =>
      by_cases hc : c = separator
      · exact ⟨last, by simp [hc]⟩
      · cases pieces with
        | nil => exact ⟨c :: last, by simp [hc]⟩
        | cons _ _ => exact ⟨last, by simp [hc]⟩

theorem lines_append_newline {line : List Char} (h : '\n' ∉ line)
    (hlast : line.getLast? ≠ some '\r') (rest : List Char) :
    lines (line ++ '\n' :: rest) = line :: lines rest := by
  induction line with
  | nil => rfl
  | cons c more ih =>
    simp only [List.mem_cons, not_or] at h
    have hmore : lines (more ++ '\n' :: rest) = more :: lines rest := by
      cases more with
      | nil => rfl
      | cons d others => exact ih h.2 (by simpa using hlast)
    rw [List.cons_append, lines.eq_4, hmore]
    · rintro tail rfl heq
      cases more with
      | nil => simp at hlast
      | cons d others => simp_all
    · rintro rfl
      exact absurd rfl h.1

theorem lines_ne_nil {text : List Char} (h : text ≠ []) : lines text ≠ [] := by
  fun_cases lines text with
  | case1 => exact absurd rfl h
  | case2 rest | case3 rest => exact List.cons_ne_nil _ _
  | case4 c rest | case5 c rest => exact List.cons_ne_nil _ _

/-- A text that ends with a complete line has these lines, whatever follows it. -/
theorem lines_append {text : List Char} (h : ∀ c ∈ text.getLast?, c = '\n') (more : List Char) :
    lines (text ++ more) = lines text ++ lines more := by
  have htail {c : Char} {rest : List Char} (h : ∀ last ∈ (c :: rest).getLast?, last = '\n') :
      ∀ last ∈ rest.getLast?, last = '\n' := by
    intro last hlast
    exact h last (by rw [List.getLast?_cons, Option.mem_def.1 hlast]; rfl)
  fun_induction lines text with
  | case1 => rfl
  | case2 rest ih =>
    have hrest := ih (htail (htail h))
    rw [List.cons_append, List.cons_append, lines.eq_2, hrest, List.cons_append]
  | case3 rest ih =>
    have hrest := ih (htail h)
    rw [List.cons_append, lines.eq_3, hrest, List.cons_append]
  | case4 c rest hreturn hnewline hrest ih =>
    cases rest with
    | nil => exact absurd (h c rfl) hnewline
    | cons next rest => exact absurd hrest (lines_ne_nil (List.cons_ne_nil next rest))
  | case5 c rest hreturn hnewline line others hrest ih =>
    rw [List.cons_append, lines.eq_4, ih (htail h), hrest]
    · rfl
    · rintro tail rfl heq
      cases rest with
      | nil => simp [lines] at hrest
      | cons next rest =>
        obtain ⟨rfl, -⟩ := List.cons.inj heq
        exact hreturn rest rfl rfl
    · exact hnewline

theorem not_mem_of_mem_lines {text line : List Char} (h : line ∈ lines text) : '\n' ∉ line := by
  fun_induction lines text generalizing line with
  | case1 => simp at h
  | case2 rest ih =>
    rcases List.mem_cons.1 h with rfl | h
    · simp
    · exact ih h
  | case3 rest ih =>
    rcases List.mem_cons.1 h with rfl | h
    · simp
    · exact ih h
  | case4 c rest _ hnewline hrest ih =>
    obtain rfl : line = [c] := by simpa using h
    simpa [eq_comm] using hnewline
  | case5 c rest _ hnewline first more hrest ih =>
    rw [hrest] at ih
    rcases List.mem_cons.1 h with rfl | h
    · have := ih (List.mem_cons_self ..)
      simp_all [eq_comm]
    · exact ih (List.mem_cons_of_mem _ h)

end ProtoExtensions
