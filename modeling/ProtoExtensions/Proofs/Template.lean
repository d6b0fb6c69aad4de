import ProtoExtensions.Proofs.Writing

/-!
What printing a template does. A template is cut at its dollar signs into segments: text at the even
places, variables at the odd ones. If the last segment is text and all names have values, printing
the template is writing one text (`Printer.print_of_isFilled`), put together from the texts and the
values (`Printer.print_eq_writeText`). Otherwise printing stops at the first dollar sign that opens
no variable, after what stands in front of it has been written (`Printer.print_of_unfilled`).
-/

namespace ProtoExtensions

/-- A text put together from two has the characters of both. With `String.toList_ofList` this gives
the characters of a template that is written in several literals. -/
theorem toList_append_of {a b : String} {l m : List Char} (ha : a.toList = l) (hb : b.toList = m) :
    (a ++ b).toList = l ++ m := by
  rw [String.toList_append, ha, hb]

/-- A literal is put together from two when its characters are. -/
theorem eq_append_of {text a b : String} {l m : List Char} (ha : a = String.ofList l)
    (hb : b = String.ofList m) (htext : text = String.ofList (l ++ m)) : text = a ++ b := by
  rw [htext, ha, hb, String.ofList_append]

namespace Template

/-- What a segment of a template stands for. At even places there is text. A segment at an odd place
stands between two dollar signs: it is a name, for which its first value is written, or empty, for
which one dollar sign is written. -/
def segmentText (bindings : List (String × String)) (place : Nat) (segment : List Char) :
    List Char :=
  if place % 2 = 0 then segment
  else if segment = [] then ['$']
  else match bindings.find? (·.1 = String.ofList segment) with
    | some (_, value) => value.toList
    | none => []

/-- The text that the segments of a template stand for. -/
def textOf (bindings : List (String × String)) (segments : List (List Char)) : List Char :=
  (segments.mapIdx (segmentText bindings)).flatten

/-- Whether the segments of a template all stand for some text: the last one is at an even place,
and every name at an odd place has a value. -/
structure IsFilled (bindings : List (String × String)) (segments : List (List Char)) : Prop where
  closed : segments.length % 2 = 1
  bound : ∀ place (h : place < segments.length), place % 2 = 1 → segments[place] ≠ [] →
    String.ofList segments[place] ∈ bindings.map Prod.fst

instance (bindings : List (String × String)) (segments : List (List Char)) :
    Decidable (IsFilled bindings segments) :=
  decidable_of_iff (segments.length % 2 = 1 ∧
      ∀ place (h : place < segments.length), place % 2 = 1 → segments[place] ≠ [] →
        String.ofList segments[place] ∈ bindings.map Prod.fst)
    ⟨fun ⟨closed, bound⟩ => ⟨closed, bound⟩, fun ⟨closed, bound⟩ => ⟨closed, bound⟩⟩

/-- Why a dollar sign opens no variable, judged by the segments behind it: there is no second dollar
sign, or the name in front of it has no value. -/
inductive Unfilled (template : String) (bindings : List (String × String)) :
    List (List Char) → TemplateFault → Prop where
  | unterminated {name : List Char} : Unfilled template bindings [name] (.unterminated template)
  | unbound {name next : List Char} {rest : List (List Char)} (hname : name ≠ [])
      (hbound : String.ofList name ∉ bindings.map Prod.fst) :
      Unfilled template bindings (name :: next :: rest) (.unbound (String.ofList name))

/-! ## Two segments at a time -/

variable {bindings : List (String × String)}

theorem segmentText_add_two (bindings : List (String × String)) :
    (fun place => segmentText bindings (place + 1 + 1)) = segmentText bindings := by
  funext place segment
  simp [segmentText, Nat.add_assoc]

@[simp] theorem textOf_nil : textOf bindings [] = [] := rfl

@[simp] theorem textOf_singleton (chars : List Char) : textOf bindings [chars] = chars := by
  simp [textOf, segmentText]

theorem textOf_cons_cons (chars name : List Char) (rest : List (List Char)) :
    textOf bindings (chars :: name :: rest) =
      chars ++ (segmentText bindings 1 name ++ textOf bindings rest) := by
  simp only [textOf, List.mapIdx_cons, List.flatten_cons, segmentText_add_two]
  simp [segmentText]

theorem isFilled_singleton (chars : List Char) : IsFilled bindings [chars] where
  closed := rfl
  bound place hplace hodd := by
    obtain rfl : place = 0 := Nat.lt_one_iff.1 hplace
    cases hodd

theorem not_isFilled_pair (chars name : List Char) : ¬IsFilled bindings [chars, name] :=
  fun h => absurd h.closed (by simp)

theorem isFilled_cons_cons {chars name : List Char} {rest : List (List Char)} :
    IsFilled bindings (chars :: name :: rest) ↔
      (name ≠ [] → String.ofList name ∈ bindings.map Prod.fst) ∧ IsFilled bindings rest := by
  have hlength : (chars :: name :: rest).length = rest.length + 2 := rfl
  constructor
  · rintro ⟨hclosed, hbound⟩
    refine ⟨hbound 1 (by omega) rfl, by omega, fun place hplace hodd => ?_⟩
    exact hbound (place + 2) (by omega) (by omega)
  · rintro ⟨hname, hclosed, hbound⟩
    refine ⟨by omega, fun place hplace hodd => ?_⟩
    match place with
    | 0 => cases hodd
    | 1 => exact hname
    | place + 2 => exact hbound place (by omega) (by omega)

/-- The first segment may be any text. -/
theorem IsFilled.replaceFirst {first : List Char} {rest : List (List Char)}
    (h : IsFilled bindings (first :: rest)) (other : List Char) :
    IsFilled bindings (other :: rest) := by
  refine ⟨h.closed, fun place hplace hodd => ?_⟩
  cases place with
  | zero => cases hodd
  | succ place => exact h.bound (place + 1) hplace hodd

/-- Segments that do not all stand for some text are filled up to a dollar sign that opens no
variable. -/
theorem exists_unfilled (template : String) :
    ∀ {segments : List (List Char)}, segments ≠ [] → ¬IsFilled bindings segments →
      ∃ before after fault, segments = before ++ after ∧ IsFilled bindings before ∧
        Unfilled template bindings after fault
  | [], hne, _ => absurd rfl hne
  | [chars], _, h => absurd (isFilled_singleton chars) h
  | [chars, name], _, _ => ⟨[chars], [name], _, rfl, isFilled_singleton chars, .unterminated⟩
  | chars :: name :: next :: rest, _, h => by
    by_cases hname : name ≠ [] → String.ofList name ∈ bindings.map Prod.fst
    · have hmore : ¬IsFilled bindings (next :: rest) :=
        fun hmore => h (isFilled_cons_cons.2 ⟨hname, hmore⟩)
      obtain ⟨before, after, fault, hsegments, hbefore, hafter⟩ :=
        exists_unfilled template (List.cons_ne_nil next rest) hmore
      exact ⟨chars :: name :: before, after, fault, by rw [hsegments]; rfl,
        isFilled_cons_cons.2 ⟨hname, hbefore⟩, hafter⟩
    · obtain ⟨hne, hbound⟩ := Classical.not_imp.1 hname
      exact ⟨[chars], name :: next :: rest, _, rfl, isFilled_singleton chars,
        .unbound hne hbound⟩

theorem Unfilled.ne_nil {template : String} {after : List (List Char)} {fault : TemplateFault}
    (h : Unfilled template bindings after fault) : after ≠ [] := by
  cases h <;> exact List.cons_ne_nil _ _

theorem IsFilled.ne_nil {segments : List (List Char)} (h : IsFilled bindings segments) :
    segments ≠ [] := by
  rintro rfl
  cases h.closed

theorem exists_split_unfilled {template : String}
    (h : ¬IsFilled bindings (split '$' template.toList)) :
    ∃ before after fault, template.toList = before ++ '$' :: after ∧
      IsFilled bindings (split '$' before) ∧
      Unfilled template bindings (split '$' after) fault := by
  have hne := split_ne_nil '$' template.toList
  obtain ⟨before, after, fault, hsegments, hbefore, hafter⟩ := exists_unfilled template hne h
  have hplain : ∀ segment ∈ before ++ after, '$' ∉ segment :=
    fun segment hsegment => not_mem_of_mem_split (hsegments ▸ hsegment)
  have hbeforeSplit := split_joinWith hbefore.ne_nil
    fun segment hsegment => hplain segment (List.mem_append_left _ hsegment)
  have hafterSplit := split_joinWith hafter.ne_nil
    fun segment hsegment => hplain segment (List.mem_append_right _ hsegment)
  refine ⟨joinWith '$' before, joinWith '$' after, fault, ?_, by rwa [hbeforeSplit],
    by rwa [hafterSplit]⟩
  rw [← joinWith_append '$' hbefore.ne_nil hafter.ne_nil, ← hsegments, joinWith_split]

end Template

/-! ## Printing the segments -/

namespace Printer

open Template

variable {template : String} {bindings : List (String × String)}

theorem lookup_eq_find? (name : String) :
    bindings.lookup name = (bindings.find? (·.1 = name)).map Prod.snd := by
  induction bindings with
  | nil => rfl
  | cons binding rest ih =>
    obtain ⟨key, value⟩ := binding
    by_cases hkey : key = name
    · simp [hkey]
    · have hname : (name == key) = false := by simpa using Ne.symm hkey
      simp [List.lookup_cons, hname, hkey, ih]

theorem writeVariable_of_mem {name : List Char}
    (h : name ≠ [] → String.ofList name ∈ bindings.map Prod.fst) (printer : Printer) :
    printer.writeVariable bindings name = printer.writeText (segmentText bindings 1 name) := by
  cases name with
  | nil => rfl
  | cons c rest =>
    obtain ⟨binding, hmem, hkey⟩ := List.mem_map.1 (h (List.cons_ne_nil c rest))
    have hfound : (bindings.find? (·.1 = String.ofList (c :: rest))).isSome := by
      rw [List.find?_isSome]
      exact ⟨binding, hmem, by simpa using hkey⟩
    obtain ⟨found, hfind⟩ := Option.isSome_iff_exists.1 hfound
    simp only [writeVariable, lookup_eq_find?, segmentText, hfind]
    rfl

theorem writeVariable_of_not_mem {name : List Char} (hname : name ≠ [])
    (h : String.ofList name ∉ bindings.map Prod.fst) (printer : Printer) :
    printer.writeVariable bindings name =
      .error ⟨.template (.unbound (String.ofList name)), printer⟩ := by
  have hfind : bindings.find? (·.1 = String.ofList name) = none := by
    rw [List.find?_eq_none]
    intro binding hmem hkey
    exact h (List.mem_map.2 ⟨binding, hmem, by simpa using hkey⟩)
  cases name with
  | nil => exact absurd rfl hname
  | cons c rest =>
    simp only [writeVariable, lookup_eq_find?, hfind]
    rfl

theorem printFrom_of_not_mem {rest : List Char} (h : '$' ∉ rest) (printer : Printer) :
    printFrom template bindings printer rest = printer.writeText rest := by
  rw [printFrom]
  split
  · rfl
  · next hcut => cases (cutAt?_eq_none_iff.2 h).symm.trans hcut

theorem printFrom_unterminated {before name : List Char} (hbefore : '$' ∉ before)
    (hname : '$' ∉ name) (printer : Printer) :
    printFrom template bindings printer (before ++ '$' :: name) =
      printer.writeText before >>= fun written =>
        .error ⟨.template (.unterminated template), written⟩ := by
  rw [printFrom]
  split
  · next hcut => cases (cutAt?_append hbefore name).symm.trans hcut
  · next hcut =>
    cases (cutAt?_append hbefore name).symm.trans hcut
    refine bind_congr fun written => ?_
    split
    · rfl
    · next hcut => cases (cutAt?_eq_none_iff.2 hname).symm.trans hcut

theorem printFrom_variable {before name : List Char} (hbefore : '$' ∉ before)
    (hname : '$' ∉ name) (more : List Char) (printer : Printer) :
    printFrom template bindings printer (before ++ '$' :: (name ++ '$' :: more)) =
      printer.writeText before >>= fun written =>
        written.writeVariable bindings name >>= fun replaced =>
          printFrom template bindings replaced more := by
  rw [printFrom]
  split
  · next hcut => cases (cutAt?_append hbefore (name ++ '$' :: more)).symm.trans hcut
  · next hcut =>
    cases (cutAt?_append hbefore (name ++ '$' :: more)).symm.trans hcut
    refine bind_congr fun written => ?_
    split
    · next hcut => cases (cutAt?_append hname more).symm.trans hcut
    · next hcut =>
      cases (cutAt?_append hname more).symm.trans hcut
      rfl

theorem printFrom_of_isFilled :
    ∀ {segments : List (List Char)}, (∀ segment ∈ segments, '$' ∉ segment) →
      IsFilled bindings segments → ∀ printer : Printer,
        printFrom template bindings printer (joinWith '$' segments) =
          printer.writeText (textOf bindings segments)
  | [], _, h, _ => nomatch h.closed
  | [chars], hplain, _, printer => by
    rw [joinWith, printFrom_of_not_mem (hplain chars (by simp)), textOf_singleton]
  | [chars, name], _, h, _ => absurd h (not_isFilled_pair chars name)
  | chars :: name :: next :: rest, hplain, h, printer => by
    obtain ⟨hname, hrest⟩ := isFilled_cons_cons.1 h
    have hmore := printFrom_of_isFilled
      (fun segment hsegment => hplain segment (by simp [List.mem_cons.1 hsegment])) hrest
    have hjoin : joinWith '$' (chars :: name :: next :: rest) =
        chars ++ '$' :: (name ++ '$' :: joinWith '$' (next :: rest)) := rfl
    rw [hjoin, printFrom_variable (hplain chars (by simp)) (hplain name (by simp)),
      textOf_cons_cons, writeText_append]
    refine bind_congr fun written => ?_
    rw [writeVariable_of_mem hname, writeText_append]
    exact bind_congr fun replaced => hmore replaced

/-- Printing stops at a dollar sign that opens no variable. -/
theorem printFrom_of_unfilled {after : List (List Char)} {fault : TemplateFault}
    (hafter : Unfilled template bindings after fault) :
    ∀ {before : List (List Char)}, (∀ segment ∈ before ++ after, '$' ∉ segment) →
      IsFilled bindings before → ∀ printer : Printer,
        printFrom template bindings printer (joinWith '$' (before ++ after)) =
          printer.writeText (textOf bindings before) >>= fun written =>
            .error ⟨.template fault, written⟩
  | [], _, h, _ => nomatch h.closed
  | [chars], hplain, _, printer => by
    have hchars := hplain chars (by simp)
    rw [textOf_singleton]
    cases hafter with
    | @unterminated name =>
      exact printFrom_unterminated hchars (hplain name (by simp)) printer
    | @unbound name next rest hname hbound =>
      refine (printFrom_variable hchars (hplain name (by simp)) _ printer).trans ?_
      refine bind_congr fun written => ?_
      rw [writeVariable_of_not_mem hname hbound]
      rfl
  | [chars, name], _, h, _ => absurd h (not_isFilled_pair chars name)
  | chars :: name :: next :: rest, hplain, h, printer => by
    obtain ⟨hname, hrest⟩ := isFilled_cons_cons.1 h
    have hmore := printFrom_of_unfilled hafter
      (fun segment hsegment => hplain segment (by simp_all)) hrest
    refine (printFrom_variable (hplain chars (by simp)) (hplain name (by simp)) _ printer).trans ?_
    rw [textOf_cons_cons, writeText_append, bind_assoc]
    refine bind_congr fun written => ?_
    rw [writeVariable_of_mem hname, writeText_append, bind_assoc]
    exact bind_congr fun replaced => hmore replaced

/-- **Printing is writing** where the template stands for some text. -/
theorem print_of_isFilled (h : IsFilled bindings (split '$' template.toList)) (printer : Printer) :
    printer.print template bindings =
      printer.writeText (textOf bindings (split '$' template.toList)) := by
  have hplain : ∀ segment ∈ split '$' template.toList, '$' ∉ segment :=
    fun _ hsegment => not_mem_of_mem_split hsegment
  rw [print, ← printFrom_of_isFilled hplain h, joinWith_split]

theorem print_of_unfilled {before after : List Char} {fault : TemplateFault}
    (htemplate : template.toList = before ++ '$' :: after)
    (hbefore : IsFilled bindings (split '$' before))
    (hafter : Unfilled template bindings (split '$' after) fault) (printer : Printer) :
    printer.print template bindings =
      printer.writeText (textOf bindings (split '$' before)) >>= fun written =>
        .error ⟨.template fault, written⟩ := by
  have hplain : ∀ segment ∈ split '$' before ++ split '$' after, '$' ∉ segment := by
    intro segment hsegment
    rcases List.mem_append.1 hsegment with hsegment | hsegment
    · exact not_mem_of_mem_split hsegment
    · exact not_mem_of_mem_split hsegment
  have hprint := printFrom_of_unfilled hafter hplain hbefore printer
  rwa [← split_append, joinWith_split, ← htemplate] at hprint

end Printer

/-! ## Templates with known segments -/

namespace Template

variable {bindings : List (String × String)}

/-- A text between variables, left out if it is empty. -/
def literal (chars : List Char) : List String :=
  if chars.isEmpty then [] else [String.ofList chars]

/-- What a variable stands for, if it has a value. -/
def value? (bindings : List (String × String)) (name : List Char) : Option String :=
  if name.isEmpty then some "$" else bindings.lookup (String.ofList name)

/-- The texts and values that the segments of a template stand for, if all of them do. -/
def pieces? (bindings : List (String × String)) : List (List Char) → Option (List String)
  | [] => none
  | [chars] => some (literal chars)
  | chars :: name :: rest => do
    let value ← value? bindings name
    let more ← pieces? bindings rest
    some (literal chars ++ value :: more)

/-- Pieces one behind the other. -/
def joined : List String → String
  | [] => ""
  | first :: rest => rest.foldl (· ++ ·) first

theorem toList_joined (pieces : List String) :
    (joined pieces).toList = pieces.flatMap String.toList := by
  have hfold (rest : List String) (first : String) :
      (rest.foldl (· ++ ·) first).toList = first.toList ++ rest.flatMap String.toList := by
    induction rest generalizing first with
    | nil => simp
    | cons next rest ih => simp [ih, String.toList_append]
  cases pieces with
  | nil => rfl
  | cons first rest => simp [joined, hfold]

theorem flatMap_literal (chars : List Char) : (literal chars).flatMap String.toList = chars := by
  cases chars <;> simp [literal]

theorem of_pieces?_eq_some : ∀ {segments : List (List Char)} {pieces : List String},
    pieces? bindings segments = some pieces →
      IsFilled bindings segments ∧ textOf bindings segments = pieces.flatMap String.toList
  | [], _, h => nomatch h
  | [chars], _, h => by
    cases h
    exact ⟨isFilled_singleton chars, by rw [textOf_singleton, flatMap_literal]⟩
  | chars :: name :: rest, _, h => by
    simp only [pieces?, Option.bind_eq_bind, Option.bind_eq_some_iff] at h
    obtain ⟨value, hvalue, more, hmore, heq⟩ := h
    cases heq
    obtain ⟨hfilled, htext⟩ := of_pieces?_eq_some hmore
    rw [isFilled_cons_cons, textOf_cons_cons, htext]
    cases name with
    | nil =>
      cases hvalue
      exact ⟨⟨fun h => absurd rfl h, hfilled⟩, by simp [flatMap_literal, segmentText]⟩
    | cons c others =>
      rw [value?, List.isEmpty_cons, if_neg Bool.false_ne_true, Printer.lookup_eq_find?] at hvalue
      obtain ⟨⟨key, value⟩, hfind, rfl⟩ := Option.map_eq_some_iff.1 hvalue
      have hkey : key = String.ofList (c :: others) := by simpa using List.find?_some hfind
      refine ⟨⟨fun _ => List.mem_map.2 ⟨_, List.mem_of_find?_eq_some hfind, hkey⟩, hfilled⟩, ?_⟩
      have hvalue : segmentText bindings 1 (c :: others) = value.toList := by
        simp only [segmentText, hfind]
        rfl
      simp [flatMap_literal, hvalue]

end Template

namespace Printer

/-- A template is printed by writing the text that its texts and values give one behind the
other. -/
theorem print_eq_writeText {template text : String} {chars : List Char}
    {bindings : List (String × String)} (ht : template.toList = chars)
    (h : (Template.pieces? bindings (split '$' chars)).map Template.joined = some text)
    (printer : Printer) : printer.print template bindings = printer.writeText text.toList := by
  obtain ⟨pieces, hpieces, rfl⟩ := Option.map_eq_some_iff.1 h
  subst ht
  obtain ⟨hfilled, htext⟩ := Template.of_pieces?_eq_some hpieces
  rw [print_of_isFilled hfilled, htext, Template.toList_joined]

theorem print_of_not_mem {template : String} (h : '$' ∉ template.toList)
    (bindings : List (String × String)) (printer : Printer) :
    printer.print template bindings = printer.writeText template.toList :=
  printFrom_of_not_mem h printer

end Printer

end ProtoExtensions
