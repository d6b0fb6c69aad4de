import ProtoExtensions.Proofs.MappingText

/-!
Mappings text in two phases. Its physical lines are grouped into entries (`Groups`): lines that give
an entry no text yet are passed over, and a line that ends in a backslash is joined with the next
one. Then the entries are put into the map, up to the first one without a header (`enter`). Reading
does both in one pass (`Groups.readLines_eq`), so what it reports, and what it has read by then, are
matters of the entries. No entry crosses the end of a text that reads without a fault; so texts that
are read one after the other can as well be joined (`readMappings_append`).
-/

namespace ProtoExtensions

/-- A fault as it is numbered behind some further lines. -/
def MappingFault.behind (rows : Nat) (fault : MappingFault) : MappingFault :=
  { fault with line := fault.line + rows }

namespace Properties

/-! ### Entries -/

/-- An entry put together from physical lines: its text, and the number of the line on which this
text starts. -/
structure Entry where
  line : Nat
  text : List Char
  deriving DecidableEq, Repr

namespace Entry

/-- The class name of an entry. -/
def name (entry : Entry) : String :=
  String.ofList (splitEntry entry.text).1

/-- The header of an entry, empty if there is none. -/
def header (entry : Entry) : String :=
  String.ofList (splitEntry entry.text).2

/-- The mapping that an entry stands for. -/
def mapping (entry : Entry) : String × String :=
  (entry.name, entry.header)

/-- Whether an entry gives a header for its class. -/
def HasHeader (entry : Entry) : Prop :=
  entry.header ≠ ""

instance : DecidablePred HasHeader := fun entry => inferInstanceAs (Decidable (entry.header ≠ ""))

theorem hasHeader_iff {entry : Entry} :
    entry.HasHeader ↔ (splitEntry entry.text).2.isEmpty = false := by
  simp [HasHeader, header]

end Entry

/-! ### First phase: grouping lines -/

/-- Whether a line gives text to an entry that has none yet. Blank lines and comments do not, and
neither does a lone backslash. -/
def GivesText (raw : List Char) : Prop :=
  isSkipped (trimStart raw) = false ∧ trimStart raw ≠ ['\\']

/-- Whether a line is continued on the next one. -/
def Continues (raw : List Char) : Prop :=
  (trimStart raw).getLast? = some '\\'

/-- The text of lines that are continued, without their backslashes. -/
def continuedText (run : List (List Char)) : List Char :=
  run.flatMap fun raw => (trimStart raw).dropLast

instance : DecidablePred GivesText := fun raw =>
  inferInstanceAs (Decidable (isSkipped (trimStart raw) = false ∧ trimStart raw ≠ ['\\']))

instance : DecidablePred Continues := fun raw =>
  inferInstanceAs (Decidable ((trimStart raw).getLast? = some '\\'))

/-- Physical lines from a number on, grouped: the entries that are complete, and one that is still
continued at the end of the lines, if there is one. -/
inductive Groups : Nat → List (List Char) → List Entry → Option Entry → Prop where
  | nil {number : Nat} : Groups number [] [] none
  | pass {number : Nat} {raw : List Char} {more : List (List Char)} {entries : List Entry}
      {unfinished : Option Entry} (hraw : ¬GivesText raw)
      (hmore : Groups (number + 1) more entries unfinished) :
      Groups number (raw :: more) entries unfinished
  | entry {number : Nat} {raw last : List Char} {more run rest : List (List Char)}
      {entries : List Entry} {unfinished : Option Entry} (hraw : GivesText raw)
      (hsplit : raw :: more = run ++ last :: rest) (hrun : ∀ line ∈ run, Continues line)
      (hlast : ¬Continues last) (hrest : Groups (number + run.length + 1) rest entries unfinished) :
      Groups number (raw :: more) (⟨number, continuedText run ++ trimStart last⟩ :: entries)
        unfinished
  | unfinished {number : Nat} {raw : List Char} {more : List (List Char)} (hraw : GivesText raw)
      (hrun : ∀ line ∈ raw :: more, Continues line) :
      Groups number (raw :: more) [] (some ⟨number, continuedText (raw :: more)⟩)

/-- Lines either are all continued, or they are up to the first one that is not. -/
theorem continues_or_split (rows : List (List Char)) :
    (∀ line ∈ rows, Continues line) ∨
      ∃ run last rest, rows = run ++ last :: rest ∧ (∀ line ∈ run, Continues line) ∧
        ¬Continues last := by
  cases hfound : rows.find? (¬Continues ·) with
  | none => exact .inl fun line hline => by simpa using List.find?_eq_none.1 hfound line hline
  | some last =>
    obtain ⟨hlast, run, rest, hsplit, hrun⟩ := List.find?_eq_some_iff_append.1 hfound
    exact .inr ⟨run, last, rest, hsplit, by simpa using hrun, by simpa using hlast⟩

theorem split_unique {run run' rest rest' : List (List Char)} {last last' : List Char}
    (hrun : ∀ line ∈ run, Continues line) (hlast : ¬Continues last)
    (hrun' : ∀ line ∈ run', Continues line) (hlast' : ¬Continues last')
    (h : run ++ last :: rest = run' ++ last' :: rest') :
    run = run' ∧ last = last' ∧ rest = rest' := by
  induction run generalizing run' with
  | nil =>
    cases run' with
    | nil => simpa using h
    | cons line run' =>
      obtain ⟨rfl, -⟩ := List.cons.inj h
      exact absurd (hrun' last List.mem_cons_self) hlast
  | cons line run ih =>
    cases run' with
    | nil =>
      obtain ⟨rfl, -⟩ := List.cons.inj h
      exact absurd (hrun line List.mem_cons_self) hlast'
    | cons line' run' =>
      obtain ⟨rfl, htail⟩ := List.cons.inj h
      obtain ⟨rfl, hothers⟩ := ih (List.forall_mem_cons.1 hrun).2 (List.forall_mem_cons.1 hrun').2
        htail
      exact ⟨rfl, hothers⟩

theorem exists_groups (number : Nat) (rows : List (List Char)) :
    ∃ entries unfinished, Groups number rows entries unfinished := by
  -- The lines behind an entry are fewer, but not by one only.
  induction hlength : rows.length using Nat.strongRecOn generalizing number rows with
  | ind n ih =>
    cases rows with
    | nil => exact ⟨[], none, .nil⟩
    | cons raw more =>
      by_cases hraw : GivesText raw
      · rcases continues_or_split (raw :: more) with hall | ⟨run, last, rest, hsplit, hrun, hlast⟩
        · exact ⟨[], _, .unfinished hraw hall⟩
        · have hshorter : rest.length < n := by
            rw [← hlength, hsplit, List.length_append, List.length_cons]
            omega
          obtain ⟨entries, unfinished, hrest⟩ := ih _ hshorter (number + run.length + 1) rest rfl
          exact ⟨_, unfinished, .entry hraw hsplit hrun hlast hrest⟩
      · have hshorter : more.length < n := by
          rw [← hlength]
          exact Nat.lt_succ_self _
        obtain ⟨entries, unfinished, hmore⟩ := ih _ hshorter (number + 1) more rfl
        exact ⟨entries, unfinished, .pass hraw hmore⟩

/-- Lines can be grouped in one way only. -/
theorem Groups.unique {number : Nat} {rows : List (List Char)} {entries entries' : List Entry}
    {unfinished unfinished' : Option Entry} (h : Groups number rows entries unfinished)
    (h' : Groups number rows entries' unfinished') :
    entries = entries' ∧ unfinished = unfinished' := by
  induction h generalizing entries' unfinished' with
  | nil =>
    cases h'
    exact ⟨rfl, rfl⟩
  | pass hraw hmore ih =>
    cases h' with
    | pass _ hmore' => exact ih hmore'
    | entry hraw' | unfinished hraw' => exact absurd hraw' hraw
  | entry hraw hsplit hrun hlast hrest ih =>
    cases h' with
    | pass hraw' => exact absurd hraw hraw'
    | entry _ hsplit' hrun' hlast' hrest' =>
      obtain ⟨rfl, rfl, rfl⟩ := split_unique hrun hlast hrun' hlast' (hsplit.symm.trans hsplit')
      obtain ⟨rfl, rfl⟩ := ih hrest'
      exact ⟨rfl, rfl⟩
    | unfinished _ hrun' => exact absurd (hrun' _ (by simp [hsplit])) hlast
  | unfinished hraw hrun =>
    cases h' with
    | pass hraw' => exact absurd hraw hraw'
    | entry _ hsplit' _ hlast' => exact absurd (hrun _ (by simp [hsplit'])) hlast'
    | unfinished => exact ⟨rfl, rfl⟩

/-! ### Second phase: entering entries -/

/-- Puts entries into a map, some having been put into it before, up to the first one without a
header. -/
def enter (map : HeaderMap) (count : Nat) (unfinished : Option Entry) :
    List Entry → HeaderMap × Except MappingFault Nat
  | [] =>
    match unfinished with
    | none => (map, .ok count)
    | some entry => (map, .error ⟨entry.line, .unfinished⟩)
  | entry :: rest =>
    if entry.HasHeader then enter (map.put entry.name entry.header) (count + 1) unfinished rest
    else (map, .error ⟨entry.line, .noHeader entry.name⟩)

theorem enter_append {front : List Entry} (h : ∀ entry ∈ front, entry.HasHeader) (map : HeaderMap)
    (count : Nat) (unfinished : Option Entry) (rest : List Entry) :
    enter map count unfinished (front ++ rest) =
      enter (map.putAll (front.map Entry.mapping)) (count + front.length) unfinished rest := by
  induction front generalizing map count with
  | nil => rfl
  | cons entry front ih =>
    obtain ⟨hentry, hfront⟩ := List.forall_mem_cons.1 h
    rw [List.cons_append, enter, if_pos hentry, ih hfront, List.length_cons, Nat.add_assoc,
      Nat.add_comm 1]
    rfl

/-- What comes of entering entries into a map: all are put in and counted, or those before the first
one without a header are, or all are and an unfinished entry is left. -/
inductive Enters (map : HeaderMap) (entries : List Entry) :
    Option Entry → HeaderMap × Except MappingFault Nat → Prop where
  | all (h : ∀ entry ∈ entries, entry.HasHeader) :
      Enters map entries none (map.putAll (entries.map Entry.mapping), .ok entries.length)
  | noHeader {before after : List Entry} {entry : Entry} {unfinished : Option Entry}
      (hsplit : entries = before ++ entry :: after) (hbefore : ∀ other ∈ before, other.HasHeader)
      (hentry : ¬entry.HasHeader) :
      Enters map entries unfinished
        (map.putAll (before.map Entry.mapping), .error ⟨entry.line, .noHeader entry.name⟩)
  | unfinished {entry : Entry} (h : ∀ other ∈ entries, other.HasHeader) :
      Enters map entries (some entry)
        (map.putAll (entries.map Entry.mapping), .error ⟨entry.line, .unfinished⟩)

theorem enters_enter (map : HeaderMap) (unfinished : Option Entry) (entries : List Entry) :
    Enters map entries unfinished (enter map 0 unfinished entries) := by
  cases hfound : entries.find? (¬Entry.HasHeader ·) with
  | none =>
    have hall : ∀ entry ∈ entries, entry.HasHeader := fun entry hentry => by
      simpa using List.find?_eq_none.1 hfound entry hentry
    have henter := enter_append hall map 0 unfinished []
    rw [List.append_nil, Nat.zero_add] at henter
    rw [henter]
    cases unfinished with
    | none => exact .all hall
    | some entry => exact .unfinished hall
  | some entry =>
    obtain ⟨hentry, before, after, hsplit, hbefore⟩ := List.find?_eq_some_iff_append.1 hfound
    have hnone : ¬entry.HasHeader := by simpa using hentry
    have hheaders : ∀ other ∈ before, other.HasHeader := by simpa using hbefore
    have henter := enter_append hheaders map 0 unfinished (entry :: after)
    rw [enter, if_neg hnone] at henter
    rw [hsplit, henter]
    exact .noHeader rfl hheaders hnone

/-- Entering fails exactly for want of a header or of the end of an entry. -/
theorem Enters.exists_error_iff {map : HeaderMap} {entries : List Entry}
    {unfinished : Option Entry} {result : HeaderMap × Except MappingFault Nat}
    (h : Enters map entries unfinished result) :
    (∃ fault, result.2 = .error fault) ↔
      (∃ entry ∈ entries, ¬entry.HasHeader) ∨ unfinished ≠ none := by
  cases h with
  | all h => simpa using h
  | noHeader hsplit hbefore hentry =>
    exact ⟨fun _ => .inl ⟨_, by simp [hsplit], hentry⟩, fun _ => ⟨_, rfl⟩⟩
  | unfinished h => exact ⟨fun _ => .inr (by simp), fun _ => ⟨_, rfl⟩⟩

/-- Every name has the header of the last entry for it that has been put in, and its old one where
none has been. -/
theorem Enters.mapped?_eq {map : HeaderMap} {entries : List Entry} {unfinished : Option Entry}
    {result : HeaderMap × Except MappingFault Nat} (h : Enters map entries unfinished result)
    (name : String) :
    result.1.mapped? name =
      (((entries.takeWhile (Entry.HasHeader ·)).map Entry.mapping).reverse.lookup name).or
        (map.mapped? name) := by
  have hkept {before : List Entry} (hbefore : ∀ other ∈ before, other.HasHeader) (after) :
      (before ++ after).takeWhile (Entry.HasHeader ·) =
        before ++ after.takeWhile (Entry.HasHeader ·) :=
    List.takeWhile_append_of_pos (by simpa using hbefore)
  cases h with
  | all h | unfinished h =>
    have hall := hkept h []
    rw [List.append_nil, List.takeWhile_nil, List.append_nil] at hall
    rw [hall]
    exact map.mapped?_putAll _ name
  | noHeader hsplit hbefore hentry =>
    rw [hsplit, hkept hbefore, List.takeWhile_cons_of_neg (by simpa using hentry), List.append_nil]
    exact map.mapped?_putAll _ name

/-! ### Both phases in one pass -/

/-- A reading with an entry completed. -/
def Reading.complete (reading : Reading) (entry : Entry) : Except MappingFault Reading :=
  if entry.HasHeader then
    .ok ⟨reading.map.put entry.name entry.header, reading.count + 1, [], entry.line⟩
  else .error ⟨entry.line, .noHeader entry.name⟩

theorem Continues.eq_append {raw : List Char} (h : Continues raw) :
    trimStart raw = (trimStart raw).dropLast ++ ['\\'] := by
  obtain ⟨text, htext⟩ := List.getLast?_eq_some_iff.1 h
  rw [htext, List.dropLast_concat]

theorem Continues.dropLast_ne_nil {raw : List Char} (h : Continues raw) (hgives : GivesText raw) :
    (trimStart raw).dropLast ≠ [] := by
  intro hnil
  have hslash := h.eq_append
  rw [hnil] at hslash
  exact hgives.2 hslash

section

variable (reading : Reading) (number : Nat) {raw : List Char}

/-- A line that gives no text leaves a reading between entries. -/
theorem readLine_of_not_givesText (hpending : reading.pending = []) (h : ¬GivesText raw) :
    ∃ start, readLine reading number raw = .ok { reading with start } := by
  obtain ⟨map, count, pending, start⟩ := reading
  obtain rfl : pending = [] := hpending
  by_cases hskipped : isSkipped (trimStart raw) = true
  · exact ⟨start, by simp [readLine, hskipped]⟩
  · have hslash : trimStart raw = ['\\'] := by
      simpa [GivesText, hskipped] using h
    exact ⟨number, by simp [readLine, hslash, isSkipped, continued?]⟩

theorem isSkipped_eq_false_of_starts (hstarts : reading.pending = [] → GivesText raw) :
    (reading.pending.isEmpty && isSkipped (trimStart raw)) = false := by
  cases hpending : reading.pending with
  | nil => exact (hstarts hpending).1
  | cons c rest => rfl

theorem readLine_of_continues (h : Continues raw)
    (hstarts : reading.pending = [] → GivesText raw) :
    readLine reading number raw =
      .ok { reading with
        pending := reading.pending ++ (trimStart raw).dropLast
        start := reading.startLine number } := by
  simp only [readLine, isSkipped_eq_false_of_starts reading hstarts,
    continued?_eq_some_iff.2 h.eq_append]
  rfl

theorem readLine_of_not_continues (h : ¬Continues raw)
    (hstarts : reading.pending = [] → GivesText raw) :
    readLine reading number raw =
      reading.complete ⟨reading.startLine number, reading.pending ++ trimStart raw⟩ := by
  have hiff := @Entry.hasHeader_iff
    ⟨reading.startLine number, reading.pending ++ trimStart raw⟩
  simp only [readLine, isSkipped_eq_false_of_starts reading hstarts, continued?_eq_none_iff.2 h]
  cases hempty : (splitEntry (reading.pending ++ trimStart raw)).2.isEmpty with
  | false =>
    rw [Reading.complete, if_pos (hiff.2 hempty)]
    rfl
  | true =>
    have hnone := mt hiff.1 (by simp [hempty])
    rw [Reading.complete, if_neg hnone]
    rfl

end

section

variable {number : Nat} {reading next : Reading} {raw : List Char} {run : List (List Char)}

theorem readLines_cons_of_ok (h : readLine reading number raw = .ok next)
    (rest : List (List Char)) :
    readLines reading number (raw :: rest) = readLines next (number + 1) rest := by
  rw [readLines, h]

theorem readLines_cons_of_error {fault : MappingFault}
    (h : readLine reading number raw = .error fault) (rest : List (List Char)) :
    readLines reading number (raw :: rest) = (reading.map, .error fault) := by
  rw [readLines, h]

theorem readLines_run (hrun : ∀ line ∈ run, Continues line) (hpending : reading.pending ≠ [])
    (rest : List (List Char)) :
    readLines reading number (run ++ rest) =
      readLines { reading with pending := reading.pending ++ continuedText run }
        (number + run.length) rest := by
  induction run generalizing reading number with
  | nil => simp [continuedText]
  | cons raw run ih =>
    obtain ⟨hraw, hmore⟩ := List.forall_mem_cons.1 hrun
    have hline := readLine_of_continues reading number hraw fun h => absurd h hpending
    rw [List.cons_append, readLines_cons_of_ok hline, ih hmore (by simp [hpending])]
    simp [Reading.startLine, hpending, continuedText, Nat.add_assoc, Nat.add_comm 1]

/-- Reading comes to the end of the first line of an entry and those that it is continued on. -/
theorem readLines_first (reading : Reading) (number : Nat) (hraw : GivesText raw)
    (hrun : ∀ line ∈ raw :: run, Continues line) (hpending : reading.pending = [])
    (rest : List (List Char)) :
    readLines reading number (raw :: run ++ rest) =
      readLines { reading with pending := continuedText (raw :: run), start := number }
        (number + run.length + 1) rest := by
  obtain ⟨hcontinues, hmore⟩ := List.forall_mem_cons.1 hrun
  have hline := readLine_of_continues reading number hcontinues fun _ => hraw
  rw [List.cons_append, readLines_cons_of_ok hline,
    readLines_run hmore (by simp [hcontinues.dropLast_ne_nil hraw])]
  simp [Reading.startLine, hpending, continuedText, Nat.add_right_comm]

/-- The lines of an entry come down to its last one, which completes it. -/
theorem exists_readLine_last (reading : Reading) (number : Nat) {last : List Char}
    {more rest : List (List Char)} (hraw : GivesText raw)
    (hsplit : raw :: more = run ++ last :: rest) (hrun : ∀ line ∈ run, Continues line)
    (hlast : ¬Continues last) (hpending : reading.pending = []) :
    ∃ before : Reading, before.map = reading.map ∧
      readLines reading number (raw :: more) =
        readLines before (number + run.length) (last :: rest) ∧
      readLine before (number + run.length) last =
        reading.complete ⟨number, continuedText run ++ trimStart last⟩ := by
  cases run with
  | nil =>
    obtain ⟨rfl, rfl⟩ := List.cons.inj hsplit
    have hline := readLine_of_not_continues reading number hlast
      fun _ => hraw
    exact ⟨reading, rfl, rfl, by
      simpa [Reading.startLine, hpending, continuedText] using hline⟩
  | cons first run =>
    obtain ⟨rfl, -⟩ := List.cons.inj hsplit
    have hne : continuedText (raw :: run) ≠ [] := by
      simp [continuedText, (hrun raw List.mem_cons_self).dropLast_ne_nil hraw]
    refine ⟨{ reading with pending := continuedText (raw :: run), start := number }, rfl, ?_, ?_⟩
    · rw [hsplit]
      exact readLines_first reading number hraw hrun hpending _
    · rw [readLine_of_not_continues _ _ hlast fun h => absurd h hne]
      simp only [Reading.startLine, List.isEmpty_eq_false_iff.2 hne]
      rfl

end

/-- **Reading enters what lines are grouped into.** -/
theorem Groups.readLines_eq {number : Nat} {rows : List (List Char)} {entries : List Entry}
    {unfinished : Option Entry} (h : Groups number rows entries unfinished) (map : HeaderMap)
    (count start : Nat) :
    readLines ⟨map, count, [], start⟩ number rows = enter map count unfinished entries := by
  induction h generalizing map count start with
  | nil => rfl
  | pass hraw hmore ih =>
    obtain ⟨next, hline⟩ :=
      readLine_of_not_givesText ⟨map, count, [], start⟩ _ rfl hraw
    rw [readLines_cons_of_ok hline]
    exact ih map count next
  | @entry number raw last more run rest entries unfinished hraw hsplit hrun hlast hrest ih =>
    obtain ⟨before, hmap, hbefore, hline⟩ := exists_readLine_last
      ⟨map, count, [], start⟩ number hraw hsplit hrun hlast rfl
    rw [hbefore, enter]
    unfold Reading.complete at hline
    split at hline
    · next hheader =>
      rw [readLines_cons_of_ok hline, if_pos hheader]
      exact ih _ _ _
    · next hheader =>
      rw [readLines_cons_of_error hline, if_neg hheader, hmap]
  | @unfinished number raw more hraw hrun =>
    have hne : continuedText (raw :: more) ≠ [] := by
      simp [continuedText, (hrun raw List.mem_cons_self).dropLast_ne_nil hraw]
    have hall := readLines_first ⟨map, count, [], start⟩ number hraw hrun rfl []
    rw [List.append_nil] at hall
    rw [hall]
    simp [readLines, enter, hne]

/-! ### Lines behind other lines -/

/-- An entry as it is numbered behind some further lines. -/
def Entry.behind (rows : Nat) (entry : Entry) : Entry :=
  { entry with line := entry.line + rows }

theorem Groups.behind {number : Nat} {rows : List (List Char)} {entries : List Entry}
    {unfinished : Option Entry} (h : Groups number rows entries unfinished) (front : Nat) :
    Groups (number + front) rows (entries.map (Entry.behind front))
      (unfinished.map (Entry.behind front)) := by
  induction h with
  | nil => exact .nil
  | pass hraw hmore ih =>
    rw [Nat.add_right_comm] at ih
    exact .pass hraw ih
  | entry hraw hsplit hrun hlast hrest ih =>
    rw [show ∀ a b c : Nat, a + b + 1 + c = a + c + b + 1 by omega] at ih
    exact .entry hraw hsplit hrun hlast ih
  | unfinished hraw hrun => exact .unfinished hraw hrun

/-- Where no entry is left unfinished, the next lines are grouped on their own. -/
theorem Groups.append {number : Nat} {a b : List (List Char)} {entries entries' : List Entry}
    {unfinished : Option Entry} (ha : Groups number a entries none)
    (hb : Groups (number + a.length) b entries' unfinished) :
    Groups number (a ++ b) (entries ++ entries') unfinished := by
  generalize hnone : none = open? at ha
  induction ha with
  | nil => exact hb
  | pass hraw hmore ih =>
    rw [List.length_cons, Nat.add_comm _ 1, ← Nat.add_assoc] at hb
    exact .pass hraw (ih hb hnone)
  | @entry number raw last more run rest _ _ hraw hsplit hrun hlast hrest ih =>
    have hjoined : raw :: more ++ b = run ++ last :: (rest ++ b) := by
      rw [hsplit, List.append_assoc, List.cons_append]
    have hnumber : number + (raw :: more).length = number + run.length + 1 + rest.length := by
      rw [hsplit, List.length_append, List.length_cons]
      omega
    rw [hnumber] at hb
    exact .entry hraw hjoined hrun hlast (ih hb hnone)
  | unfinished => cases hnone

theorem enter_behind (front : Nat) (added : Nat) (map : HeaderMap) (count : Nat)
    (unfinished : Option Entry) (entries : List Entry) :
    enter map (added + count) (unfinished.map (Entry.behind front))
        (entries.map (Entry.behind front)) =
      ((enter map count unfinished entries).1,
        ((enter map count unfinished entries).2.map (added + ·)).mapError
          (MappingFault.behind front)) := by
  induction entries generalizing map count with
  | nil => cases unfinished <;> rfl
  | cons entry rest ih =>
    rw [List.map_cons, enter, enter]
    by_cases hheader : entry.HasHeader
    · have hbehind : (entry.behind front).HasHeader := hheader
      rw [if_pos hheader, if_pos hbehind]
      exact ih _ (count + 1)
    · have hbehind : ¬(entry.behind front).HasHeader := hheader
      rw [if_neg hheader, if_neg hbehind]
      rfl

end Properties

section

variable {α β ε : Type} {result : Except ε α} {f : α → β} {g : ε → ε}

theorem mapError_map_eq_ok_iff {value : β} :
    (result.map f).mapError g = .ok value ↔ ∃ a, result = .ok a ∧ value = f a := by
  cases result with
  | ok a =>
    constructor
    · intro h
      exact ⟨a, rfl, (Except.ok.inj h).symm⟩
    · rintro ⟨other, hother, rfl⟩
      obtain rfl := Except.ok.inj hother
      rfl
  | error e =>
    constructor
    · intro h
      cases h
    · rintro ⟨_, hother, -⟩
      cases hother

theorem mapError_map_eq_error_iff {fault : ε} :
    (result.map f).mapError g = .error fault ↔ ∃ e, result = .error e ∧ fault = g e := by
  cases result with
  | ok a =>
    constructor
    · intro h
      cases h
    · rintro ⟨_, hother, -⟩
      cases hother
  | error e =>
    constructor
    · intro h
      exact ⟨e, rfl, (Except.error.inj h).symm⟩
    · rintro ⟨other, hother, rfl⟩
      obtain rfl := Except.error.inj hother
      rfl

end

namespace HeaderMap

open Properties

theorem readMappings_eq {text : String} {entries : List Entry} {unfinished : Option Entry}
    (h : Groups 1 (lines text.toList) entries unfinished) (map : HeaderMap) :
    map.readMappings text = enter map 0 unfinished entries :=
  h.readLines_eq map 0 0

/-- **Mappings are read as in two phases.** The lines of a text are grouped into entries in exactly
one way. Reading puts the mappings of the entries into the map, in order, and counts them, so that a
name has the header of the last entry for it and keeps its old one where there is none. It fails if
and only if an entry has no header or the last one is unfinished; then the entries before the first
such entry have been put in, and the fault names the line on which its text starts. -/
theorem readMappings_enters (map : HeaderMap) (text : String) :
    ∃ entries unfinished, Groups 1 (lines text.toList) entries unfinished ∧
      (∀ entries' unfinished', Groups 1 (lines text.toList) entries' unfinished' →
        entries' = entries ∧ unfinished' = unfinished) ∧
      Enters map entries unfinished (map.readMappings text) ∧
      (∀ name, (map.readMappings text).1.mapped? name =
        (((entries.takeWhile (Entry.HasHeader ·)).map Entry.mapping).reverse.lookup name).or
          (map.mapped? name)) ∧
      ((∃ fault, (map.readMappings text).2 = .error fault) ↔
        (∃ entry ∈ entries, ¬entry.HasHeader) ∨ unfinished ≠ none) := by
  obtain ⟨entries, unfinished, hgroups⟩ := exists_groups 1 (lines text.toList)
  have henters : Enters map entries unfinished (map.readMappings text) := by
    rw [readMappings_eq hgroups]
    exact enters_enter map unfinished entries
  exact ⟨entries, unfinished, hgroups, fun _ _ hother => hother.unique hgroups, henters,
    henters.mapped?_eq, henters.exists_error_iff⟩

/-- Mappings where a second entry for a class goes over two lines, and the third entry has no
header. -/
def overridingMappings : String :=
  "a.B=b.h\n\n a.B = long/\\\n  b.h\nc.D\ne.F=f.h\n"

/-- The second header of the class counts, the class that has no entry keeps its header, and nothing
behind the fault is read. -/
theorem readMappings_enters_overriding :
    ∃ entries unfinished, Groups 1 (lines overridingMappings.toList) entries unfinished ∧
      entries.map (fun entry => (entry.line, entry.mapping)) =
        [(1, "a.B", "b.h"), (3, "a.B", "long/b.h"), (5, "c.D", ""), (6, "e.F", "f.h")] ∧
      ∀ map : HeaderMap,
        (map.readMappings overridingMappings).1.mapped? "a.B" = some "long/b.h" ∧
        (map.readMappings overridingMappings).1.mapped? "e.F" = map.mapped? "e.F" ∧
        ∃ fault, (map.readMappings overridingMappings).2 = .error fault := by
  have hgroups : Groups 1 (lines overridingMappings.toList)
      [⟨1, "a.B=b.h".toList⟩, ⟨3, "a.B = long/b.h".toList⟩, ⟨5, "c.D".toList⟩,
        ⟨6, "e.F=f.h".toList⟩] none :=
    .entry (by decide +kernel) (List.nil_append _).symm (by simp) (by decide +kernel) <|
    .pass (by decide +kernel) <|
    .entry (by decide +kernel) (show _ = [" a.B = long/\\".toList] ++ _ :: _ from rfl)
      (by decide +kernel) (by decide +kernel) <|
    .entry (by decide +kernel) (List.nil_append _).symm (by simp) (by decide +kernel) <|
    .entry (by decide +kernel) (List.nil_append _).symm (by simp) (by decide +kernel) .nil
  refine ⟨_, none, hgroups, by decide +kernel, fun map => ?_⟩
  obtain ⟨entries, unfinished, -, hunique, -, hmapped, hfails⟩ :=
    map.readMappings_enters overridingMappings
  obtain ⟨rfl, rfl⟩ := hunique _ _ hgroups
  refine ⟨?_, ?_, hfails.2 (.inl ⟨_, List.mem_cons_of_mem _ (List.mem_cons_of_mem _
    List.mem_cons_self), by decide +kernel⟩)⟩
  · rw [hmapped, show List.lookup "a.B" _ = some "long/b.h" by decide +kernel, Option.some_or]
  · rw [hmapped, show List.lookup "e.F" _ = none by decide +kernel, Option.none_or]

theorem readMappings_eq_ok {map : HeaderMap} {text : String} {entries : List Entry}
    {unfinished : Option Entry} (h : Groups 1 (lines text.toList) entries unfinished) {count : Nat}
    (hread : (map.readMappings text).2 = .ok count) :
    (∀ entry ∈ entries, entry.HasHeader) ∧ unfinished = none ∧ count = entries.length ∧
      (map.readMappings text).1 = map.putAll (entries.map Entry.mapping) := by
  have henters := enters_enter map unfinished entries
  rw [← readMappings_eq h map] at henters
  generalize map.readMappings text = result at henters hread
  cases henters with
  | all hall =>
    cases hread
    exact ⟨hall, rfl, rfl, rfl⟩
  | noHeader | unfinished => cases hread

/-- Texts of which the first ends with a complete line and reads without a fault are read one after
the other as they are read as one text. -/
theorem readMappings_append_eq {map : HeaderMap} {a b : String} {count : Nat}
    (hend : ∀ c ∈ a.toList.getLast?, c = '\n') (hread : (map.readMappings a).2 = .ok count) :
    map.readMappings (a ++ b) =
      (((map.readMappings a).1.readMappings b).1,
        (((map.readMappings a).1.readMappings b).2.map (count + ·)).mapError
          (MappingFault.behind (lines a.toList).length)) := by
  obtain ⟨front, open?, ha⟩ := exists_groups 1 (lines a.toList)
  obtain ⟨entries, unfinished, hb⟩ := exists_groups 1 (lines b.toList)
  obtain ⟨hfront, rfl, rfl, hmap⟩ := readMappings_eq_ok ha hread
  have hjoined := ha.append (hb.behind (lines a.toList).length)
  rw [← lines_append hend, ← String.toList_append] at hjoined
  rw [hmap, readMappings_eq hjoined, readMappings_eq hb, enter_append hfront, Nat.zero_add]
  exact enter_behind _ front.length _ 0 unfinished entries

/-- **Reading texts one after the other is reading them joined.** Let a text be empty or end with a
line feed, and let it be read without a fault. Then reading it joined with another text gives the
same map as reading the other text after it. It is read without a fault exactly if the other text
is, the number of mappings is the sum of both, and a fault in the other text is reported on its line
there plus the number of lines of the first text. -/
theorem readMappings_append (map : HeaderMap) (a b : String) (count : Nat)
    (hend : a = "" ∨ a.toList.getLast? = some '\n')
    (hread : (map.readMappings a).2 = .ok count) :
    let joined := map.readMappings (a ++ b)
    let second := (map.readMappings a).1.readMappings b
    joined.1 = second.1 ∧
      (∀ total, joined.2 = .ok total ↔ ∃ more, second.2 = .ok more ∧ total = count + more) ∧
      (∀ fault, joined.2 = .error fault ↔
        ∃ line problem, second.2 = .error ⟨line, problem⟩ ∧
          fault = ⟨line + (lines a.toList).length, problem⟩) := by
  intro joined second
  have hcomplete : ∀ c ∈ a.toList.getLast?, c = '\n' := by
    rcases hend with rfl | hend
    · simp
    · simp [hend, eq_comm]
  have heq : joined = (second.1, (second.2.map (count + ·)).mapError
      (MappingFault.behind (lines a.toList).length)) :=
    readMappings_append_eq hcomplete hread
  rw [heq]
  refine ⟨rfl, fun total => mapError_map_eq_ok_iff, fun fault => ?_⟩
  rw [mapError_map_eq_error_iff]
  constructor
  · rintro ⟨⟨line, problem⟩, hfirst, rfl⟩
    exact ⟨line, problem, hfirst, rfl⟩
  · rintro ⟨line, problem, hfirst, rfl⟩
    exact ⟨⟨line, problem⟩, hfirst, rfl⟩

/-- A text with a comment, a continued entry and a lone backslash at its end, each line ended by a
carriage return and a line feed. -/
def continuedMappings : String :=
  "# classes\r\na.B=long/\\\r\n  B.h\r\n\\\r\n"

theorem readMappings_append_continuedMappings :
    readMappings {} continuedMappings = (({} : HeaderMap).put "a.B" "long/B.h", .ok 1) ∧
      (readMappings {} (continuedMappings ++ "c.D d.h\n\ne.F\n")).1 =
        (({} : HeaderMap).put "a.B" "long/B.h").put "c.D" "d.h" ∧
      (readMappings {} (continuedMappings ++ "c.D d.h\n\ne.F\n")).2 =
        .error ⟨7, .noHeader "e.F"⟩ := by
  obtain ⟨hmap, -, hfault⟩ := readMappings_append {} continuedMappings "c.D d.h\n\ne.F\n" 1
    (.inr (by decide)) rfl
  exact ⟨rfl, hmap, (hfault _).2 ⟨3, .noHeader "e.F", rfl, rfl⟩⟩

end HeaderMap

end ProtoExtensions
