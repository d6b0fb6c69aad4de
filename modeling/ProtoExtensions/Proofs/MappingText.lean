import ProtoExtensions.HeaderMap.Properties
import ProtoExtensions.Text.Lines

/-!
Reading back written mappings. The written form has no escapes, so what it means is decided by the
edges of names and headers. Whatever a text says, the mappings read from it have names and headers
that are `Readable`: the name has no separator and does not start as a comment does, the header has
no blank at either end, and neither has a line feed. A readable mapping is found again on its line,
unless its header ends in a backslash: there the reader takes the next line to belong to the entry.
-/

namespace ProtoExtensions

namespace Properties

/-! ### Readable mappings -/

/-- The line on which a mapping is written, without its line feed. -/
def writtenLine (name header : List Char) : List Char :=
  name ++ '=' :: header

/-- A text that reads as an entry from its first character on: it starts with no blank and with no
comment sign. -/
def StartsEntry (text : List Char) : Prop :=
  ∀ c ∈ text.head?, isBlank c = false ∧ c ≠ '#' ∧ c ≠ '!'

/-- A name and a header that stand in the written form for themselves, up to a backslash at the end
of the header. -/
structure Readable (name header : List Char) : Prop where
  unseparated : ∀ c ∈ name, isSeparator c = false
  name_newline : '\n' ∉ name
  name_starts : StartsEntry name
  header_ne_nil : header ≠ []
  header_newline : '\n' ∉ header
  header_head : ∀ c ∈ header.head?, isBlank c = false
  header_last : ∀ c ∈ header.getLast?, isBlank c = false

instance (text : List Char) : Decidable (StartsEntry text) :=
  decidable_of_iff (text.head?.all fun c => !isBlank c && c != '#' && c != '!') <| by
    simp [StartsEntry, Option.all_eq_true, and_assoc]

instance (name header : List Char) : Decidable (Readable name header) :=
  decidable_of_iff
    (name.all (!isSeparator ·) ∧ '\n' ∉ name ∧ StartsEntry name ∧ header ≠ [] ∧ '\n' ∉ header ∧
      header.head?.all (!isBlank ·) ∧ header.getLast?.all (!isBlank ·))
    ⟨fun ⟨hname, hnewline, hstarts, hne, hheader, hhead, hlast⟩ =>
        ⟨by simpa using hname, hnewline, hstarts, hne, hheader,
          by simpa [Option.all_eq_true] using hhead, by simpa [Option.all_eq_true] using hlast⟩,
      fun h => ⟨by simpa using h.unseparated, h.name_newline, h.name_starts, h.header_ne_nil,
        h.header_newline, by simpa [Option.all_eq_true] using h.header_head,
        by simpa [Option.all_eq_true] using h.header_last⟩⟩

theorem StartsEntry.nil : StartsEntry [] := by
  intro c hc
  simp at hc

theorem StartsEntry.equalsSign (rest : List Char) : StartsEntry ('=' :: rest) := by
  intro c hc
  obtain rfl : '=' = c := by simpa using hc
  decide

theorem StartsEntry.trimStart_eq {text : List Char} (h : StartsEntry text) :
    trimStart text = text :=
  trimStart_eq_self fun c hc => (h c hc).1

theorem StartsEntry.shorten {a b : List Char} (hb : StartsEntry b) (h : a <+: b) :
    StartsEntry a := by
  obtain ⟨rest, rfl⟩ := h
  intro c hc
  rw [Option.mem_def] at hc
  exact hb c (by rw [List.head?_append, hc]; rfl)

theorem StartsEntry.append {a b : List Char} (ha : StartsEntry a) (hb : a = [] → StartsEntry b) :
    StartsEntry (a ++ b) := by
  cases a with
  | nil => exact hb rfl
  | cons first rest => exact ha

theorem StartsEntry.isSkipped_eq_false {text : List Char} (h : StartsEntry text) (hne : text ≠ []) :
    isSkipped text = false := by
  cases text with
  | nil => exact absurd rfl hne
  | cons first rest =>
    obtain ⟨-, hhash, hbang⟩ := h first rfl
    simp [isSkipped, hhash, hbang]

theorem StartsEntry.of_isSkipped {raw : List Char} (h : isSkipped (trimStart raw) = false) :
    StartsEntry (trimStart raw) := by
  intro c hc
  have hblank : isBlank c = false := isBlank_of_mem_head?_trimStart hc
  cases ht : trimStart raw with
  | nil => simp [ht] at hc
  | cons first rest =>
    obtain rfl : first = c := by simpa [ht] using hc
    have hsigns : ¬(first = '#' ∨ first = '!') := by simpa [ht, isSkipped] using h
    exact ⟨hblank, fun e => hsigns (.inl e), fun e => hsigns (.inr e)⟩

theorem mem_dropSign {text : List Char} {c : Char} (h : c ∈ dropSign text) : c ∈ text := by
  unfold dropSign at h
  split at h
  · exact List.mem_cons_of_mem _ h
  · exact List.mem_cons_of_mem _ h
  · exact h

theorem Readable.of_splitEntry {entry : List Char} (hstarts : StartsEntry entry)
    (hnewline : '\n' ∉ entry) (hheader : (splitEntry entry).2 ≠ []) :
    Readable (splitEntry entry).1 (splitEntry entry).2 where
  unseparated c hc := by
    simpa using List.all_eq_true.1 List.all_takeWhile c hc
  name_newline hc := hnewline ((List.takeWhile_prefix _).mem hc)
  name_starts := hstarts.shorten (List.takeWhile_prefix _)
  header_ne_nil := hheader
  header_newline hc := by
    have hdropped : '\n' ∈ entry.dropWhile (!isSeparator ·) :=
      (suffix_trimStart _).mem (mem_dropSign (mem_of_mem_trim hc))
    exact hnewline ((List.dropWhile_suffix _).mem hdropped)
  header_head _ hc := isBlank_of_mem_head?_trim hc
  header_last _ hc := isBlank_of_mem_getLast?_trim hc

namespace Readable

variable {name header : List Char}

theorem splitEntry_writtenLine (h : Readable name header) :
    splitEntry (writtenLine name header) = (name, header) := by
  have hname : ∀ c ∈ name, (!isSeparator c) = true := by
    intro c hc
    simp [h.unseparated c hc]
  have htake : (writtenLine name header).takeWhile (!isSeparator ·) = name := by
    rw [writtenLine, List.takeWhile_append_of_pos hname]
    simp [isSeparator]
  have hdrop : (writtenLine name header).dropWhile (!isSeparator ·) = '=' :: header := by
    rw [writtenLine, List.dropWhile_append_of_pos hname]
    simp [isSeparator]
  have htrim : trim header = header := by
    rw [trim, trimStart_eq_self h.header_head, trimEnd_eq_self h.header_last]
  rw [splitEntry, htake, hdrop, (StartsEntry.equalsSign header).trimStart_eq]
  exact congrArg (Prod.mk name) htrim

theorem startsEntry_writtenLine (h : Readable name header) :
    StartsEntry (writtenLine name header) :=
  h.name_starts.append fun _ => .equalsSign header

theorem getLast?_writtenLine (h : Readable name header) :
    (writtenLine name header).getLast? = header.getLast? := by
  rw [writtenLine, List.append_cons, List.getLast?_append, Option.or_of_isSome]
  simpa using h.header_ne_nil

theorem not_mem_writtenLine (h : Readable name header) : '\n' ∉ writtenLine name header := by
  simp [writtenLine, h.name_newline, h.header_newline]

end Readable

/-! ### One line -/

/-- The line on which the entry starts that a line belongs to. -/
def Reading.startLine (reading : Reading) (number : Nat) : Nat :=
  if reading.pending.isEmpty then number else reading.start

/-- What a line that is no fault does to a reading. -/
inductive Reads (reading : Reading) (number : Nat) (raw : List Char) : Reading → Prop where
  | skip :
    reading.pending = [] →
    isSkipped (trimStart raw) = true →
    Reads reading number raw reading
  | continue (text : List Char) :
    trimStart raw = text ++ ['\\'] →
    (reading.pending = [] → isSkipped (trimStart raw) = false) →
    Reads reading number raw
      { reading with pending := reading.pending ++ text, start := reading.startLine number }
  | entry (name header : List Char) :
    continued? (trimStart raw) = none →
    (reading.pending = [] → isSkipped (trimStart raw) = false) →
    splitEntry (reading.pending ++ trimStart raw) = (name, header) →
    header ≠ [] →
    Reads reading number raw
      { map := reading.map.put (String.ofList name) (String.ofList header)
        count := reading.count + 1
        pending := []
        start := reading.startLine number }

theorem continued?_eq_none_iff {line : List Char} :
    continued? line = none ↔ line.getLast? ≠ some '\\' := by
  simp [continued?]

theorem continued?_eq_some_iff {line text : List Char} :
    continued? line = some text ↔ line = text ++ ['\\'] := by
  constructor
  · intro h
    by_cases hlast : line.getLast? = some '\\'
    · obtain ⟨before, rfl⟩ := List.getLast?_eq_some_iff.1 hlast
      obtain rfl : before = text := by simpa [continued?] using h
      rfl
    · simp [continued?, hlast] at h
  · rintro rfl
    simp [continued?]

/-- A line that is no fault does one of three things. -/
theorem reads_of_readLine {reading next : Reading} {number : Nat} {raw : List Char}
    (h : readLine reading number raw = .ok next) : Reads reading number raw next := by
  simp only [readLine] at h
  split at h
  · next hskip =>
    obtain ⟨hpending, hskipped⟩ : reading.pending = [] ∧ isSkipped (trimStart raw) = true := by
      simpa using hskip
    cases h
    exact .skip hpending hskipped
  · next hskip =>
    have hskipped : reading.pending = [] → isSkipped (trimStart raw) = false := by
      simpa using hskip
    split at h
    · next text htext =>
      cases h
      exact .continue text (continued?_eq_some_iff.1 htext) hskipped
    · next hlast =>
      split at h
      · cases h
      · next hheader =>
        cases h
        exact .entry _ _ hlast hskipped rfl (by simpa using hheader)

theorem readLine_writtenLine {name header : List Char} (h : Readable name header)
    (hlast : header.getLast? ≠ some '\\') (map : HeaderMap) (count start number : Nat) :
    readLine ⟨map, count, [], start⟩ number (writtenLine name header) =
      .ok ⟨map.put (String.ofList name) (String.ofList header), count + 1, [], number⟩ := by
  have hskip : isSkipped (writtenLine name header) = false :=
    h.startsEntry_writtenLine.isSkipped_eq_false (by simp [writtenLine])
  have hcontinued : continued? (writtenLine name header) = none := by
    rw [continued?_eq_none_iff, h.getLast?_writtenLine]
    exact hlast
  simp [readLine, h.startsEntry_writtenLine.trimStart_eq, hskip, hcontinued,
    h.splitEntry_writtenLine, h.header_ne_nil]

/-! ### All lines -/

/-- The mappings of a header map are readable. -/
def AllReadable (map : HeaderMap) : Prop :=
  ∀ entry ∈ map.mappings.entries, Readable entry.1.toList entry.2.toList

/-- What holds of a reading between any two lines. -/
structure Reading.Sound (reading : Reading) : Prop where
  readable : AllReadable reading.map
  pending_starts : StartsEntry reading.pending
  pending_newline : '\n' ∉ reading.pending

theorem AllReadable.put {map : HeaderMap} (h : AllReadable map) {name header : List Char}
    (hnew : Readable name header) :
    AllReadable (map.put (String.ofList name) (String.ofList header)) := by
  intro entry hentry
  rcases SortedMap.mem_insertEntry hentry with heq | hold
  · subst heq
    simpa using hnew
  · exact h entry hold

theorem Reading.Sound.step {reading next : Reading} (hs : reading.Sound) {number : Nat}
    {raw : List Char} (hraw : '\n' ∉ raw) (h : Reads reading number raw next) : next.Sound := by
  have htrim : '\n' ∉ trimStart raw := fun hc => hraw ((suffix_trimStart raw).mem hc)
  cases h with
  | skip => exact hs
  | «continue» text htext hskipped =>
    have hfront : text <+: trimStart raw := ⟨_, htext.symm⟩
    refine ⟨hs.readable, hs.pending_starts.append ?_, ?_⟩
    · intro hpending
      exact (StartsEntry.of_isSkipped (hskipped hpending)).shorten hfront
    · intro hc
      rcases List.mem_append.1 hc with hc | hc
      · exact hs.pending_newline hc
      · exact htrim (hfront.mem hc)
  | entry name header _ hskipped hsplit hheader =>
    have hstarts : StartsEntry (reading.pending ++ trimStart raw) :=
      hs.pending_starts.append fun hpending => .of_isSkipped (hskipped hpending)
    have hnewline : '\n' ∉ reading.pending ++ trimStart raw := by
      simp [hs.pending_newline, htrim]
    have hread := Readable.of_splitEntry hstarts hnewline (by rw [hsplit]; exact hheader)
    rw [hsplit] at hread
    exact ⟨hs.readable.put hread, .nil, List.not_mem_nil⟩

/-- Reading lines keeps mappings readable, also up to a fault. -/
theorem Reading.Sound.readLines {reading : Reading} (hs : reading.Sound) (number : Nat)
    {rows : List (List Char)} (h : ∀ raw ∈ rows, '\n' ∉ raw) :
    AllReadable (readLines reading number rows).1 := by
  induction rows generalizing reading number with
  | nil =>
    unfold Properties.readLines
    split <;> exact hs.readable
  | cons raw rest ih =>
    unfold Properties.readLines
    split
    · next next hnext =>
      exact ih (hs.step (h raw (by simp)) (reads_of_readLine hnext)) _
        fun other hother => h other (List.mem_cons_of_mem _ hother)
    · exact hs.readable

/-- A line after which an entry is complete. -/
def endsEntry (raw : List Char) : Bool :=
  (continued? (trimStart raw)).isNone

theorem Reads.size_le {reading next : Reading} {number : Nat} {raw : List Char}
    (h : Reads reading number raw next) :
    next.map.size ≤ reading.map.size + if endsEntry raw then 1 else 0 := by
  cases h with
  | skip => exact Nat.le_add_right _ _
  | «continue» => exact Nat.le_add_right _ _
  | entry name header hlast =>
    rw [if_pos (by simp [endsEntry, hlast])]
    exact SortedMap.size_insert_le _ _ _

/-- There are at most as many new mappings as lines that complete an entry. -/
theorem size_readLines_le (reading : Reading) (number : Nat) (rows : List (List Char)) :
    (readLines reading number rows).1.size ≤ reading.map.size + rows.countP endsEntry := by
  induction rows generalizing reading number with
  | nil =>
    unfold readLines
    split <;> simp
  | cons raw rest ih =>
    unfold readLines
    split
    · next next hnext =>
      have hstep := (reads_of_readLine hnext).size_le
      have hrest := ih next (number + 1)
      rw [List.countP_cons]
      omega
    · exact Nat.le_add_right _ _

theorem readLines_writtenLines {entries : List (String × String)}
    (h : ∀ entry ∈ entries, Readable entry.1.toList entry.2.toList)
    (hlast : ∀ entry ∈ entries, entry.2.toList.getLast? ≠ some '\\') (map : HeaderMap)
    (count start number : Nat) :
    readLines ⟨map, count, [], start⟩ number
        (entries.map fun entry => writtenLine entry.1.toList entry.2.toList) =
      ({ map with mappings := map.mappings.insertAll entries }, .ok (count + entries.length)) := by
  induction entries generalizing map count start number with
  | nil => rfl
  | cons entry rest ih =>
    have hline := readLine_writtenLine (h entry (by simp)) (hlast entry (by simp)) map count start
      number
    simp only [String.ofList_toList] at hline
    have hrest := ih (fun other hother => h other (List.mem_cons_of_mem _ hother))
      (fun other hother => hlast other (List.mem_cons_of_mem _ hother))
      (map.put entry.1 entry.2) (count + 1) number (number + 1)
    rw [List.map_cons, readLines, hline, List.length_cons, Nat.add_comm rest.length,
      ← Nat.add_assoc]
    exact hrest

end Properties

namespace HeaderMap

open Properties

/-! ### The written text -/

theorem lines_join_entries {entries : List (String × String)}
    (h : ∀ entry ∈ entries, Readable entry.1.toList entry.2.toList) :
    lines (String.join (entries.map fun entry => entry.1 ++ "=" ++ entry.2 ++ "\n")).toList =
      entries.map fun entry => writtenLine entry.1.toList entry.2.toList := by
  induction entries with
  | nil => rfl
  | cons entry rest ih =>
    have hentry : Readable entry.1.toList entry.2.toList := h entry (by simp)
    have hreturn : (writtenLine entry.1.toList entry.2.toList).getLast? ≠ some '\r' := by
      intro hlast
      rw [hentry.getLast?_writtenLine] at hlast
      exact absurd (hentry.header_last _ hlast) (by decide)
    have hline := lines_append_newline hentry.not_mem_writtenLine hreturn
      (String.join (rest.map fun entry => entry.1 ++ "=" ++ entry.2 ++ "\n")).toList
    rw [ih fun other hother => h other (List.mem_cons_of_mem _ hother)] at hline
    rw [List.map_cons, List.map_cons, ← hline]
    congr 1
    simp [writtenLine]

/-- The lines of the written text are those of the mappings. -/
theorem lines_mappingsText {map : HeaderMap} (h : AllReadable map) :
    lines map.mappingsText.toList =
      map.mappings.entries.map fun entry => writtenLine entry.1.toList entry.2.toList :=
  lines_join_entries h

theorem allReadable_readMappings {map : HeaderMap} (h : AllReadable map) (text : String) :
    AllReadable (map.readMappings text).1 :=
  Reading.Sound.readLines ⟨h, .nil, List.not_mem_nil⟩ 1 fun _ hraw => not_mem_of_mem_lines hraw

theorem allReadable_of_isEmpty (style : OutputStyle) : AllReadable { style } := by
  intro entry hentry
  cases hentry

/-- Readable mappings without a backslash at the end of a header are read back as they were. -/
theorem readMappings_mappingsText {map : HeaderMap} (h : AllReadable map)
    (hlast : ∀ entry ∈ map.mappings.entries, entry.2.toList.getLast? ≠ some '\\')
    (style : OutputStyle) :
    readMappings { style } map.mappingsText = ({ map with style }, .ok map.size) := by
  rw [readMappings, lines_mappingsText h, readLines_writtenLines h hlast,
    SortedMap.insertAll_entries, Nat.zero_add]
  rfl

/-- With a backslash at the end of a header, fewer mappings are read back. -/
theorem size_readMappings_mappingsText_lt {map : HeaderMap} (h : AllReadable map)
    {entry : String × String} (hentry : entry ∈ map.mappings.entries)
    (hlast : entry.2.toList.getLast? = some '\\') (style : OutputStyle) :
    (readMappings { style } map.mappingsText).1.size < map.size := by
  have hle := size_readLines_le ⟨{ style }, 0, [], 0⟩ 1 (lines map.mappingsText.toList)
  rw [lines_mappingsText h, List.countP_map] at hle
  have hlt : map.mappings.entries.countP
      (endsEntry ∘ fun entry => writtenLine entry.1.toList entry.2.toList) <
        map.mappings.entries.length := by
    refine Nat.lt_of_le_of_ne List.countP_le_length fun hall => ?_
    have hends := List.countP_eq_length.1 hall entry hentry
    have hread := h entry hentry
    simp [endsEntry, hread.startsEntry_writtenLine.trimStart_eq, continued?,
      hread.getLast?_writtenLine, hlast] at hends
  rw [readMappings, lines_mappingsText h]
  refine Nat.lt_of_le_of_lt hle ?_
  rw [show size { style } = 0 from rfl, Nat.zero_add]
  exact hlt

/-- **Written mappings read back exactly if no header ends in a backslash.** Of the mappings that a
text gives to a map without any, the written form is read into another map without any as the same
mappings, and they are counted, if and only if none of their headers ends in a backslash. Where one
does, already the mappings differ. The style of the maps plays no part. -/
theorem readMappings_mappingsText_readMappings (style other : OutputStyle) (text : String) :
    let map := (readMappings { style } text).1
    let again := readMappings { style := other } map.mappingsText
    let plain := ∀ entry ∈ map.mappings.entries, entry.2.toList.getLast? ≠ some '\\'
    (again = ({ map with style := other }, .ok map.size) ↔ plain) ∧
      (again.1.mappings = map.mappings ↔ plain) := by
  intro map again plain
  have hread : AllReadable map := allReadable_readMappings (allReadable_of_isEmpty style) text
  have hback : plain → again = ({ map with style := other }, .ok map.size) :=
    fun h => readMappings_mappingsText hread h other
  have hplain : again.1.mappings = map.mappings → plain := by
    intro hsame entry hentry hlast
    have hlt : again.1.size < map.size := size_readMappings_mappingsText_lt hread hentry hlast other
    simp [size, hsame] at hlt
  refine ⟨⟨fun h => hplain (by rw [h]), hback⟩, ⟨hplain, fun h => by rw [hback h]⟩⟩

/-- A map whose only header ends in a backslash. -/
def endsInBackslash : HeaderMap :=
  ({} : HeaderMap).put "a.B" "x\\"

/-- A backslash before a blank is part of the header. The written header ends its line, where it
is taken for a sign that the entry continues. -/
theorem readMappings_mappingsText_endsInBackslash :
    readMappings {} "a.B=x\\ \n" = (endsInBackslash, .ok 1) ∧
      endsInBackslash.mappingsText = "a.B=x\\\n" ∧
      readMappings {} endsInBackslash.mappingsText = ({}, .error ⟨1, .unfinished⟩) :=
  ⟨rfl, rfl, rfl⟩

/-- **The maps that their written form stands for.** Reading the written form of a map into a map
without any mappings gives the same mappings, and counts them, if and only if each of them is
readable and no header ends in a backslash. Nothing else is asked of a header: it may start with a
separator, and it may have separators, blanks and backslashes inside. -/
theorem readMappings_mappingsText_eq_iff (map : HeaderMap) (style : OutputStyle) :
    readMappings { style } map.mappingsText = ({ map with style }, .ok map.size) ↔
      ∀ entry ∈ map.mappings.entries, Readable entry.1.toList entry.2.toList ∧
        entry.2.toList.getLast? ≠ some '\\' := by
  constructor
  · intro hback
    have hread : AllReadable map := by
      have h := allReadable_readMappings (allReadable_of_isEmpty style) map.mappingsText
      rw [hback] at h
      exact h
    refine fun entry hentry => ⟨hread entry hentry, fun hlast => ?_⟩
    have hlt := size_readMappings_mappingsText_lt hread hentry hlast style
    rw [hback] at hlt
    exact Nat.lt_irrefl _ hlt
  · intro h
    exact readMappings_mappingsText (fun entry hentry => (h entry hentry).1)
      (fun entry hentry => (h entry hentry).2) style

/-- A map whose headers start with separators or have them inside, as well as backslashes. -/
def signsInHeaders : HeaderMap :=
  ((({} : HeaderMap).put "" "a\\b").put "a.B" "=x").put "c.D" ":= y"

theorem readMappings_mappingsText_signsInHeaders :
    signsInHeaders.mappingsText = "=a\\b\na.B==x\nc.D=:= y\n" ∧
      (∀ entry ∈ signsInHeaders.mappings.entries, Readable entry.1.toList entry.2.toList ∧
        entry.2.toList.getLast? ≠ some '\\') ∧
      readMappings {} signsInHeaders.mappingsText = (signsInHeaders, .ok 3) := by
  have hreadable : ∀ entry ∈ signsInHeaders.mappings.entries,
      Readable entry.1.toList entry.2.toList ∧ entry.2.toList.getLast? ≠ some '\\' := by
    decide
  exact ⟨rfl, hreadable, (readMappings_mappingsText_eq_iff signsInHeaders .package).2 hreadable⟩

end HeaderMap

end ProtoExtensions
