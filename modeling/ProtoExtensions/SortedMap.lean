/-!
Finite maps from strings to values, kept as a list of entries in strictly increasing key order. The
order of strings is that of their code points, which is also the order of their UTF-8 bytes. As keys
are sorted and unique, two maps with the same lookups are the same map.
-/

namespace ProtoExtensions

/-- A map whose entries are listed in strictly increasing key order. -/
structure SortedMap (α : Type) where
  entries : List (String × α) := []
  sorted : entries.Pairwise (fun a b => a.1 < b.1) := by exact List.Pairwise.nil

namespace SortedMap

variable {α : Type}

/-- The map without entries. -/
def empty : SortedMap α := {}

instance : Inhabited (SortedMap α) := ⟨empty⟩

section Entries

variable {κ : Type} [LT κ] [DecidableLT κ]

/-- An entry put into a sorted list in place of the one with its key, if there is one. -/
def insertEntry (key : κ) (value : α) : List (κ × α) → List (κ × α)
  | [] => [(key, value)]
  | entry :: rest =>
    if key < entry.1 then (key, value) :: entry :: rest
    else if entry.1 < key then entry :: insertEntry key value rest
    else (key, value) :: rest

variable {key : κ} {value : α} {entries : List (κ × α)}

theorem mem_insertEntry {entry : κ × α} (h : entry ∈ insertEntry key value entries) :
    entry = (key, value) ∨ entry ∈ entries := by
  induction entries with
  | nil => simpa [insertEntry] using h
  | cons first rest ih =>
    simp only [insertEntry] at h
    split at h
    · simpa using h
    · split at h
      · rcases List.mem_cons.1 h with rfl | h
        · simp
        · rcases ih h with h | h <;> simp [h]
      · rcases List.mem_cons.1 h with h | h <;> simp [h]

theorem insertEntry_sorted [Trans (α := κ) (· < ·) (· < ·) (· < ·)]
    [Std.Trichotomous (α := κ) (· < ·)] (h : entries.Pairwise (fun a b => a.1 < b.1)) :
    (insertEntry key value entries).Pairwise (fun a b => a.1 < b.1) := by
  induction entries with
  | nil => simp [insertEntry]
  | cons first rest ih =>
    obtain ⟨hfirst, hrest⟩ := List.pairwise_cons.1 h
    simp only [insertEntry]
    split
    · next hlt =>
      refine List.pairwise_cons.2 ⟨fun entry hentry => ?_, h⟩
      rcases List.mem_cons.1 hentry with rfl | hentry
      · exact hlt
      · exact Trans.trans hlt (hfirst entry hentry)
    · next hnlt =>
      split
      · next hgt =>
        refine List.pairwise_cons.2 ⟨fun entry hentry => ?_, ih hrest⟩
        rcases mem_insertEntry hentry with rfl | hentry
        · exact hgt
        · exact hfirst entry hentry
      · next hngt =>
        have heq : key = first.1 := Std.Trichotomous.trichotomous _ _ hnlt hngt
        exact List.pairwise_cons.2 ⟨fun entry hentry => heq ▸ hfirst entry hentry, hrest⟩

variable [BEq κ] [LawfulBEq κ]

theorem lookup_insertEntry_self [Std.Irrefl (α := κ) (· < ·)] (key : κ) (value : α)
    (entries : List (κ × α)) : (insertEntry key value entries).lookup key = some value := by
  induction entries with
  | nil => simp [insertEntry]
  | cons first rest ih =>
    obtain ⟨name, old⟩ := first
    simp only [insertEntry]
    split
    · simp
    · split
      · next hgt =>
        have hne : (key == name) = false := by
          refine beq_false_of_ne ?_
          rintro rfl
          exact Std.Irrefl.irrefl _ hgt
        simp [List.lookup_cons, hne, ih]
      · simp

theorem lookup_insertEntry_other [Std.Trichotomous (α := κ) (· < ·)] {other : κ} (h : other ≠ key)
    (value : α) (entries : List (κ × α)) :
    (insertEntry key value entries).lookup other = entries.lookup other := by
  have hkey : (other == key) = false := by simpa using h
  induction entries with
  | nil => simp [insertEntry, List.lookup_cons, hkey]
  | cons first rest ih =>
    obtain ⟨name, old⟩ := first
    simp only [insertEntry]
    split
    · simp [List.lookup_cons, hkey]
    · split
      · simp [List.lookup_cons, ih]
      · next hnlt hngt =>
        have heq : key = name := Std.Trichotomous.trichotomous _ _ hnlt hngt
        simp [List.lookup_cons, hkey, ← heq]

omit [DecidableLT κ] in
theorem lookup_eq_some_iff [Std.Irrefl (α := κ) (· < ·)]
    (h : entries.Pairwise (fun a b => a.1 < b.1)) :
    entries.lookup key = some value ↔ (key, value) ∈ entries := by
  induction entries with
  | nil => simp
  | cons first rest ih =>
    obtain ⟨name, held⟩ := first
    obtain ⟨hfirst, hrest⟩ := List.pairwise_cons.1 h
    by_cases hkey : key = name
    · subst hkey
      have hnot : (key, value) ∉ rest := fun hmem => Std.Irrefl.irrefl key (hfirst _ hmem)
      simp [hnot, eq_comm]
    · have hbeq : (key == name) = false := by simpa using hkey
      simp [List.lookup_cons, hbeq, hkey, ih hrest]

end Entries

/-- The map with a value under a key; a value the key had before is replaced. -/
def insert (map : SortedMap α) (key : String) (value : α) : SortedMap α :=
  ⟨insertEntry key value map.entries, insertEntry_sorted map.sorted⟩

/-- The value under a key. -/
def get? (map : SortedMap α) (key : String) : Option α :=
  map.entries.lookup key

/-- The number of entries. -/
def size (map : SortedMap α) : Nat :=
  map.entries.length

/-- Whether the map has no entry. -/
def isEmpty (map : SortedMap α) : Bool :=
  map.entries.isEmpty

/-- The map with several entries put in, one after the other. -/
def insertAll (map : SortedMap α) (entries : List (String × α)) : SortedMap α :=
  entries.foldl (fun map entry => map.insert entry.1 entry.2) map

/-- The keys in increasing order. -/
def keys (map : SortedMap α) : List String :=
  map.entries.map Prod.fst

@[simp] theorem get?_empty (key : String) : (empty : SortedMap α).get? key = none := rfl

@[simp] theorem get?_insert_self (map : SortedMap α) (key : String) (value : α) :
    (map.insert key value).get? key = some value :=
  lookup_insertEntry_self key value map.entries

theorem get?_insert_other {key other : String} (h : other ≠ key) (map : SortedMap α) (value : α) :
    (map.insert key value).get? other = map.get? other :=
  lookup_insertEntry_other h value map.entries

theorem mem_map_fst_insertEntry {key other : String} {value : α} {entries : List (String × α)} :
    other ∈ (insertEntry key value entries).map Prod.fst ↔
      other = key ∨ other ∈ entries.map Prod.fst := by
  induction entries with
  | nil => simp [insertEntry]
  | cons first rest ih =>
    simp only [insertEntry]
    split
    · simp
    · split
      · simp only [List.map_cons, List.mem_cons, ih]
        exact or_left_comm
      · next hnlt hngt =>
        have heq : key = first.1 :=
          String.le_antisymm (String.not_lt.1 hngt) (String.not_lt.1 hnlt)
        simp [heq]

theorem mem_keys_insert {map : SortedMap α} {key other : String} {value : α} :
    other ∈ (map.insert key value).keys ↔ other = key ∨ other ∈ map.keys :=
  mem_map_fst_insertEntry

theorem mem_keys_insertAll {entries : List (String × α)} {map : SortedMap α} {other : String} :
    other ∈ (map.insertAll entries).keys ↔ other ∈ entries.map Prod.fst ∨ other ∈ map.keys := by
  induction entries generalizing map with
  | nil => simp [insertAll]
  | cons entry rest ih =>
    rw [show map.insertAll (entry :: rest) = (map.insert entry.1 entry.2).insertAll rest from rfl,
      ih, mem_keys_insert]
    simp only [List.map_cons, List.mem_cons]
    exact or_left_comm.trans or_assoc.symm

theorem nodup_keys (map : SortedMap α) : map.keys.Nodup := by
  rw [keys, List.Nodup, List.pairwise_map]
  exact map.sorted.imp fun {a b} h => String.ne_of_lt h

theorem insertAll_append (map : SortedMap α) (a b : List (String × α)) :
    map.insertAll (a ++ b) = (map.insertAll a).insertAll b := by
  simp [insertAll]

theorem get?_insertAll_of_not_mem {key : String} {entries : List (String × α)}
    (h : key ∉ entries.map Prod.fst) (map : SortedMap α) :
    (map.insertAll entries).get? key = map.get? key := by
  induction entries generalizing map with
  | nil => rfl
  | cons entry rest ih =>
    simp only [List.map_cons, List.mem_cons, not_or] at h
    exact (ih h.2 _).trans (get?_insert_other h.1 map entry.2)

theorem length_insertEntry_le (key : String) (value : α) (entries : List (String × α)) :
    (insertEntry key value entries).length ≤ entries.length + 1 := by
  induction entries with
  | nil => simp [insertEntry]
  | cons first rest ih =>
    simp only [insertEntry]
    split
    · simp
    · split
      · simpa using ih
      · simp

theorem size_insert_le (map : SortedMap α) (key : String) (value : α) :
    (map.insert key value).size ≤ map.size + 1 :=
  length_insertEntry_le key value map.entries

theorem insertEntry_eq_append {key : String} {entries : List (String × α)}
    (h : ∀ entry ∈ entries, entry.1 < key) (value : α) :
    insertEntry key value entries = entries ++ [(key, value)] := by
  induction entries with
  | nil => rfl
  | cons first rest ih =>
    have hfirst : first.1 < key := h first (by simp)
    rw [insertEntry, if_neg (String.lt_asymm hfirst), if_pos hfirst,
      ih fun entry hentry => h entry (List.mem_cons_of_mem _ hentry), List.cons_append]

theorem entries_insertAll_of_sorted {entries : List (String × α)} {map : SortedMap α}
    (h : (map.entries ++ entries).Pairwise (fun a b => a.1 < b.1)) :
    (map.insertAll entries).entries = map.entries ++ entries := by
  induction entries generalizing map with
  | nil => simp [insertAll]
  | cons entry rest ih =>
    have hput : (map.insert entry.1 entry.2).entries = map.entries ++ [entry] :=
      insertEntry_eq_append (fun old hold =>
        (List.pairwise_append.1 h).2.2 old hold entry (List.mem_cons_self ..)) entry.2
    have hnext : ((map.insert entry.1 entry.2).insertAll rest).entries =
        (map.insert entry.1 entry.2).entries ++ rest :=
      ih (by rw [hput]; simpa using h)
    rw [show map.insertAll (entry :: rest) = (map.insert entry.1 entry.2).insertAll rest from rfl,
      hnext, hput, List.append_assoc, List.singleton_append]

theorem eq_of_entries_eq : ∀ {a b : SortedMap α}, a.entries = b.entries → a = b
  | ⟨_, _⟩, ⟨_, _⟩, rfl => rfl

theorem insertAll_entries (map : SortedMap α) :
    (empty : SortedMap α).insertAll map.entries = map := by
  have h : (empty.insertAll map.entries).entries = map.entries :=
    entries_insertAll_of_sorted (by simpa [empty] using map.sorted)
  rw [eq_of_entries_eq h]

/-- Sorted lists of entries with the same lookups are the same list. -/
theorem entries_eq_of_lookup_eq {a b : List (String × α)}
    (ha : a.Pairwise (fun x y => x.1 < y.1)) (hb : b.Pairwise (fun x y => x.1 < y.1))
    (h : ∀ key, a.lookup key = b.lookup key) : a = b := by
  have hdistinct {entries : List (String × α)}
      (hentries : entries.Pairwise (fun x y => x.1 < y.1)) : entries.Nodup :=
    hentries.imp fun hlt heq => String.ne_of_lt hlt (congrArg Prod.fst heq)
  have hperm : a.Perm b := by
    rw [List.perm_ext_iff_of_nodup (hdistinct ha) (hdistinct hb)]
    rintro ⟨key, value⟩
    rw [← lookup_eq_some_iff ha, ← lookup_eq_some_iff hb, h]
  refine hperm.eq_of_pairwise (fun x y _ _ hxy hyx => ?_) ha hb
  exact absurd (String.lt_trans hxy hyx) (String.lt_irrefl x.1)

/-- Two maps with the same under every key are the same map. -/
theorem eq_of_get?_eq {a b : SortedMap α} (h : ∀ key, a.get? key = b.get? key) : a = b :=
  eq_of_entries_eq (entries_eq_of_lookup_eq a.sorted b.sorted h)

/-- A key holds the last of what is put in under it, or else what it held before. -/
theorem get?_insertAll (map : SortedMap α) (entries : List (String × α)) (key : String) :
    (map.insertAll entries).get? key = (entries.reverse.lookup key).or (map.get? key) := by
  induction entries generalizing map with
  | nil => simp [insertAll]
  | cons entry rest ih =>
    obtain ⟨name, value⟩ := entry
    rw [show map.insertAll ((name, value) :: rest) =
        (map.insert name value).insertAll rest from rfl, ih, List.reverse_cons,
      List.lookup_append, Option.or_assoc]
    congr 1
    by_cases hkey : key = name
    · subst hkey
      rw [get?_insert_self, List.lookup_cons_self, Option.some_or]
    · have hbeq : (key == name) = false := by simpa using hkey
      rw [get?_insert_other hkey, List.lookup_cons, hbeq]
      rfl

/-- Entries with different keys can be put in in any order. -/
theorem insert_comm {key other : String} (h : key ≠ other) (map : SortedMap α) (value held : α) :
    (map.insert key value).insert other held = (map.insert other held).insert key value := by
  refine eq_of_get?_eq fun name => ?_
  by_cases hkey : name = key
  · subst hkey
    rw [get?_insert_other h, get?_insert_self, get?_insert_self]
  · by_cases hother : name = other
    · subst hother
      rw [get?_insert_self, get?_insert_other hkey, get?_insert_self]
    · rw [get?_insert_other hother, get?_insert_other hkey, get?_insert_other hkey,
        get?_insert_other hother]

theorem insertAll_insertAll_self (map : SortedMap α) (entries : List (String × α)) :
    (map.insertAll entries).insertAll entries = map.insertAll entries := by
  refine eq_of_get?_eq fun key => ?_
  rw [get?_insertAll, get?_insertAll, ← Option.or_assoc, Option.or_self]

/-- The order of entries with distinct keys does not matter. -/
theorem insertAll_perm {entries entries' : List (String × α)} (h : entries.Perm entries')
    (hkeys : (entries.map Prod.fst).Nodup) (map : SortedMap α) :
    map.insertAll entries = map.insertAll entries' := by
  induction h generalizing map with
  | nil => rfl
  | cons entry _ ih =>
    rw [List.map_cons, List.nodup_cons] at hkeys
    exact ih hkeys.2 (map.insert entry.1 entry.2)
  | swap a b rest =>
    have hne : b.1 ≠ a.1 := by
      simp only [List.map_cons, List.nodup_cons, List.mem_cons, not_or] at hkeys
      exact hkeys.1.1
    exact congrArg (fun map => insertAll map rest) (insert_comm hne map b.2 a.2)
  | trans hfirst _ ihfirst ihsecond =>
    rw [ihfirst hkeys, ihsecond ((hfirst.map Prod.fst).nodup_iff.1 hkeys)]

end SortedMap

end ProtoExtensions
