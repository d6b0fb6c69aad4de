/-!
Sets of names that remember the order in which the names came. A name that is already there is not
added again. Generated files list such a set in the order of the names.
-/

namespace ProtoExtensions

/-- Distinct names in order of arrival. -/
structure NameSet where
  names : List String := []
  nodup : names.Nodup := by exact List.nodup_nil

namespace NameSet

/-- The set without names. -/
def empty : NameSet := {}

/-- Whether a name is in the set. -/
def contains (set : NameSet) (name : String) : Bool :=
  set.names.contains name

/-- The set with a name added at the end, unless it is there already. -/
def insert (set : NameSet) (name : String) : NameSet :=
  if h : name ∈ set.names then set
  else ⟨set.names ++ [name], List.nodup_append.2
    ⟨set.nodup, by simp, fun _ ha b hb => by
      rintro rfl
      exact h (by simpa [List.mem_singleton.1 hb] using ha)⟩⟩

/-- The set with several names added in turn. -/
def insertAll (set : NameSet) (names : List String) : NameSet :=
  names.foldl insert set

/-- The set without a name. The other names keep their order. -/
def erase (set : NameSet) (name : String) : NameSet :=
  ⟨set.names.filter (· != name), set.nodup.filter _⟩

/-- The number of names. -/
def size (set : NameSet) : Nat :=
  set.names.length

/-- Whether the set has no name. -/
def isEmpty (set : NameSet) : Bool :=
  set.names.isEmpty

/-- The names in increasing order. -/
def sorted (set : NameSet) : List String :=
  set.names.mergeSort (fun a b => a ≤ b)

@[simp] theorem mem_insert {set : NameSet} {name other : String} :
    other ∈ (set.insert name).names ↔ other ∈ set.names ∨ other = name := by
  unfold insert
  split
  · next h =>
    exact ⟨.inl, fun h' => h'.elim id (· ▸ h)⟩
  · simp

@[simp] theorem mem_erase {set : NameSet} {name other : String} :
    other ∈ (set.erase name).names ↔ other ∈ set.names ∧ other ≠ name := by
  simp [erase]

@[simp] theorem mem_insertAll {set : NameSet} {names : List String} {other : String} :
    other ∈ (set.insertAll names).names ↔ other ∈ set.names ∨ other ∈ names := by
  induction names generalizing set with
  | nil => simp [insertAll]
  | cons name rest ih =>
    rw [show set.insertAll (name :: rest) = (set.insert name).insertAll rest from rfl, ih]
    simp [or_assoc]

@[simp] theorem mem_sorted {set : NameSet} {name : String} :
    name ∈ set.sorted ↔ name ∈ set.names :=
  List.mem_mergeSort

theorem eq_of_increasing {a b : List String} (ha : a.Pairwise (· < ·)) (hb : b.Pairwise (· < ·))
    (h : ∀ name, name ∈ a ↔ name ∈ b) : a = b := by
  have hnodup {names : List String} (hnames : names.Pairwise (· < ·)) : names.Nodup :=
    hnames.imp fun {x y} hlt => by
      rintro rfl
      exact String.lt_irrefl x hlt
  have hperm : a.Perm b :=
    (List.perm_ext_iff_of_nodup (hnodup ha) (hnodup hb)).2 fun name => h name
  exact hperm.eq_of_pairwise (fun x y _ _ hxy hyx => absurd hyx (String.lt_asymm hxy)) ha hb

/-- The sorted names are strictly increasing, as no name is there twice. -/
theorem sorted_increasing (set : NameSet) : set.sorted.Pairwise (· < ·) := by
  have hle : set.sorted.Pairwise (fun a b => decide (a ≤ b) = true) := by
    refine List.pairwise_mergeSort (fun a b c hab hbc => ?_) (fun a b => ?_) set.names
    · exact decide_eq_true (String.le_trans (of_decide_eq_true hab) (of_decide_eq_true hbc))
    · simpa using String.le_total a b
  have hnodup : set.sorted.Nodup := (List.mergeSort_perm _ _).nodup_iff.2 set.nodup
  refine List.Pairwise.imp (fun h => ?_) (hle.and hnodup)
  exact String.not_le.1 fun hba => h.2 (String.le_antisymm (of_decide_eq_true h.1) hba)

theorem sorted_eq {set : NameSet} {names : List String} (h : names.Pairwise (· < ·))
    (hmem : ∀ name, name ∈ set.names ↔ name ∈ names) : set.sorted = names :=
  eq_of_increasing set.sorted_increasing h fun name => mem_sorted.trans (hmem name)

theorem sorted_eq_of_mem_iff {a b : NameSet} (h : ∀ name, name ∈ a.names ↔ name ∈ b.names) :
    a.sorted = b.sorted :=
  sorted_eq b.sorted_increasing fun name => (h name).trans mem_sorted.symm

end NameSet

end ProtoExtensions
