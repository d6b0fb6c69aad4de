import ProtoExtensions.Proofs.Confinement

/-!
The walk through a tree. Where directories list their entries in the order of their names
(`FileNode.Sorted`), which placing something in a tree does not change, a walk comes once by every
file that no closed directory hides (`FileNode.Sorted.mem_walkedFiles_iff`), in the order of the
rows of names that lead to the files (`FileNode.Sorted.walkedFiles_increasing`). That is not the
order of their paths as texts: the files of a directory `a` come before a file `a-b`.
-/

namespace ProtoExtensions

/-- All directories on the way along a row of names can be listed. -/
def ListsAlong (closed : List FileName → Bool) (row : List FileName) : Prop :=
  ∀ outer, outer <+: row → outer ≠ row → closed outer = false

theorem listsAlong_nil (closed : List FileName → Bool) : ListsAlong closed [] :=
  fun _ houter hne => absurd (List.prefix_nil.1 houter) hne

theorem listsAlong_cons {closed : List FileName → Bool} {name : FileName} {row : List FileName} :
    ListsAlong closed (name :: row) ↔
      closed [] = false ∧ ListsAlong (fun outer => closed (name :: outer)) row := by
  constructor
  · intro h
    refine ⟨h [] List.nil_prefix (List.cons_ne_nil name row).symm, fun outer houter hne => ?_⟩
    exact h (name :: outer) (List.cons_prefix_cons.2 ⟨rfl, houter⟩)
      fun heq => hne (by simpa using heq)
  · rintro ⟨hfirst, hrest⟩ outer houter hne
    cases outer with
    | nil => exact hfirst
    | cons first more =>
      obtain ⟨rfl, hmore⟩ := List.cons_prefix_cons.1 houter
      exact hrest more hmore fun heq => hne (by rw [heq])

namespace FileNode

variable {closed : List FileName → Bool} {row : List FileName}

/-- The files that a walk through the node under a row of names comes by. -/
def walkedFiles (closed : List FileName → Bool) (row : List FileName) (node : FileNode) :
    List (List FileName × ByteArray) :=
  (node.walk closed row).filterMap visitedFile?

theorem walkEntries_eq_flatMap (entries : List (FileName × FileNode)) :
    walkEntries closed row entries =
      entries.flatMap fun entry => entry.2.walk closed (row ++ [entry.1]) := by
  induction entries with
  | nil => rfl
  | cons entry rest ih =>
    rw [walkEntries, ih]
    rfl

/-- A closed directory shows no file, an open one those of its entries. -/
theorem walkedFiles_directory (entries : List (FileName × FileNode)) :
    (directory entries).walkedFiles closed row = if closed row then [] else
      entries.flatMap fun entry => entry.2.walkedFiles closed (row ++ [entry.1]) := by
  rw [walkedFiles, walk, walkEntries_eq_flatMap]
  cases closed row with
  | true => rfl
  | false =>
    simp only [Bool.false_eq_true, if_false]
    rw [List.filterMap_cons_none rfl, List.filterMap_flatMap]
    rfl

/-- Every directory of a node lists its entries in the order of their names. -/
inductive Sorted : FileNode → Prop
  | file (content : ByteArray) : Sorted (file content)
  | directory {entries : List (FileName × FileNode)}
      (hnames : entries.Pairwise (fun a b => a.1 < b.1))
      (hbelow : ∀ entry ∈ entries, Sorted entry.2) : Sorted (directory entries)

namespace Sorted

variable {node new : FileNode}

theorem empty : Sorted (FileNode.directory []) :=
  .directory .nil (by simp)

theorem of_lookup {entries : List (FileName × FileNode)} {name : FileName}
    (h : Sorted (FileNode.directory entries)) (hfound : entries.lookup name = some node) :
    node.Sorted := by
  cases h with
  | directory hnames hbelow => exact hbelow _ ((SortedMap.lookup_eq_some_iff hnames).1 hfound)

theorem of_find? {below : FileNode} {row : List FileName} (h : node.Sorted)
    (hfound : node.find? row = some below) : below.Sorted := by
  induction row generalizing node with
  | nil =>
    rw [find?] at hfound
    cases hfound
    exact h
  | cons name rest ih =>
    cases node with
    | file content => cases hfound
    | directory entries =>
      rw [find?] at hfound
      obtain ⟨inner, hinner, hfound⟩ := Option.bind_eq_some_iff.1 hfound
      exact ih (h.of_lookup hinner) hfound

theorem place (h : node.Sorted) (hnew : new.Sorted) (row : List FileName) :
    (node.place row new).Sorted := by
  induction row generalizing node with
  | nil =>
    rw [FileNode.place]
    exact hnew
  | cons name rest ih =>
    cases h with
    | file content => exact .file content
    | @directory entries hnames hbelow =>
      have hunder : ((entries.lookup name).getD (FileNode.directory [])).Sorted := by
        cases hfound : entries.lookup name with
        | none => exact empty
        | some inner => exact (Sorted.directory hnames hbelow).of_lookup hfound
      refine .directory (SortedMap.insertEntry_sorted hnames) fun entry hentry => ?_
      rcases SortedMap.mem_insertEntry hentry with rfl | hentry
      · exact ih hunder
      · exact hbelow entry hentry

/-- A walk comes by all files that no closed directory hides. -/
theorem mem_walkedFiles_iff (h : node.Sorted) {found : List FileName} {content : ByteArray} :
    (found, content) ∈ node.walkedFiles closed row ↔
      ∃ rest, found = row ++ rest ∧ node.file? rest = some content ∧
        ListsAlong (fun outer => closed (row ++ outer)) rest := by
  induction h generalizing row with
  | file held =>
    constructor
    · intro hmem
      cases List.mem_singleton.1 hmem
      exact ⟨[], by simp, rfl, listsAlong_nil _⟩
    · rintro ⟨rest, rfl, hfile, -⟩
      cases rest with
      | nil =>
        cases hfile
        simp [walkedFiles, walk, visitedFile?]
      | cons name rest => cases hfile
  | @directory entries hnames _ ih =>
    have hdeeper {name : FileName} (outer : List FileName) :
        closed (row ++ [name] ++ outer) = closed (row ++ name :: outer) := by simp
    rw [walkedFiles_directory]
    constructor
    · intro hmem
      split at hmem
      · cases hmem
      next hopen =>
      obtain ⟨⟨name, inner⟩, hentry, hmem⟩ := List.mem_flatMap.1 hmem
      obtain ⟨rest, rfl, hfile, hlists⟩ := (ih _ hentry).1 hmem
      simp only [hdeeper] at hlists
      refine ⟨name :: rest, by simp, ?_, listsAlong_cons.2 ⟨by simpa using hopen, hlists⟩⟩
      rw [file?_directory_cons, (SortedMap.lookup_eq_some_iff hnames).2 hentry]
      exact hfile
    · rintro ⟨rest, rfl, hfile, hlists⟩
      cases rest with
      | nil => cases hfile
      | cons name rest =>
        rw [file?_directory_cons] at hfile
        obtain ⟨inner, hfound, hfile⟩ := Option.bind_eq_some_iff.1 hfile
        obtain ⟨hopen, hlists⟩ := listsAlong_cons.1 hlists
        rw [List.append_nil] at hopen
        have hentry := (SortedMap.lookup_eq_some_iff hnames).1 hfound
        rw [hopen, if_neg Bool.false_ne_true]
        refine List.mem_flatMap.2
          ⟨(name, inner), hentry, (ih _ hentry).2 ⟨rest, by simp, hfile, ?_⟩⟩
        simpa only [hdeeper] using hlists

/-- A walk comes by the files in the order of the names that lead to them. -/
theorem walkedFiles_increasing (h : node.Sorted) :
    (node.walkedFiles closed row).Pairwise (fun a b => a.1 < b.1) := by
  induction h generalizing row with
  | file content => exact List.pairwise_singleton _ _
  | @directory entries hnames hbelow ih =>
    rw [walkedFiles_directory]
    split
    · exact .nil
    rw [List.pairwise_flatMap]
    refine ⟨fun entry hentry => ih entry hentry, ?_⟩
    have hpairs : entries.Pairwise fun a b => a ∈ entries ∧ b ∈ entries ∧ a.1 < b.1 :=
      hnames.imp_of_mem fun ha hb hlt => ⟨ha, hb, hlt⟩
    refine hpairs.imp ?_
    rintro ⟨a, first⟩ ⟨b, second⟩ ⟨ha, hb, hlt⟩ ⟨x, _⟩ hx ⟨y, _⟩ hy
    obtain ⟨x, rfl, -, -⟩ := (hbelow _ ha).mem_walkedFiles_iff.1 hx
    obtain ⟨y, rfl, -, -⟩ := (hbelow _ hb).mem_walkedFiles_iff.1 hy
    simp only [List.append_assoc, List.singleton_append]
    exact List.append_left_lt (List.cons_lt_cons_iff.2 (.inl hlt))

end Sorted

end FileNode

namespace FileTree

theorem exists_locate_of_lookup {tree : FileTree} {path : String} {node : FileNode}
    (h : tree.lookup path = .ok node) :
    ∃ place, tree.locate path = .ok place ∧ tree.node? place = some node := by
  obtain ⟨place, hplace, h⟩ := bind_eq_ok_iff.1 h
  cases hfound : tree.node? place with
  | none => simp [hfound] at h
  | some found =>
    obtain rfl : found = node := by simpa [hfound] using h
    exact ⟨place, hplace, hfound⟩

theorem sorted_of_lookup {tree : FileTree} {path : String} {node : FileNode}
    (hsorted : tree.root.Sorted) (h : tree.lookup path = .ok node) : node.Sorted := by
  obtain ⟨place, -, hfound⟩ := exists_locate_of_lookup h
  exact hsorted.of_find? hfound

theorem filesUnder_eq {tree : FileTree} {path : String} {place : List FileName} {node : FileNode}
    (hplace : tree.locate path = .ok place) (hnode : tree.node? place = some node) :
    tree.filesUnder path =
      (node.walkedFiles (fun row => tree.closed.contains (place ++ row)) []).map
        fun (row, content) => (row, tree.readAt (place ++ row) (.file content)) := by
  simp only [filesUnder, hplace, hnode, Option.elim_some, FileNode.walkedFiles]

section

variable {tree : FileTree} {path : String} {place : List FileName} {node : FileNode}
  (hsorted : node.Sorted) (hplace : tree.locate path = .ok place)
  (hnode : tree.node? place = some node)

include hsorted hplace hnode

theorem mem_filesUnder_iff {row : List FileName} {read : Except FileFault String} :
    (row, read) ∈ tree.filesUnder path ↔
      ∃ content, node.file? row = some content ∧
        ListsAlong (fun outer => tree.closed.contains (place ++ outer)) row ∧
        read = tree.readAt (place ++ row) (.file content) := by
  rw [filesUnder_eq hplace hnode, List.mem_map]
  constructor
  · rintro ⟨⟨row, content⟩, hmem, heq⟩
    obtain ⟨rfl, rfl⟩ := Prod.mk.inj heq
    obtain ⟨rest, rfl, hfile, hlists⟩ := hsorted.mem_walkedFiles_iff.1 hmem
    exact ⟨content, hfile, hlists, rfl⟩
  · rintro ⟨content, hfile, hlists, rfl⟩
    exact ⟨(row, content), hsorted.mem_walkedFiles_iff.2 ⟨row, rfl, hfile, hlists⟩, rfl⟩

theorem filesUnder_increasing : (tree.filesUnder path).Pairwise (fun a b => a.1 < b.1) := by
  rw [filesUnder_eq hplace hnode, List.pairwise_map]
  exact hsorted.walkedFiles_increasing

end

end FileTree

end ProtoExtensions
