import ProtoExtensions.FileTree
import ProtoExtensions.Proofs.Template

/-!
Where writes go. Files are written under a directory by joining its path with theirs, and what such
a joined path leads to depends on the second path alone: an absolute one replaces the directory, and
a double dot climbs out of it. Where every path is `Path.IsInner`, files are created or changed only
below the directory (`writeAll_join`), whatever the tree holds and however far the writing comes.
-/

namespace ProtoExtensions

/-! ### Nodes under a row of names -/

namespace FileNode

/-- The content of a file. -/
def content? : FileNode → Option ByteArray
  | file content => some content
  | directory _ => none

/-- The content of the file under a row of names. -/
def file? (node : FileNode) (row : List FileName) : Option ByteArray :=
  (node.find? row).bind content?

theorem find?_append (node : FileNode) (a b : List FileName) :
    node.find? (a ++ b) = (node.find? a).bind fun below => below.find? b := by
  induction a generalizing node with
  | nil => simp [find?]
  | cons name rest ih =>
    cases node with
    | file content => simp [find?]
    | directory entries =>
      rw [List.cons_append, find?, find?]
      cases entries.lookup name with
      | none => rfl
      | some below => exact ih below

theorem file?_directory_nil (row : List FileName) : (directory []).file? row = none := by
  cases row <;> rfl

theorem file?_directory_cons (entries : List (FileName × FileNode)) (name : FileName)
    (rest : List FileName) :
    (directory entries).file? (name :: rest) =
      (entries.lookup name).bind fun node => node.file? rest := by
  rw [file?, find?]
  cases entries.lookup name <;> rfl

/-- Files that are not under the row stay as they are. Directories that placing makes on its way are
no files. -/
theorem file?_place_of_outside {row other : List FileName} (h : ¬row <+: other)
    (node new : FileNode) : (node.place row new).file? other = node.file? other := by
  induction row generalizing node other with
  | nil => exact absurd List.nil_prefix h
  | cons name rest ih =>
    cases node with
    | file content => rfl
    | directory entries =>
      cases other with
      | nil => rfl
      | cons first more =>
        rw [place, file?_directory_cons, file?_directory_cons]
        by_cases hname : first = name
        · subst hname
          have hrest : ¬rest <+: more := fun hp => h (List.cons_prefix_cons.2 ⟨rfl, hp⟩)
          rw [SortedMap.lookup_insertEntry_self, Option.bind_some, ih hrest]
          cases entries.lookup first with
          | none => exact file?_directory_nil more
          | some below => rfl
        · rw [SortedMap.lookup_insertEntry_other hname]

theorem file?_place_directory_nil (node : FileNode) (row rest : List FileName) :
    (node.place row (directory [])).file? (row ++ rest) = none := by
  induction row generalizing node with
  | nil => exact file?_directory_nil rest
  | cons name more ih =>
    cases node with
    | file content => rfl
    | directory entries =>
      rw [place, List.cons_append, file?_directory_cons, SortedMap.lookup_insertEntry_self]
      exact ih _

end FileNode

namespace FileTree

/-! ### Places -/

/-- The place that names lead to from a place, if they lead anywhere. -/
def walk : List FileName → List String → List FileName
  | place, [] => place
  | place, name :: rest =>
    if name = "" ∨ name = "." then walk place rest
    else if name = ".." then walk place.dropLast rest
    else walk (place ++ [FileName.ofText name]) rest

/-- The place of a path, whether there is something or not. -/
def placeOf (tree : FileTree) (path : String) : List FileName :=
  walk (tree.origin path) (Path.pieces path)

/-- A name that is no mere step within the tree. -/
def IsOrdinary (name : String) : Prop :=
  name ≠ "" ∧ name ≠ "." ∧ name ≠ ".."

/-- A place inside a directory, at any depth. -/
def Below (base place : List FileName) : Prop :=
  base <+: place ∧ base ≠ place

theorem walk_append (place : List FileName) (a b : List String) :
    walk place (a ++ b) = walk (walk place a) b := by
  induction a generalizing place with
  | nil => rfl
  | cons name rest ih =>
    rw [List.cons_append, walk, walk, ih, ih, ih]
    split
    · rfl
    · split <;> rfl

theorem walk_concat {name : String} (h : IsOrdinary name) (place : List FileName)
    (row : List String) :
    walk place (row ++ [name]) = walk place row ++ [FileName.ofText name] := by
  obtain ⟨hempty, hdot, hup⟩ := h
  rw [walk_append]
  simp [walk, hempty, hdot, hup]

theorem prefix_walk {row : List String} (h : ".." ∉ row) (place : List FileName) :
    place <+: walk place row := by
  induction row generalizing place with
  | nil => exact List.prefix_rfl
  | cons name rest ih =>
    simp only [List.mem_cons, not_or] at h
    rw [walk, if_neg (Ne.symm h.1)]
    split
    · exact ih h.2 place
    · exact (List.prefix_append place [FileName.ofText name]).trans (ih h.2 _)

/-- Names that can be followed lead to their place. -/
theorem walk_of_follow {tree : FileTree} {place found : List FileName} {row : List String}
    (h : tree.follow place row = .ok found) : walk place row = found := by
  induction row generalizing place with
  | nil =>
    cases h
    rfl
  | cons name rest ih =>
    rw [follow] at h
    rw [walk]
    split at h
    · split at h
      · next hstay => rw [if_pos hstay, ih h]
      · next hstay =>
        rw [if_neg hstay]
        split at h
        · next hup => rw [if_pos hup, ih h]
        · next hup =>
          rw [if_neg hup]
          split at h
          · exact ih h
          · cases h
    · cases h
    · cases h

/-- A file is written at the place of its path, under an ordinary name. -/
theorem target_eq_ok {tree : FileTree} {path : String} {place : List FileName}
    (h : tree.target path = .ok place) :
    place = tree.placeOf path ∧
      ∃ outer name, Path.pieces path = outer ++ [name] ∧ IsOrdinary name := by
  unfold target at h
  split at h
  · cases h
  · next name outer hpieces =>
    have hrow : Path.pieces path = outer.reverse ++ [name] := by
      simpa using congrArg List.reverse hpieces
    split at h
    · cases h
    · split at h
      · obtain ⟨_, _, herror⟩ := bind_eq_ok_iff.1 h
        cases herror
      · next hname =>
        have hordinary : IsOrdinary name := by simpa [IsOrdinary] using hname
        obtain ⟨found, hfollow, h⟩ := bind_eq_ok_iff.1 h
        have hplace : place = found ++ [FileName.ofText name] := by
          split at h
          · split at h <;> cases h
            rfl
          · cases h
          · cases h
        refine ⟨?_, outer.reverse, name, hrow, hordinary⟩
        rw [hplace, placeOf, hrow, walk_concat hordinary, walk_of_follow hfollow]

/-! ### Changes -/

/-- The content of the file at a place. -/
def file? (tree : FileTree) (place : List FileName) : Option ByteArray :=
  tree.root.file? place

/-- From one tree to another, files are created, changed or removed only at some places. -/
structure ChangesOnly (allowed : List FileName → Prop) (before after : FileTree) : Prop where
  workingDirectory : after.workingDirectory = before.workingDirectory
  files : ∀ place, after.file? place = before.file? place ∨ allowed place

namespace ChangesOnly

variable {allowed : List FileName → Prop} {before between after : FileTree}

theorem refl (allowed : List FileName → Prop) (tree : FileTree) : ChangesOnly allowed tree tree :=
  ⟨rfl, fun _ => .inl rfl⟩

theorem trans (first : ChangesOnly allowed before between)
    (second : ChangesOnly allowed between after) : ChangesOnly allowed before after := by
  refine ⟨second.workingDirectory.trans first.workingDirectory, fun place => ?_⟩
  rcases second.files place with hsecond | hplace
  · rw [hsecond]
    exact first.files place
  · exact .inr hplace

theorem mono {wider : List FileName → Prop} (h : ChangesOnly allowed before after)
    (hwider : ∀ place, allowed place → wider place) : ChangesOnly wider before after :=
  ⟨h.workingDirectory, fun place => (h.files place).imp_right (hwider place)⟩

end ChangesOnly

theorem makeDirectory_changesOnly {tree made : FileTree} {place : List FileName} {name : String}
    (h : tree.makeDirectory place name = .ok made) : ChangesOnly (fun _ => False) tree made := by
  unfold makeDirectory at h
  split at h
  · next entries hentries =>
    split at h
    · cases h
    · next hnew =>
      cases h
      refine ⟨rfl, fun other => .inl ?_⟩
      by_cases hother : place ++ [FileName.ofText name] <+: other
      · obtain ⟨rest, rfl⟩ := hother
        have hnone : entries.lookup (FileName.ofText name) = none :=
          Option.not_isSome_iff_eq_none.1 (not_or.1 hnew).2
        have hbefore : tree.root.find? (place ++ [FileName.ofText name]) = none := by
          rw [FileNode.find?_append, show tree.root.find? place = _ from hentries]
          simp [FileNode.find?, hnone]
        refine (FileNode.file?_place_directory_nil tree.root _ rest).trans ?_
        rw [file?, FileNode.file?, FileNode.find?_append, hbefore]
        rfl
      · exact FileNode.file?_place_of_outside hother tree.root _
  · cases h
  · cases h

/-- Making directories changes no file, whether it succeeds or not. -/
theorem makeDirectories_changesOnly (tree : FileTree) (origin : List FileName)
    (row : List String) :
    ChangesOnly (fun _ => False) tree (tree.makeDirectories origin row).1 := by
  have hmake : ∀ {tree made : FileTree} {outer : List String} {name : String},
      ((tree.follow origin outer).bind fun place => tree.makeDirectory place name) = .ok made →
        ChangesOnly (fun _ => False) tree made := by
    intro tree made outer name h
    obtain ⟨place, -, hmade⟩ := bind_eq_ok_iff.1 h
    exact makeDirectory_changesOnly hmade
  induction row generalizing tree with
  | nil => exact .refl _ tree
  | cons name outer ih =>
    have houter := ih tree
    simp only [makeDirectories]
    split
    · next made hmade => exact hmake hmade
    · split
      · next around fault haround =>
        rw [haround] at houter
        exact houter
      · next around haround =>
        rw [haround] at houter
        split
        · next made hmade => exact houter.trans (hmake hmade)
        · split <;> exact houter
    · split <;> exact .refl _ tree

theorem writeText_changesOnly {tree written : FileTree} {path text : String}
    (h : tree.writeText path text = .ok written) :
    ChangesOnly (fun place => tree.placeOf path <+: place) tree written := by
  obtain ⟨place, htarget, rfl⟩ := map_eq_ok_iff.1 h
  refine ⟨rfl, fun other => ?_⟩
  rw [← (target_eq_ok htarget).1]
  by_cases hother : place <+: other
  · exact .inr hother
  · exact .inl (FileNode.file?_place_of_outside hother tree.root _)

theorem placeOf_congr {a b : FileTree} (h : b.workingDirectory = a.workingDirectory)
    (path : String) : b.placeOf path = a.placeOf path := by
  rw [placeOf, placeOf, origin, origin, h]

end FileTree

/-! ### Joined paths -/

namespace Path

/-- A path that leads nowhere but below the directory it is taken relative to: it is not absolute,
and none of its names is a double dot. -/
def IsInner (path : String) : Prop :=
  isAbsolute path = false ∧ ".." ∉ pieces path

instance (path : String) : Decidable (IsInner path) :=
  inferInstanceAs (Decidable (_ ∧ _))

theorem pieces_append_slash (a b : String) : pieces (a ++ "/" ++ b) = pieces a ++ pieces b := by
  have htext : (a ++ "/" ++ b).toList = a.toList ++ '/' :: b.toList := by simp
  rw [pieces, htext, split_append, List.map_append]
  rfl

theorem pieces_ne_nil (path : String) : pieces path ≠ [] := by
  simpa [pieces] using split_ne_nil '/' path.toList

theorem isAbsolute_append {a : String} (h : a ≠ "") (b : String) :
    isAbsolute (a ++ b) = isAbsolute a := by
  have hchars : a.toList ≠ [] := by simpa using h
  obtain ⟨c, rest, hc⟩ := List.exists_cons_of_ne_nil hchars
  simp [isAbsolute, hc]

theorem exists_eq_append_slash {path : String} (h : path.toList.getLast? = some '/') :
    ∃ before, path = before ++ "/" := by
  obtain ⟨before, hbefore⟩ := List.getLast?_eq_some_iff.1 h
  refine ⟨String.ofList before, ?_⟩
  rw [← String.toList_inj, hbefore]
  simp

end Path

namespace FileTree

/-- A joined path leads to the place of the directory, and from there on. -/
theorem exists_pieces_join (tree : FileTree) (directory : String) {path : String}
    (h : Path.isAbsolute path = false) :
    ∃ front, Path.pieces (Path.join directory path) = front ++ Path.pieces path ∧
      walk (tree.origin (Path.join directory path)) front = tree.placeOf directory := by
  by_cases hempty : directory = ""
  · subst hempty
    have hjoin : Path.join "" path = path := by simp [Path.join]
    refine ⟨[], by rw [hjoin, List.nil_append], ?_⟩
    rw [hjoin, origin, h]
    rfl
  · have horigin : ∀ more, tree.origin (directory ++ more) = tree.origin directory := by
      intro more
      rw [origin, origin, Path.isAbsolute_append hempty]
    by_cases hslash : directory.toList.getLast? = some '/'
    · have hjoin : Path.join directory path = directory ++ path := by
        simp [Path.join, h, hempty, hslash]
      obtain ⟨before, hbefore⟩ := Path.exists_eq_append_slash hslash
      have hdirectory : Path.pieces directory = Path.pieces before ++ [""] := by
        have := Path.pieces_append_slash before ""
        rw [String.append_empty, ← hbefore] at this
        exact this
      refine ⟨Path.pieces before, by rw [hjoin, hbefore, Path.pieces_append_slash], ?_⟩
      rw [hjoin, horigin, placeOf, hdirectory, walk_append]
      rfl
    · have hjoin : Path.join directory path = directory ++ "/" ++ path := by
        simp [Path.join, h, hempty, hslash]
      refine ⟨Path.pieces directory, by rw [hjoin, Path.pieces_append_slash], ?_⟩
      rw [hjoin, String.append_assoc, horigin]
      rfl

/-- A file with an inner path is written below the directory. -/
theorem below_placeOf_join {tree : FileTree} {directory path : String} (h : Path.IsInner path)
    {place : List FileName} (htarget : tree.target (Path.join directory path) = .ok place) :
    Below (tree.placeOf directory) place := by
  obtain ⟨hplace, outer, name, houter, hname⟩ := target_eq_ok htarget
  obtain ⟨front, hfront, hbase⟩ := exists_pieces_join tree directory h.1
  obtain ⟨inner, last, hinner⟩ :=
    (List.eq_nil_or_concat (Path.pieces path)).resolve_left (Path.pieces_ne_nil path)
  rw [List.concat_eq_append] at hinner
  have hlast : last = name := by
    rw [hfront, hinner, ← List.append_assoc] at houter
    exact (List.append_inj' houter rfl).2 |> List.singleton_inj.1
  subst hlast
  have hup : ".." ∉ inner := fun hmem => h.2 (by simp [hinner, hmem])
  have hwalk : place = walk (tree.placeOf directory) inner ++ [FileName.ofText last] := by
    rw [hplace, placeOf, hfront, walk_append, hbase, hinner, walk_concat hname]
  have hinside := prefix_walk hup (tree.placeOf directory)
  rw [hwalk]
  refine ⟨hinside.trans (List.prefix_append _ _), fun hsame => ?_⟩
  have hlonger := congrArg List.length hsame
  have hlength := hinside.length_le
  rw [List.length_append, List.length_singleton] at hlonger
  omega

theorem Below.deeper {base place other : List FileName} (h : Below base place)
    (hother : place <+: other) : Below base other := by
  refine ⟨h.1.trans hother, fun hsame => h.2 ?_⟩
  subst hsame
  exact h.1.eq_of_length (Nat.le_antisymm h.1.length_le hother.length_le)

/-! ### Writing below a directory -/

theorem writeWithParents_join (tree : FileTree) (directory : String) {path : String}
    (h : Path.IsInner path) (text : String) :
    ChangesOnly (Below (tree.placeOf directory)) tree
      (tree.writeWithParents (Path.join directory path) text).1 := by
  have hparents : ChangesOnly (fun _ => False) tree
      ((Path.parent? (Path.join directory path)).elim (tree, .ok ()) tree.createDirectories).1 := by
    cases Path.parent? (Path.join directory path) with
    | none => exact .refl _ tree
    | some parent => exact makeDirectories_changesOnly tree _ _
  have hmade := hparents.mono fun place =>
    (False.elim : False → Below (tree.placeOf directory) place)
  unfold writeWithParents
  split
  · next prepared fault heq =>
    rw [heq] at hmade
    exact hmade
  · next prepared heq =>
    rw [heq] at hmade
    split
    · exact hmade
    · next written hwritten =>
      obtain ⟨place, htarget, -⟩ := map_eq_ok_iff.1 hwritten
      have hbelow := below_placeOf_join h htarget
      rw [placeOf_congr hmade.workingDirectory, (target_eq_ok htarget).1] at hbelow
      exact hmade.trans
        ((writeText_changesOnly hwritten).mono fun _ hother => hbelow.deeper hother)

/-- **Inner paths stay inside.** Writing files under a directory, each with an inner path, creates
and changes files only below the place of the directory. This holds for what has been written when
the writing fails, too. -/
theorem writeAll_join {files : List (String × String)} (h : ∀ file ∈ files, Path.IsInner file.1)
    (tree : FileTree) (directory : String) :
    ChangesOnly (Below (tree.placeOf directory)) tree
      (tree.writeAll (files.map fun (path, text) => (Path.join directory path, text))).1 := by
  induction files generalizing tree with
  | nil => exact .refl _ tree
  | cons file rest ih =>
    have hfirst := writeWithParents_join tree directory (h file (by simp)) file.2
    rw [List.map_cons]
    unfold writeAll
    split
    · next changed heq =>
      rw [heq] at hfirst
      have hrest := ih (fun other hother => h other (List.mem_cons_of_mem _ hother)) changed
      rw [placeOf_congr hfirst.workingDirectory] at hrest
      exact hfirst.trans hrest
    · next changed fault heq =>
      rw [heq] at hfirst
      exact hfirst

end FileTree

end ProtoExtensions
