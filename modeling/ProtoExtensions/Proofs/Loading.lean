import Mathlib.Data.List.Forall2
import Mathlib.Data.List.Nodup
import ProtoExtensions.DescriptorSet
import ProtoExtensions.Proofs.Reports
import ProtoExtensions.Proofs.TreeWalk

/-!
What becomes of the files that a walk comes by. Each one that has the name of a descriptor file is
loaded, or is answered by one diagnostic because its content cannot be read or because a file that
was loaded before describes the same proto file; other files leave no trace (`Yields`). So the
loaded files stand in the order of the walk and have distinct proto names (`Loads`). A walk does not
come by every file: what is behind a directory that cannot be listed leaves no trace either, nor
does a file whose name is no text, whatever its bytes end with (`FileTree.not_accounts_rawName`).
-/

namespace ProtoExtensions

/-! ## One file -/

/-- A file that a walk comes by: the row of names that leads to it, and what reading it gives. -/
abbrev Visited := List FileName × Except FileFault String

/-- The last of some names is a text that ends in the suffix of descriptor files and is longer than
it. -/
def NamesDescriptor (row : List FileName) : Prop :=
  ∃ text, row.getLast? = some (FileName.ofText text) ∧
    descriptorSuffix.toList <:+ text.toList ∧ descriptorSuffix.length < text.length

theorem isDescriptorText_iff {name : String} :
    isDescriptorText name = true ↔
      descriptorSuffix.toList <:+ name.toList ∧ descriptorSuffix.length < name.length := by
  rw [isDescriptorText, Bool.and_eq_true, List.isSuffixOf_iff_suffix, bne_iff_ne]
  refine and_congr_right fun hsuffix => ?_
  have hle : descriptorSuffix.length ≤ name.length := by
    rw [← String.length_toList, ← String.length_toList]
    exact hsuffix.length_le
  constructor
  · intro hne
    refine Nat.lt_of_le_of_ne hle fun hlength => hne ?_
    refine (String.toList_inj.1 (hsuffix.eq_of_length ?_)).symm
    rw [String.length_toList, String.length_toList, hlength]
  · rintro hlt rfl
    exact Nat.lt_irrefl _ hlt

theorem any_isDescriptorName_iff {row : List FileName} :
    row.getLast?.any isDescriptorName = true ↔ NamesDescriptor row := by
  simp only [Option.any_eq_true, isDescriptorName, FileName.text?_eq_some_iff,
    isDescriptorText_iff]
  constructor
  · rintro ⟨name, hlast, text, rfl, hends⟩
    exact ⟨text, hlast, hends⟩
  · rintro ⟨text, hlast, hends⟩
    exact ⟨_, hlast, text, rfl, hends⟩

/-- A file that a walk comes by is a descriptor file that can be read. -/
structure Describes (visited : Visited) (file : DescriptorFile) : Prop where
  named : NamesDescriptor visited.1
  read : DescriptorFile.ofRead (FileTree.relativePath visited.1) visited.2 = .ok file

namespace DescriptorFile

theorem of_ofRead_eq_error {path : String} {read : Except FileFault String} {d : Diagnostic}
    (h : ofRead path read = .error d) :
    d.code = Diagnostic.parseError ∧ d.severity = .error ∧ d.file = path := by
  cases read with
  | error fault =>
    cases h
    exact ⟨rfl, rfl, rfl⟩
  | ok text =>
    cases hread : FileSpec.read text with
    | ok spec => simp [ofRead, FileSpec.ofText, hread, Except.map] at h
    | error fault =>
      obtain rfl : fault.diagnostic path = d := by
        simpa [ofRead, FileSpec.ofText, hread, Except.map] using h
      exact ⟨rfl, rfl, rfl⟩

theorem path_of_ofRead_eq_ok {path : String} {read : Except FileFault String}
    {file : DescriptorFile} (h : ofRead path read = .ok file) : file.path = path := by
  cases read with
  | error fault => cases h
  | ok text =>
    obtain ⟨spec, -, rfl⟩ := map_eq_ok_iff.1 h
    rfl

end DescriptorFile

theorem map_path_of_describes {kept : List Visited} {files : List DescriptorFile}
    (h : List.Forall₂ Describes kept files) :
    files.map (·.path) = kept.map fun visited => FileTree.relativePath visited.1 := by
  induction h with
  | nil => rfl
  | cons hfile _ ih =>
    rw [List.map_cons, List.map_cons, ih, DescriptorFile.path_of_ofRead_eq_ok hfile.read]

/-- What a file that a walk comes by gives, where some files are loaded already: the files to load
and the diagnostics. -/
inductive Yields (held : List DescriptorFile) (visited : Visited) :
    List DescriptorFile → List Diagnostic → Prop
  | passed (hname : ¬NamesDescriptor visited.1) : Yields held visited [] []
  | loaded {file : DescriptorFile} (hfile : Describes visited file)
      (hfree : ∀ other ∈ held, other.spec.name ≠ file.spec.name) :
      Yields held visited [file] []
  | unreadable {d : Diagnostic} (hname : NamesDescriptor visited.1)
      (hread :
        DescriptorFile.ofRead (FileTree.relativePath visited.1) visited.2 = .error d)
      (hcode : d.code = Diagnostic.parseError) (hfile : d.file = FileTree.relativePath visited.1) :
      Yields held visited [] [d]
  | taken {file first : DescriptorFile} (hfile : Describes visited file) (hfirst : first ∈ held)
      (hname : first.spec.name = file.spec.name) :
      Yields held visited [] [file.duplicate first]

theorem yields_add (loaded : Loaded) {visited : Visited}
    (hname : NamesDescriptor visited.1) :
    ∃ files told, Yields loaded.files visited files told ∧
      loaded.add (FileTree.relativePath visited.1) visited.2 =
        ⟨loaded.files ++ files, loaded.report.pushAll told⟩ := by
  unfold Loaded.add
  cases hread : DescriptorFile.ofRead (FileTree.relativePath visited.1) visited.2 with
  | error d =>
    obtain ⟨hcode, -, hfile⟩ := DescriptorFile.of_ofRead_eq_error hread
    exact ⟨[], [d], .unreadable hname hread hcode hfile, by simp⟩
  | ok file =>
    cases hfound : loaded.files.find? (·.spec.name == file.spec.name) with
    | some first =>
      have hsame : first.spec.name = file.spec.name := by simpa using List.find?_some hfound
      exact ⟨[], [file.duplicate first],
        .taken ⟨hname, hread⟩ (List.mem_of_find?_eq_some hfound) hsame,
        by simp [hfound]⟩
    | none =>
      have hfree : ∀ other ∈ loaded.files, other.spec.name ≠ file.spec.name := by
        simpa using List.find?_eq_none.1 hfound
      exact ⟨[file], [], .loaded ⟨hname, hread⟩ hfree, by simp [hfound]⟩

namespace Yields

variable {held files : List DescriptorFile} {visited : Visited}
  {told : List Diagnostic}

theorem nodup (h : Yields held visited files told) (hheld : (held.map (·.spec.name)).Nodup) :
    ((held ++ files).map (·.spec.name)).Nodup := by
  cases h with
  | passed | unreadable | taken => simpa using hheld
  | @loaded file hfile hfree =>
    have hnot : file.spec.name ∉ held.map (·.spec.name) := by
      rw [List.mem_map]
      rintro ⟨other, hother, hname⟩
      exact hfree other hother hname
    rw [List.map_append, List.map_singleton, ← List.concat_eq_append]
    exact hheld.concat hnot

theorem mem_duplicate_iff (h : Yields held visited files told)
    (hheld : (held.map (·.spec.name)).Nodup) {d : Diagnostic} :
    d ∈ told ∧ d.code = Diagnostic.duplicateFile ↔
      ∃ file first, Describes visited file ∧ first ∈ held ∧
        first.spec.name = file.spec.name ∧ d = file.duplicate first := by
  constructor
  · rintro ⟨hd, hduplicate⟩
    cases h with
    | passed | loaded => cases hd
    | unreadable _ _ hcode =>
      obtain rfl := List.mem_singleton.1 hd
      rw [hcode] at hduplicate
      exact absurd hduplicate (by decide)
    | taken hfile hfirst hname =>
      exact ⟨_, _, hfile, hfirst, hname, List.mem_singleton.1 hd⟩
  · rintro ⟨file, first, hfile, hfirst, hname, rfl⟩
    cases h with
    | passed hnot => exact absurd hfile.named hnot
    | loaded hfile' hfree =>
      cases hfile.read.symm.trans hfile'.read
      exact absurd hname (hfree first hfirst)
    | unreadable _ hread => cases hfile.read.symm.trans hread
    | @taken _ other hfile' hother hname' =>
      cases hfile.read.symm.trans hfile'.read
      obtain rfl : first = other :=
        List.inj_on_of_nodup_map hheld hfirst hother (hname.trans hname'.symm)
      exact ⟨List.mem_singleton_self _, rfl⟩

end Yields

/-! ## A walk -/

/-- The files of a walk with what they give one after the other, where some files are loaded
already. What one file gives is loaded for the next. -/
inductive Loads : (held : List DescriptorFile) → (walk : List Visited) →
    (files : List DescriptorFile) → (told : List Diagnostic) → Prop
  | nil {held : List DescriptorFile} : Loads held [] [] []
  | cons {held files more : List DescriptorFile} {visited : Visited}
      {rest : List Visited} {told late : List Diagnostic}
      (hvisited : Yields held visited files told) (hrest : Loads (held ++ files) rest more late) :
      Loads held (visited :: rest) (files ++ more) (told ++ late)

namespace Loads

variable {held files : List DescriptorFile} {walk before after : List Visited}
  {visited : Visited} {told : List Diagnostic}

theorem nodup (h : Loads held walk files told) (hheld : (held.map (·.spec.name)).Nodup) :
    ((held ++ files).map (·.spec.name)).Nodup := by
  induction h with
  | nil => simpa using hheld
  | cons hvisited _ ih =>
    rw [← List.append_assoc]
    exact ih (hvisited.nodup hheld)

/-- Loaded files are what some of the files of the walk describe, in its order. -/
theorem exists_sublist (h : Loads held walk files told) :
    ∃ kept, kept.Sublist walk ∧ List.Forall₂ Describes kept files := by
  induction h with
  | nil => exact ⟨[], .slnil, .nil⟩
  | cons hvisited _ ih =>
    obtain ⟨kept, hkept, hdescribes⟩ := ih
    cases hvisited with
    | passed | unreadable | taken => exact ⟨kept, hkept.cons _, hdescribes⟩
    | loaded hfile => exact ⟨_, hkept.cons_cons _, .cons hfile hdescribes⟩

/-- What one file gives stands between what those before it and those behind it give. -/
theorem split (h : Loads held (before ++ visited :: after) files told) :
    ∃ earlier early found noted later late, Loads held before earlier early ∧
      Yields (held ++ earlier) visited found noted ∧
      Loads (held ++ earlier ++ found) after later late ∧
      files = earlier ++ found ++ later ∧ told = early ++ noted ++ late := by
  induction before generalizing held files told with
  | nil =>
    cases h with
    | cons hvisited hrest =>
      exact ⟨[], [], _, _, _, _, .nil, by simpa using hvisited, by simpa using hrest, rfl, rfl⟩
  | cons first rest ih =>
    cases h with
    | cons hfirst hrest =>
      obtain ⟨earlier, early, found, noted, later, late, hbefore, hvisited, hafter, rfl, rfl⟩ :=
        ih hrest
      refine ⟨_, _, found, noted, later, late, .cons hfirst hbefore, ?_, ?_, ?_, ?_⟩
      · rwa [← List.append_assoc]
      · rwa [← List.append_assoc]
      · simp
      · simp

end Loads

namespace FileTree

/-- A file that a walk comes by as it is loaded, with its path, if it has the name of a descriptor
file. -/
def descriptor? (visited : Visited) : Option (String × Except FileFault String) :=
  if visited.1.getLast?.any isDescriptorName then some (relativePath visited.1, visited.2) else none

theorem descriptorFiles_eq (tree : FileTree) (path : String) :
    tree.descriptorFiles path = (tree.filesUnder path).filterMap descriptor? := rfl

theorem loads_foldl (loaded : Loaded) (walk : List Visited) :
    ∃ files told, Loads loaded.files walk files told ∧
      (walk.filterMap descriptor?).foldl
          (fun loaded (file : String × Except FileFault String) => loaded.add file.1 file.2)
          loaded =
        ⟨loaded.files ++ files, loaded.report.pushAll told⟩ := by
  induction walk generalizing loaded with
  | nil => exact ⟨[], [], .nil, by simp⟩
  | cons visited rest ih =>
    by_cases hname : NamesDescriptor visited.1
    · have hsome : descriptor? visited = some (relativePath visited.1, visited.2) :=
        if_pos (any_isDescriptorName_iff.2 hname)
      obtain ⟨files, told, hvisited, hadd⟩ := yields_add loaded hname
      obtain ⟨more, late, hrest, hfold⟩ :=
        ih ⟨loaded.files ++ files, loaded.report.pushAll told⟩
      refine ⟨files ++ more, told ++ late, .cons hvisited hrest, ?_⟩
      rw [List.filterMap_cons_some hsome, List.foldl_cons, hadd, hfold, List.append_assoc,
        Report.pushAll_append]
    · have hnone : descriptor? visited = none :=
        if_neg fun hany => hname (any_isDescriptorName_iff.1 hany)
      obtain ⟨more, late, hrest, hfold⟩ := ih loaded
      refine ⟨more, late, .cons (.passed hname) (by rwa [List.append_nil]), ?_⟩
      rw [List.filterMap_cons_none hnone, hfold]

/-- The descriptors of a directory can always be loaded. -/
theorem exists_loads {tree : FileTree} {path : String} {entries : List (FileName × FileNode)}
    (h : tree.lookup path = .ok (.directory entries)) :
    ∃ loaded, tree.loadDescriptors path = .ok loaded ∧
      Loads [] (tree.filesUnder path) loaded.files loaded.report.entries ∧
      loaded.report.IsConsistent := by
  obtain ⟨files, told, hloads, hfold⟩ := loads_foldl {} (tree.filesUnder path)
  refine ⟨⟨files, Report.empty.pushAll told⟩, ?_, by simpa [Report.empty] using hloads,
    .pushAll .empty told⟩
  have hdirectory : tree.isDirectory path = true := by rw [isDirectory, h]
  rw [loadDescriptors, if_pos hdirectory, descriptorFiles_eq, hfold]
  rfl

theorem exists_lookup_of_isDirectory {tree : FileTree} {path : String}
    (h : tree.isDirectory path = true) :
    ∃ entries, tree.lookup path = .ok (.directory entries) := by
  unfold isDirectory at h
  split at h
  next entries hlookup => exact ⟨entries, hlookup⟩
  next => cases h

theorem isConsistent_of_loadDescriptors {tree : FileTree} {path : String} {loaded : Loaded}
    (h : tree.loadDescriptors path = .ok loaded) : loaded.report.IsConsistent := by
  cases hlookup : tree.isDirectory path with
  | false => simp [loadDescriptors, hlookup] at h
  | true =>
    obtain ⟨entries, hentries⟩ := exists_lookup_of_isDirectory hlookup
    obtain ⟨loaded', hloaded', -, hconsistent⟩ := exists_loads hentries
    rw [h] at hloaded'
    cases hloaded'
    exact hconsistent

/-- **Every descriptor file is accounted for.** Where directories list their entries in the order of
their names, the walk through a directory comes once by each file under it whose directories can all
be listed, and reads it; the rows of names that lead to the files increase. Of the loaded files each
is what one of these describes, in the order of the walk, and no two have the same proto name. What
is loaded and what is told falls into what each file gives, which is nothing for a file without the
name of a descriptor file, and else one loaded file or one diagnostic; a duplicate is told of
exactly if a file that was loaded before has the same proto name, and the diagnostic names that file
as reports call it. -/
theorem loadDescriptors_accounts {tree : FileTree} {path : String}
    {entries : List (FileName × FileNode)} (hsorted : tree.root.Sorted)
    (hdirectory : tree.lookup path = .ok (.directory entries)) :
    (∃ place, tree.locate path = .ok place ∧ ∀ row read, (row, read) ∈ tree.filesUnder path ↔
      ∃ content, (FileNode.directory entries).file? row = some content ∧
        ListsAlong (fun outer => tree.closed.contains (place ++ outer)) row ∧
        read = tree.readAt (place ++ row) (.file content)) ∧
    (tree.filesUnder path).Pairwise (fun a b => a.1 < b.1) ∧
    ∃ loaded, tree.loadDescriptors path = .ok loaded ∧
      (∃ kept, kept.Sublist (tree.filesUnder path) ∧ kept.Pairwise (fun a b => a.1 < b.1) ∧
        List.Forall₂ Describes kept loaded.files ∧
        loaded.files.map (·.path) = kept.map fun visited => relativePath visited.1) ∧
      (loaded.files.map (·.spec.name)).Nodup ∧
      ∀ before visited after, tree.filesUnder path = before ++ visited :: after →
        ∃ held early found noted later late,
          Loads [] before held early ∧ Yields held visited found noted ∧
          Loads (held ++ found) after later late ∧
          loaded.files = held ++ found ++ later ∧
          loaded.report.entries = early ++ noted ++ late ∧
          ∀ d, d ∈ noted ∧ d.code = Diagnostic.duplicateFile ↔
            ∃ file first, Describes visited file ∧ first ∈ held ∧
              first.spec.name = file.spec.name ∧ d = file.duplicate first := by
  have hnode : (FileNode.directory entries).Sorted := sorted_of_lookup hsorted hdirectory
  obtain ⟨place, hplace, hfound⟩ := exists_locate_of_lookup hdirectory
  obtain ⟨loaded, hloaded, hloads, -⟩ := exists_loads hdirectory
  obtain ⟨kept, hkept, hdescribes⟩ := hloads.exists_sublist
  have hincreasing := filesUnder_increasing hnode hplace hfound
  refine ⟨⟨place, hplace, fun row read => mem_filesUnder_iff hnode hplace hfound⟩, hincreasing,
    loaded, hloaded, ⟨kept, hkept, hincreasing.sublist hkept, hdescribes, ?_⟩, ?_, ?_⟩
  · exact map_path_of_describes hdescribes
  · simpa using hloads.nodup .nil
  · intro before visited after hsplit
    rw [hsplit] at hloads
    obtain ⟨held, early, found, noted, later, late, hbefore, hvisited, hafter, hfiles, htold⟩ :=
      hloads.split
    have hheld : (held.map (·.spec.name)).Nodup := by simpa using hbefore.nodup .nil
    rw [List.nil_append] at hvisited hafter
    exact ⟨held, early, found, noted, later, late, hbefore, hvisited, hafter, hfiles, htold,
      fun d => hvisited.mem_duplicate_iff hheld⟩

/-- A directory where a file and one of a directory next to it describe the same proto file. As a
text the path of the former comes first, in the walk it is the latter. One more is closed. -/
def clashing : FileTree where
  root := ((((FileNode.directory []).place ["c.pb.json"] (.file "\x7b nope".toUTF8)).place
    ["a-b.pb.json"] (.file "\x7b\"name\": \"same.proto\"\x7d".toUTF8)).place
    ["a", "x.pb.json"] (.file "\x7b\"name\": \"same.proto\"\x7d".toUTF8)).place
    ["b", "y.pb.json"] (.file "\x7b\"name\": \"other.proto\"\x7d".toUTF8)
  workingDirectory := []
  closed := [["b"]]

/-- The file in the inner directory is loaded, and the other one is told to be a duplicate of it. -/
theorem loadDescriptors_accounts_clashing :
    ((clashing.filesUnder ".").map Prod.fst).Pairwise (· < ·) ∧
      ∃ loaded, clashing.loadDescriptors "." = .ok loaded ∧
        (loaded.files.map (·.spec.name)).Nodup ∧
        loaded.files.map (·.path) = ["a/x.pb.json"] ∧
        loaded.report.entries.map (fun d => (d.code, d.file, d.message)) =
          [("E_DUPLICATE_FILE", "a-b.pb.json",
              "Proto file 'same.proto' is also described by a/x.pb.json"),
            ("E_PARSE_ERROR", "c.pb.json",
              "JSON parse error: key must be a string at line 1 column 3")] := by
  have hsorted : clashing.root.Sorted :=
    (((FileNode.Sorted.empty.place (.file _) _).place (.file _) _).place (.file _) _).place
      (.file _) _
  obtain ⟨entries, hdirectory⟩ : ∃ entries, clashing.lookup "." = .ok (.directory entries) :=
    ⟨_, rfl⟩
  obtain ⟨-, hwalk, loaded, hloaded, -, hnames, -⟩ := loadDescriptors_accounts hsorted hdirectory
  have hresult : (clashing.loadDescriptors ".").toOption.map (fun loaded =>
      (loaded.files.map (·.path),
        loaded.report.entries.map fun d => (d.code, d.file, d.message))) =
      some (["a/x.pb.json"],
        [("E_DUPLICATE_FILE", "a-b.pb.json",
            "Proto file 'same.proto' is also described by a/x.pb.json"),
          ("E_PARSE_ERROR", "c.pb.json",
            "JSON parse error: key must be a string at line 1 column 3")]) := by
    decide +kernel
  rw [hloaded] at hresult
  obtain ⟨hpaths, htold⟩ := Prod.ext_iff.1 (Option.some.inj hresult)
  exact ⟨List.pairwise_map.2 hwalk, loaded, hloaded, hnames, hpaths, htold⟩

/-- A name with the suffix of descriptor files that is no text: no text has its first byte. -/
def rawName : FileName :=
  ⟨[0xFF, 0x2E, 0x70, 0x62, 0x2E, 0x6A, 0x73, 0x6F, 0x6E]⟩

/-- A directory with a file of that name and one with a backslash in its name. -/
def oddNames : FileTree where
  root := (((FileNode.directory []).place
    [rawName] (.file "\x7b\"name\": \"x.proto\"\x7d".toUTF8)).place
    ["a\\b.pb.json"] (.file "\x7b\"name\": \"b.proto\"\x7d".toUTF8)).place
    ["a", "z.pb.json"] (.file "\x7b\"name\": \"z.proto\"\x7d".toUTF8)
  workingDirectory := []

/-- A name with the suffix does not make a file count if it is no text: nothing is loaded from it
and nothing is told of it. And a backslash is shown as a slash, so that the paths of loaded files
need not increase, taken apart at their slashes. -/
theorem not_accounts_rawName :
    utf8Bytes descriptorSuffix.toList <:+ rawName.bytes ∧
      descriptorSuffix.length < rawName.bytes.length ∧
      (oddNames.file? [rawName]).isSome = true ∧
      ∃ loaded, oddNames.loadDescriptors "." = .ok loaded ∧
        loaded.files.map (fun file => (file.path, file.spec.name)) =
          [("a/z.pb.json", "z.proto"), ("a/b.pb.json", "b.proto")] ∧
        loaded.report.entries = [] ∧
        ¬(loaded.files.map fun file => Path.pieces file.path).Pairwise (· < ·) := by
  have hresult : (oddNames.loadDescriptors ".").toOption.map (fun loaded =>
      (loaded.files.map (fun file => (file.path, file.spec.name)), loaded.report.entries)) =
      some ([("a/z.pb.json", "z.proto"), ("a/b.pb.json", "b.proto")], []) := by
    decide +kernel
  refine ⟨by decide +kernel, by decide +kernel, by decide +kernel, ?_⟩
  cases hloaded : oddNames.loadDescriptors "." with
  | error fault =>
    rw [hloaded] at hresult
    cases hresult
  | ok loaded =>
    rw [hloaded] at hresult
    obtain ⟨hfiles, htold⟩ := Prod.ext_iff.1 (Option.some.inj hresult)
    have hpaths : loaded.files.map (fun file => Path.pieces file.path) =
        [["a", "z.pb.json"], ["a", "b.pb.json"]] := by
      have hpieces := congrArg (List.map fun shown => Path.pieces shown.1) hfiles
      rw [List.map_map] at hpieces
      exact hpieces
    refine ⟨loaded, rfl, hfiles, htold, ?_⟩
    rw [hpaths]
    decide +kernel

end FileTree

end ProtoExtensions
