import ProtoExtensions.Proofs.CamelCase
import ProtoExtensions.Proofs.Confinement
import ProtoExtensions.Proofs.OutputFiles

/-!
Whether generated files stay inside the output directory. A path in the output is put together from
the package, with slashes for dots, and the name of the outer class, and neither is looked at as a
path. Which names give a path that stays inside is told by `HeaderMap.StaysInside`; class names that
are inferred from a file name always do. Where all paths stay inside, so does what is written.
-/

namespace ProtoExtensions

namespace HeaderMap

variable {headers : HeaderMap} {package unit extension : String}

/-- The path of a class leads nowhere but below the output directory. No double dot stands in front
of a slash in the name of the class. The path does not start with a slash: with a directory for the
package it starts as the package does, where a dot becomes a slash, and without one it starts as the
name of the class. -/
def StaysInside (headers : HeaderMap) (package unit : String) : Prop :=
  ".." ∉ (Path.pieces unit).dropLast ∧
    if headers.outputDirectory package = "" then unit.toList.head? ≠ some '/'
    else package.toList.head? ≠ some '.' ∧ package.toList.head? ≠ some '/'

/-- The directory of a package is empty, or ends with a slash that only slashes and the package's
own characters precede. -/
theorem outputDirectory_eq (headers : HeaderMap) (package : String) :
    headers.outputDirectory package = "" ∨
      package ≠ "" ∧ headers.outputDirectory package =
        String.ofList (package.toList.map fun c => if c = '.' then '/' else c) ++ "/" := by
  unfold outputDirectory
  by_cases hempty : package = ""
  · simp [hempty]
  · rw [if_neg hempty]
    cases headers.styleFor package with
    | package => exact .inr ⟨hempty, rfl⟩
    | none => exact .inl rfl

/-- With an extension put behind it, the last name of a path is no double dot. -/
theorem up_mem_pieces_append_iff (h : extension ∈ [".h", ".m"]) (unit : String) :
    ".." ∈ Path.pieces (unit ++ extension) ↔ ".." ∈ (Path.pieces unit).dropLast := by
  have hslash : '/' ∉ extension.toList := by
    rcases List.mem_pair.1 h with rfl | rfl <;> decide
  have hends : extension.toList.getLast? ≠ some '.' ∧ extension.toList ≠ [] := by
    rcases List.mem_pair.1 h with rfl | rfl <;> decide
  obtain ⟨last, hlast⟩ := split_append_of_not_mem hslash unit.toList
  have hname : ".." ≠ String.ofList (last ++ extension.toList) := by
    intro heq
    have hchars : ['.', '.'] = last ++ extension.toList := by
      simpa using congrArg String.toList heq
    have hdot := congrArg List.getLast? hchars
    rw [List.getLast?_append, Option.or_of_isSome (by simpa using hends.2)] at hdot
    exact hends.1 hdot.symm
  rw [Path.pieces, String.toList_append, hlast, List.map_append, List.mem_append,
    List.map_dropLast, List.map_singleton, List.mem_singleton, or_iff_left hname]
  rfl

theorem up_not_mem_pieces_package (package : String) :
    ".." ∉ Path.pieces
      (String.ofList (package.toList.map fun c => if c = '.' then '/' else c)) := by
  intro h
  obtain ⟨piece, hpiece, hup⟩ := List.mem_map.1 h
  have hdot : '.' ∈ piece := by
    rw [← String.toList_ofList (l := piece), hup]
    decide
  have hmem := mem_of_mem_split hpiece hdot
  simp only [String.toList_ofList, List.mem_map] at hmem
  obtain ⟨c, -, hc⟩ := hmem
  split at hc
  · exact absurd hc (by decide)
  · next hne => exact hne hc

theorem isAbsolute_append_extension_iff (h : extension ∈ [".h", ".m"]) (unit : String) :
    Path.isAbsolute (unit ++ extension) = true ↔ unit.toList.head? = some '/' := by
  by_cases hunit : unit = ""
  · subst hunit
    rcases List.mem_pair.1 h with rfl | rfl <;> decide
  · rw [Path.isAbsolute_append hunit]
    simp [Path.isAbsolute]

/-- The path of a header or of a source is an inner one exactly if the names allow it. -/
theorem isInner_outputPath_iff (h : extension ∈ [".h", ".m"]) :
    Path.IsInner (headers.outputPath package unit ++ extension) ↔
      headers.StaysInside package unit := by
  unfold StaysInside Path.IsInner outputPath
  rw [← Bool.not_eq_true]
  rcases headers.outputDirectory_eq package with hdirectory | ⟨hpackage, hdirectory⟩
  · rw [hdirectory, String.empty_append, if_pos rfl, up_mem_pieces_append_iff h,
      isAbsolute_append_extension_iff h]
    exact and_comm
  · have hne : headers.outputDirectory package ≠ "" := by simp [hdirectory]
    have hfirst : Path.isAbsolute (headers.outputDirectory package ++ (unit ++ extension)) = true ↔
        package.toList.head? = some '.' ∨ package.toList.head? = some '/' := by
      have hchars : package.toList ≠ [] := by simpa using hpackage
      obtain ⟨c, rest, hc⟩ := List.exists_cons_of_ne_nil hchars
      rw [Path.isAbsolute_append hne, hdirectory]
      simp only [Path.isAbsolute, hc]
      by_cases hdot : c = '.' <;> simp [hdot]
    have hup : ".." ∈ Path.pieces (headers.outputDirectory package ++ (unit ++ extension)) ↔
        ".." ∈ (Path.pieces unit).dropLast := by
      rw [hdirectory, Path.pieces_append_slash, List.mem_append,
        or_iff_right (up_not_mem_pieces_package package), up_mem_pieces_append_iff h]
    rw [String.append_assoc, if_neg hne, hfirst, hup, not_or]
    exact and_comm

example : Path.IsInner (outputPath {} "com.example" "X" ++ ".h") ∧
    ¬Path.IsInner (outputPath {} "com.example" "../../../X" ++ ".h") := by
  decide

end HeaderMap

/-! ### Inferred names -/

/-- An inferred class name leads out of nothing. It is up to the package alone. -/
theorem ProtoFile.staysInside_of_inferred {file : ProtoFile} (h : file.outerClassname = none)
    (headers : HeaderMap) :
    headers.StaysInside file.classPackage file.outerClass ↔
      headers.outputDirectory file.classPackage = "" ∨
        file.classPackage.toList.head? ≠ some '.' ∧ file.classPackage.toList.head? ≠ some '/' := by
  have houter : file.outerClass = file.inferredOuterClass := by simp [outerClass, h]
  have hslash : '/' ∉ file.outerClass.toList := houter ▸ fun hc =>
    absurd (ProtoFile.isAlphanum_of_mem_inferredOuterClass hc) (by decide)
  have hpieces : (Path.pieces file.outerClass).dropLast = [] := by
    simp [Path.pieces, split_of_not_mem hslash]
  have hhead : file.outerClass.toList.head? ≠ some '/' :=
    fun hc => hslash (List.mem_of_head? hc)
  unfold HeaderMap.StaysInside
  rw [hpieces]
  by_cases hdirectory : headers.outputDirectory file.classPackage = ""
  · simp [hdirectory, hhead]
  · simp [hdirectory]

/-! ### The output -/

namespace ResolvedFile

theorem mem_keys_output_iff {headers : HeaderMap} {files : List ResolvedFile}
    (h : ∀ file ∈ files, file.Sound) {key : String} :
    key ∈ (SortedMap.empty.insertAll (outputs headers files)).keys ↔
      ∃ file ∈ files, file.isGenerated = true ∧
        ∃ extension ∈ [".h", ".m"], key = file.outputPath headers ++ extension := by
  rw [SortedMap.mem_keys_insertAll, map_fst_outputs headers h]
  simp [SortedMap.keys, SortedMap.empty, outputPaths, bothPaths, and_assoc]

end ResolvedFile

open ResolvedFile

/-- **Output stays inside the directory as far as names allow it.** Generation succeeds for whatever
resolution returns. All paths in the output are inner ones exactly if the package and the outer
class of every file with extensions allow it, for which an inferred class name needs no more than a
package that starts with neither a dot nor a slash. If all paths are inner ones, writing the output
under any directory of any tree creates and changes files only below that directory, also where the
writing fails. -/
theorem generate_staysInside (generator : Generator) (files : List DescriptorFile) :
    ∃ after output, generator.generate (resolveFiles files).1 = .ok (after, output) ∧
      ((∀ key ∈ output.keys, Path.IsInner key) ↔
        ∀ file ∈ (resolveFiles files).1, file.isGenerated = true →
          generator.headers.StaysInside file.file.classPackage file.file.outerClass) ∧
      (∀ file ∈ (resolveFiles files).1, file.file.outerClassname = none →
        file.file.classPackage.toList.head? ≠ some '.' →
        file.file.classPackage.toList.head? ≠ some '/' →
          generator.headers.StaysInside file.file.classPackage file.file.outerClass) ∧
      ((∀ key ∈ output.keys, Path.IsInner key) → ∀ (tree : FileTree) (directory : String),
        FileTree.ChangesOnly (FileTree.Below (tree.placeOf directory)) tree
          (Generator.writeFiles tree directory output).1) := by
  have hsound : ∀ file ∈ (resolveFiles files).1, file.Sound :=
    fun file hfile => sound_of_mem_resolveFiles hfile
  obtain ⟨after, hgenerate⟩ := generate_eq generator hsound
  refine ⟨after, _, hgenerate, ⟨fun hkeys file hfile hg => ?_, fun hnames key hkey => ?_⟩, ?_, ?_⟩
  · have hkey : Path.IsInner (file.outputPath generator.headers ++ ".h") :=
      hkeys _ ((mem_keys_output_iff hsound).2 ⟨file, hfile, hg, ".h", by simp, rfl⟩)
    exact (HeaderMap.isInner_outputPath_iff (by simp)).1 hkey
  · obtain ⟨file, hfile, hg, extension, hextension, rfl⟩ := (mem_keys_output_iff hsound).1 hkey
    exact (HeaderMap.isInner_outputPath_iff hextension).2 (hnames file hfile hg)
  · intro file _ hinferred hdot hslash
    exact (ProtoFile.staysInside_of_inferred hinferred _).2 (.inr ⟨hdot, hslash⟩)
  · intro hkeys tree directory
    exact FileTree.writeAll_join
      (fun entry hentry => hkeys entry.1 (List.mem_map_of_mem hentry)) tree directory

/-- The namesakes' files are written below the directory. -/
theorem generate_staysInside_namesakes :
    ∃ after output, Generator.generate {} (resolveFiles namesakes).1 = .ok (after, output) ∧
      ∀ tree : FileTree, FileTree.ChangesOnly (FileTree.Below (tree.placeOf "out")) tree
        (Generator.writeFiles tree "out" output).1 := by
  obtain ⟨after, output, hgenerate, hinner, hinferred, hwrite⟩ := generate_staysInside {} namesakes
  have hnames : ∀ file ∈ (resolveFiles namesakes).1, file.file.outerClassname = none ∧
      file.file.classPackage = "" := by decide +kernel
  refine ⟨after, output, hgenerate, fun tree => hwrite (hinner.2 fun file hfile _ => ?_) tree "out"⟩
  obtain ⟨hname, hpackage⟩ := hnames file hfile
  exact hinferred file hfile hname (by simp [hpackage]) (by simp [hpackage])

/-- A proto file whose outer class is named to climb out of the output directory. -/
def climbing : List DescriptorFile :=
  [⟨"x.json", {
      name := "x.proto"
      options := { outerClassname := some "../keep" }
      messageTypes := [{ name := "M" }]
      extensions := [{ name := "e", number := 100, type := .int32, extendee := some "M" }] }⟩]

/-- A tree without files, worked in from its root. -/
def emptyTree : FileTree where
  root := .directory []
  workingDirectory := []

/-- Nothing looks at names as paths: the file is resolved without an error, its source comes out
under a path with a double dot, and writing it under `out` creates a file beside `out`. -/
theorem climbing_leaves_directory :
    (resolveFiles climbing).2.ok = true ∧
      ∃ after output, Generator.generate {} (resolveFiles climbing).1 = .ok (after, output) ∧
        output.keys = ["../keep.h", "../keep.m"] ∧
        ((Generator.writeFiles emptyTree "out" output).1.file? ["keep.m"]).isSome = true ∧
        ¬FileTree.ChangesOnly (FileTree.Below (emptyTree.placeOf "out")) emptyTree
          (Generator.writeFiles emptyTree "out" output).1 := by
  have hsound : ∀ file ∈ (resolveFiles climbing).1, file.Sound :=
    fun file hfile => sound_of_mem_resolveFiles hfile
  obtain ⟨after, hgenerate⟩ := generate_eq {} hsound
  have hkeys : (SortedMap.empty.insertAll (outputs {} (resolveFiles climbing).1)).keys =
      ["../keep.h", "../keep.m"] := by decide +kernel
  have hcreated : ((Generator.writeFiles emptyTree "out"
      (SortedMap.empty.insertAll (outputs {} (resolveFiles climbing).1))).1.file?
        ["keep.m"]).isSome = true := by decide +kernel
  refine ⟨by decide +kernel, after, _, hgenerate, hkeys, hcreated, fun hchanges => ?_⟩
  rcases hchanges.files ["keep.m"] with hsame | hbelow
  · have hbefore : emptyTree.file? ["keep.m"] = none := rfl
    rw [hbefore] at hsame
    exact Option.isSome_iff_ne_none.1 hcreated hsame
  · have hplace : emptyTree.placeOf "out" = ["out"] := by decide +kernel
    rw [hplace] at hbelow
    exact absurd hbelow.1 (by decide)

end ProtoExtensions
