import ProtoExtensions.Proofs.Generation

/-!
Which of the generated files are in the output. Output paths follow from the package and the class
name of a proto file, not from its proto name, so several files can have one path; `emit` then keeps
what it was given last. A file is kept in the output where no later one has its path
(`keptIn_of_eq`), and the output has two files for each path that occurs (`size_of_eq`).
-/

namespace ProtoExtensions

/-! ## The two paths of a file -/

/-- The paths of the header and of the source that belong to an output path. -/
def bothPaths (path : String) : List String :=
  [path ++ ".h", path ++ ".m"]

theorem append_header_ne_append_source (a b : String) : a ++ ".h" ≠ b ++ ".m" := by
  intro h
  have hlast := congrArg (fun s => s.toList.getLast?) h
  simp [String.toList_append] at hlast

theorem nodup_bothPaths (path : String) : (bothPaths path).Nodup := by
  simp [bothPaths]

theorem disjoint_bothPaths {a b : String} (hab : a ≠ b) :
    List.Disjoint (bothPaths a) (bothPaths b) := by
  intro key ha hb
  simp only [bothPaths, List.mem_cons, List.not_mem_nil, or_false] at ha hb
  rcases ha with rfl | rfl <;> rcases hb with h | h
  · exact hab ((String.append_left_inj ".h").1 h)
  · exact append_header_ne_append_source a b h
  · exact append_header_ne_append_source b a h.symm
  · exact hab ((String.append_left_inj ".m").1 h)

theorem nodup_flatMap_bothPaths {paths : List String} (h : paths.Nodup) :
    (paths.flatMap bothPaths).Nodup :=
  List.nodup_flatMap.2 ⟨fun path _ => nodup_bothPaths path, h.imp disjoint_bothPaths⟩

namespace ResolvedFile

variable {headers : HeaderMap}

/-- The output has the header and the source of a file under the file's own paths. -/
def KeptIn (headers : HeaderMap) (output : SortedMap String) (file : ResolvedFile) : Prop :=
  ∃ c header source, OuterClass.ofFile file.file file.extensions headers = .ok c ∧
    c.headerText = .ok header ∧ c.sourceText = .ok source ∧
    output.get? (file.outputPath headers ++ ".h") = some header ∧
    output.get? (file.outputPath headers ++ ".m") = some source

/-- The output paths of all files that code is generated for, in order. -/
def outputPaths (headers : HeaderMap) (files : List ResolvedFile) : List String :=
  (files.filter isGenerated).map (outputPath headers)

/-- What is put into the output for some files, in order. -/
def outputs (headers : HeaderMap) (files : List ResolvedFile) : List (String × String) :=
  ((files.filter isGenerated).filterMap (outerClass? headers)).flatMap OuterClass.outputs

theorem outputs_append (headers : HeaderMap) (a b : List ResolvedFile) :
    outputs headers (a ++ b) = outputs headers a ++ outputs headers b := by
  simp [outputs]

theorem outputs_cons {file : ResolvedFile} (hg : file.isGenerated = true) {c : OuterClass}
    (hc : OuterClass.ofFile file.file file.extensions headers = .ok c) (rest : List ResolvedFile) :
    outputs headers (file :: rest) = c.outputs ++ outputs headers rest := by
  simp [outputs, hg, outerClass?, hc, Except.toOption]

/-- The paths that are put into the output, in order. -/
theorem map_fst_outputs (headers : HeaderMap) :
    ∀ {files : List ResolvedFile}, (∀ file ∈ files, file.Sound) →
      (outputs headers files).map Prod.fst = (outputPaths headers files).flatMap bothPaths
  | [], _ => rfl
  | file :: files, h => by
    have ih := map_fst_outputs headers fun f hf => h f (List.mem_cons_of_mem file hf)
    cases hg : file.isGenerated with
    | false => simpa [outputs, outputPaths, hg] using ih
    | true =>
      obtain ⟨c, hc, hpath⟩ := (h file (by simp)).ofFile_ok headers
      have hkeys : c.outputs.map Prod.fst = bothPaths (file.outputPath headers) := by
        simp [OuterClass.outputs, OuterClass.headerPath, OuterClass.sourcePath, hpath, bothPaths]
      rw [outputs_cons hg hc, List.map_append, ih, hkeys]
      simp [outputPaths, hg]

/-- Files with other output paths put nothing under the paths of a file. -/
theorem not_mem_map_fst_outputs {files : List ResolvedFile} (hsound : ∀ file ∈ files, file.Sound)
    {path : String} (hpath : path ∉ outputPaths headers files) {key : String}
    (hkey : key ∈ bothPaths path) : key ∉ (outputs headers files).map Prod.fst := by
  rw [map_fst_outputs headers hsound]
  intro hmem
  obtain ⟨other, hother, hk⟩ := List.mem_flatMap.1 hmem
  have hne : path ≠ other := fun h => hpath (h ▸ hother)
  exact disjoint_bothPaths hne hkey hk

/-- A file is kept where no later file has its path. -/
theorem keptIn_of_eq {files earlier later : List ResolvedFile} {file : ResolvedFile}
    (hsound : ∀ file ∈ files, file.Sound) (hfiles : files = earlier ++ file :: later)
    (hg : file.isGenerated = true)
    (hpath : file.outputPath headers ∉ outputPaths headers later) :
    file.KeptIn headers (SortedMap.empty.insertAll (outputs headers files)) := by
  subst hfiles
  obtain ⟨c, hc, hcpath⟩ := (hsound file (by simp)).ofFile_ok headers
  have hlater : ∀ f ∈ later, f.Sound := fun f hf => hsound f (by simp [hf])
  have hheader : c.headerPath ∉ (outputs headers later).map Prod.fst :=
    not_mem_map_fst_outputs hlater hpath (by simp [bothPaths, OuterClass.headerPath, hcpath])
  have hsource : c.sourcePath ∉ (outputs headers later).map Prod.fst :=
    not_mem_map_fst_outputs hlater hpath (by simp [bothPaths, OuterClass.sourcePath, hcpath])
  have hother : c.headerPath ≠ c.sourcePath := append_header_ne_append_source _ _
  rw [outputs_append, outputs_cons hg hc, SortedMap.insertAll_append, SortedMap.insertAll_append,
    c.insertAll_outputs]
  refine ⟨c, c.header, c.source, hc, c.headerText_eq, c.sourceText_eq, ?_, ?_⟩
  · rw [← hcpath]
    refine (SortedMap.get?_insertAll_of_not_mem hheader _).trans ?_
    exact (SortedMap.get?_insert_other hother _ _).trans (SortedMap.get?_insert_self _ _ _)
  · rw [← hcpath]
    refine (SortedMap.get?_insertAll_of_not_mem hsource _).trans ?_
    exact SortedMap.get?_insert_self _ _ _

theorem size_of_eq {files : List ResolvedFile} (hsound : ∀ file ∈ files, file.Sound) :
    (SortedMap.empty.insertAll (outputs headers files)).size =
      2 * (outputPaths headers files).dedup.length := by
  have hnodup : ((outputPaths headers files).dedup.flatMap bothPaths).Nodup :=
    nodup_flatMap_bothPaths (List.nodup_dedup _)
  have hperm : (SortedMap.empty.insertAll (outputs headers files)).keys.Perm
      ((outputPaths headers files).dedup.flatMap bothPaths) := by
    refine (List.perm_ext_iff_of_nodup (SortedMap.nodup_keys _) hnodup).2 fun key => ?_
    rw [SortedMap.mem_keys_insertAll, map_fst_outputs headers hsound]
    simp [SortedMap.keys, SortedMap.empty]
  have hsize := hperm.length_eq
  simp only [SortedMap.keys, List.length_map, List.length_flatMap, bothPaths, List.length_cons,
    List.length_nil, List.map_const', List.sum_replicate_nat] at hsize
  rw [SortedMap.size, hsize]
  omega

end ResolvedFile

open ResolvedFile

theorem length_dedup_eq_iff {items : List String} :
    2 * items.dedup.length = 2 * items.length ↔ items.Nodup := by
  constructor
  · intro h
    exact List.dedup_eq_self.1 ((List.dedup_sublist items).eq_of_length (by omega))
  · intro h
    rw [List.dedup_eq_self.2 h]

/-- **Output is lost only to files with the same path.** Generation succeeds for whatever resolution
returns. The header and the source of a file with extensions are in the output unless a later file
with extensions has its path, and the output has two files for each path, so two for each file with
extensions exactly if no two of these have one path. -/
theorem generate_keeps (generator : Generator) (files : List DescriptorFile) :
    ∃ after output, generator.generate (resolveFiles files).1 = .ok (after, output) ∧
      (∀ earlier file later, (resolveFiles files).1 = earlier ++ file :: later →
        file.isGenerated = true →
        file.outputPath generator.headers ∉ outputPaths generator.headers later →
        file.KeptIn generator.headers output) ∧
      output.size =
        2 * (outputPaths generator.headers (resolveFiles files).1).dedup.length ∧
      (output.size = 2 * ((resolveFiles files).1.filter isGenerated).length ↔
        (outputPaths generator.headers (resolveFiles files).1).Nodup) := by
  have hsound : ∀ file ∈ (resolveFiles files).1, file.Sound :=
    fun file hfile => sound_of_mem_resolveFiles hfile
  obtain ⟨after, hgenerate⟩ := generate_eq generator hsound
  refine ⟨after, _, hgenerate, fun earlier file later hfiles hg hpath => ?_, size_of_eq hsound, ?_⟩
  · exact keptIn_of_eq hsound hfiles hg hpath
  · have hlength : ((resolveFiles files).1.filter isGenerated).length =
        (outputPaths generator.headers (resolveFiles files).1).length := by
      simp [outputPaths]
    rw [hlength, ← length_dedup_eq_iff]
    exact Eq.congr_left (size_of_eq hsound)

/-- The later namesake is kept. -/
theorem generate_keeps_namesakes :
    ∃ after output, Generator.generate {} (resolveFiles namesakes).1 = .ok (after, output) ∧
      ∃ file ∈ (resolveFiles namesakes).1, file.path = "two.json" ∧ file.KeptIn {} output := by
  obtain ⟨after, output, hgenerate, hkept, -⟩ := generate_keeps {} namesakes
  have hlength : (resolveFiles namesakes).1.length = 2 := by decide +kernel
  have hpaths : (resolveFiles namesakes).1.map (·.path) = ["one.json", "two.json"] := by
    decide +kernel
  have hall : (resolveFiles namesakes).1.all isGenerated = true := by decide +kernel
  obtain ⟨first, second, hfiles⟩ := List.length_eq_two.1 hlength
  rw [hfiles] at hpaths hall
  refine ⟨after, output, hgenerate, second, by simp [hfiles], by simp_all, ?_⟩
  exact hkept [first] second [] hfiles (by simp_all) (by simp [outputPaths])

/-- Distinct proto names do not keep output apart: the namesakes are fine and both have an
extension, but they have one path, and only two files come out. -/
theorem namesakes_lose_output :
    (namesakes.map (·.spec.name)).Nodup ∧ (resolveFiles namesakes).2.ok = true ∧
      ((resolveFiles namesakes).1.filter isGenerated).length = 2 ∧
      ∃ after output, Generator.generate {} (resolveFiles namesakes).1 = .ok (after, output) ∧
        output.size = 2 := by
  have hsound : ∀ file ∈ (resolveFiles namesakes).1, file.Sound :=
    fun file hfile => sound_of_mem_resolveFiles hfile
  have hpaths : outputPaths {} (resolveFiles namesakes).1 = ["X", "X"] := by decide +kernel
  obtain ⟨after, hgenerate⟩ := generate_eq {} hsound
  refine ⟨by decide +kernel, by decide +kernel, by decide +kernel, after, _, hgenerate, ?_⟩
  rw [show ({} : Generator).headers = {} from rfl]
  exact (size_of_eq hsound).trans (by rw [hpaths]; decide)

end ProtoExtensions
