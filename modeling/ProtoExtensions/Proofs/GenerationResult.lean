import ProtoExtensions.Proofs.Identities
import ProtoExtensions.Proofs.OutputFiles

/-!
What a call of the generator gives. It succeeds exactly if all extensions can be lowered; the output
is then what the files put in, and the header map has an entry for each file with extensions, new or
in place of an old one (`Generator.generate_eq_ok_iff`). Nothing is entered before all files are
done, so a file comes out the same whatever stands before it in the list, and where no two files
have one path or one name, the order of the list does not matter (`Generator.generate_perm`).
-/

namespace ProtoExtensions

/-! ## Entries in a header map -/

/-- A class is found again in its qualified name, if its own name has no dot. -/
theorem qualifiedName_inj {package package' unit unit' : String} (h : '.' ∉ unit.toList)
    (h' : '.' ∉ unit'.toList) :
    qualifiedName package unit = qualifiedName package' unit' ↔
      package = package' ∧ unit = unit' := by
  constructor
  · have hchars (package unit : String) :
        (package ++ "." ++ unit).toList = package.toList ++ '.' :: unit.toList := by simp
    unfold qualifiedName
    intro heq
    by_cases hp : package = ""
    · by_cases hp' : package' = ""
      · rw [if_pos hp, if_pos hp'] at heq
        exact ⟨hp.trans hp'.symm, heq⟩
      · rw [if_pos hp, if_neg hp'] at heq
        exact absurd (by simp [heq]) h
    · by_cases hp' : package' = ""
      · rw [if_neg hp, if_pos hp'] at heq
        exact absurd (by simp [← heq]) h'
      · rw [if_neg hp, if_neg hp', ← String.toList_inj, hchars, hchars,
          append_separator_inj h h', String.toList_inj, String.toList_inj] at heq
        exact heq
  · rintro ⟨rfl, rfl⟩
    rfl

example : qualifiedName "a.B" "C" = qualifiedName "a" "B.C" := by decide +kernel

/-! ## What is entered -/

namespace ResolvedFile

/-- The dotted name of the file's outer class. -/
def qualifiedName (file : ResolvedFile) : String :=
  ProtoExtensions.qualifiedName file.file.classPackage file.file.outerClass

/-- The path of the header that is generated for the file. -/
def headerPath (headers : HeaderMap) (file : ResolvedFile) : String :=
  file.outputPath headers ++ ".h"

/-- The entries for the headers of all files that code is generated for, in order. -/
def recorded (headers : HeaderMap) (files : List ResolvedFile) : List (String × String) :=
  (files.filter isGenerated).map fun file => (file.qualifiedName, file.headerPath headers)

/-- The names of all outer classes that are generated, in order. -/
def qualifiedNames (files : List ResolvedFile) : List String :=
  (files.filter isGenerated).map qualifiedName

theorem map_fst_recorded (headers : HeaderMap) (files : List ResolvedFile) :
    (recorded headers files).map Prod.fst = qualifiedNames files := by
  simp [recorded, qualifiedNames]

@[simp] theorem recorded_putAll (headers : HeaderMap) (entries : List (String × String))
    (files : List ResolvedFile) :
    recorded (headers.putAll entries) files = recorded headers files := by
  simp [recorded, headerPath, outputPath]

theorem record_outerClasses (headers : HeaderMap) {files : List ResolvedFile}
    (h : ∀ file ∈ files, file.Sound) :
    Generator.record headers ((files.filter isGenerated).filterMap (outerClass? headers)) =
      headers.putAll (recorded headers files) := by
  have hentries : ((files.filter isGenerated).filterMap (outerClass? headers)).map
      OuterClass.mapping = recorded headers files := by
    induction files with
    | nil => rfl
    | cons file rest ih =>
      have hrest := ih fun f hf => h f (List.mem_cons_of_mem file hf)
      cases hg : file.isGenerated with
      | false => simpa [recorded, hg] using hrest
      | true =>
        obtain ⟨c, hc, hfile, hheaders, -⟩ := (h file (by simp)).exists_outerClass headers
        have hentry : c.mapping = (file.qualifiedName, file.headerPath headers) := by
          simp only [OuterClass.mapping, OuterClass.qualifiedName, OuterClass.headerPath,
            OuterClass.outputPath, hfile, hheaders]
          rfl
        simpa [recorded, hg, outerClass?, hc, Except.toOption, hentry] using hrest
  rw [← hentries, HeaderMap.putAll, List.foldl_map]
  rfl

end ResolvedFile

open ResolvedFile

/-! ## One call -/

theorem violation?_eq_none_of_lowerAll :
    ∀ {fields : List ExtensionField} {lowered : List LoweredField},
      lowerAll fields = .ok lowered → ∀ field ∈ fields, field.violation? = none
  | [], _, _ => by simp
  | first :: rest, lowered, h => by
    obtain ⟨f, hfirst, h⟩ := bind_eq_ok_iff.1 h
    obtain ⟨more, hrest, -⟩ := bind_eq_ok_iff.1 h
    intro field hfield
    rcases List.mem_cons.1 hfield with rfl | hfield
    · unfold ExtensionField.lower at hfirst
      split at hfirst <;> cases hfirst
      next hlowered => exact LoweredField.ofField_eq_ok_iff.1 ⟨_, hlowered⟩
    · exact violation?_eq_none_of_lowerAll hrest field hfield

namespace Generator

theorem sound_of_outerClasses {headers : HeaderMap} :
    ∀ {files : List ResolvedFile} {classes : List OuterClass},
      outerClasses headers files = .ok classes → ∀ file ∈ files, file.Sound
  | [], _, _ => by simp
  | first :: rest, classes, h => by
    unfold outerClasses at h
    have hboth : first.Sound ∧ ∃ more, outerClasses headers rest = .ok more := by
      split at h
      · next hempty =>
        have hnone : first.extensions = [] := by simpa using hempty
        exact ⟨fun field hfield => by simp [hnone] at hfield, classes, h⟩
      · obtain ⟨c, hc, h⟩ := bind_eq_ok_iff.1 h
        obtain ⟨more, hmore, -⟩ := bind_eq_ok_iff.1 h
        obtain ⟨lowered, hlowered, -⟩ := map_eq_ok_iff.1 hc
        exact ⟨violation?_eq_none_of_lowerAll hlowered, more, hmore⟩
    obtain ⟨hfirst, more, hmore⟩ := hboth
    intro file hfile
    rcases List.mem_cons.1 hfile with rfl | hfile
    · exact hfirst
    · exact sound_of_outerClasses hmore file hfile

/-- **What a call gives**: it succeeds exactly if all extensions can be lowered. Then the generator
has the headers of the files with extensions entered in its map, and the output is what these files
put in, one after the other. -/
theorem generate_eq_ok_iff {generator after : Generator} {files : List ResolvedFile}
    {output : SortedMap String} :
    generator.generate files = .ok (after, output) ↔
      (∀ file ∈ files, file.Sound) ∧
        after = { generator with
          headers := generator.headers.putAll (recorded generator.headers files) } ∧
        output = SortedMap.empty.insertAll (outputs generator.headers files) := by
  have hcall (h : ∀ file ∈ files, file.Sound) : generator.generate files =
      .ok ({ generator with
        headers := generator.headers.putAll (recorded generator.headers files) },
        SortedMap.empty.insertAll (outputs generator.headers files)) := by
    rw [← record_outerClasses generator.headers h]
    exact bind_eq_ok_iff.2 ⟨_, outerClasses_eq generator.headers h,
      bind_eq_ok_iff.2 ⟨_, emit_eq _ _, rfl⟩⟩
  constructor
  · intro h
    obtain ⟨classes, hclasses, -⟩ := bind_eq_ok_iff.1 h
    have hsound := sound_of_outerClasses hclasses
    rw [hcall hsound] at h
    cases h
    exact ⟨hsound, rfl, rfl⟩
  · rintro ⟨hsound, rfl, rfl⟩
    exact hcall hsound

theorem exists_generate_iff {generator : Generator} {files : List ResolvedFile} :
    (∃ result, generator.generate files = .ok result) ↔ ∀ file ∈ files, file.Sound := by
  constructor
  · rintro ⟨⟨after, output⟩, h⟩
    exact (generate_eq_ok_iff.1 h).1
  · exact fun h => ⟨_, generate_eq_ok_iff.2 ⟨h, rfl, rfl⟩⟩

/-! ## The order of files -/

variable {generator : Generator} {files files' : List ResolvedFile}

/-- **The order of files does not matter to generation.** Where the files with extensions have
distinct output paths and their outer classes distinct qualified names, a call succeeds exactly if
all extensions can be lowered, and with the files in another order it gives the same output and the
same generator, or fails as well. -/
theorem generate_perm (h : files.Perm files')
    (hpaths : (outputPaths generator.headers files).Nodup)
    (hnames : (qualifiedNames files).Nodup) :
    ((∃ result, generator.generate files = .ok result) ↔ ∀ file ∈ files, file.Sound) ∧
      ∀ result, generator.generate files = .ok result ↔
        generator.generate files' = .ok result := by
  refine ⟨exists_generate_iff, fun ⟨after, output⟩ => ?_⟩
  rw [generate_eq_ok_iff, generate_eq_ok_iff]
  have hsound : (∀ file ∈ files, file.Sound) ↔ ∀ file ∈ files', file.Sound := by
    simp only [h.mem_iff]
  have hentries : (recorded generator.headers files).Perm (recorded generator.headers files') :=
    (h.filter _).map _
  have hputs : (outputs generator.headers files).Perm (outputs generator.headers files') :=
    ((h.filter _).filterMap _).flatMap_right _
  rw [← hsound, HeaderMap.putAll_perm hentries (by rwa [map_fst_recorded])]
  refine and_congr_right fun hall => and_congr_right fun _ => ?_
  rw [SortedMap.insertAll_perm hputs]
  rw [map_fst_outputs generator.headers hall]
  exact nodup_flatMap_bothPaths hpaths

/-- The files that refer to each other come out the same in both orders. -/
theorem generate_perm_crossReferences :
    ∃ result, Generator.generate {} (resolveFiles crossReferences).1 = .ok result ∧
      Generator.generate {} (resolveFiles crossReferences).1.reverse = .ok result := by
  have hsound : ∀ file ∈ (resolveFiles crossReferences).1, file.Sound :=
    fun file hfile => sound_of_mem_resolveFiles hfile
  have hpaths : (outputPaths {} (resolveFiles crossReferences).1).Nodup := by decide +kernel
  have hnames : (qualifiedNames (resolveFiles crossReferences).1).Nodup := by decide +kernel
  obtain ⟨hcall, hsame⟩ :=
    @generate_perm {} _ _ (List.reverse_perm _).symm hpaths hnames
  obtain ⟨result, h⟩ := hcall.2 hsound
  exact ⟨result, h, (hsame result).1 h⟩

end Generator

end ProtoExtensions
