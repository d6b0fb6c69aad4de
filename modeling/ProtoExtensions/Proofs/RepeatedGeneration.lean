import ProtoExtensions.Proofs.Identities
import ProtoExtensions.Proofs.GenerationResult

/-!
Calling the generator again. A call enters the headers that it has generated in the map that the
next call reads. What it enters depends on the style of the map alone, so the second call enters the
same once more, the map stays as it is from then on, and with it all output. The first call can
differ: it has asked the map for headers of classes before these entries were in it. It gives the
same where the entries tell nothing new (`HeaderMap.headerFor_recorded`), that is, where only
classes of the entries have their names, and no such class was mapped to another header.
-/

namespace ProtoExtensions

/-! ## What sources need of a header map -/

theorem LoweredField.sourceImport?_congr {headers headers' : HeaderMap} {f : LoweredField}
    (htype : ∀ type, f.field.value.typeRef? = some type →
      headers'.headerForType type = headers.headerForType type)
    (hscope : f.scopeHeader headers' = f.scopeHeader headers) :
    f.sourceImport? headers' = f.sourceImport? headers := by
  unfold sourceImport?
  cases h : f.field.value.typeRef? with
  | none => rfl
  | some type => simp only [Option.bind_some, htype type h, hscope]

namespace OuterClass

/-- The class with another header map. -/
def withHeaders (c : OuterClass) (headers : HeaderMap) : OuterClass :=
  { c with headers }

theorem outputs_withHeaders {c : OuterClass} {headers : HeaderMap}
    (hpath : (c.withHeaders headers).outputPath = c.outputPath)
    (himports : ∀ f ∈ c.extensions, f.sourceImport? headers = f.sourceImport? c.headers) :
    (c.withHeaders headers).outputs = c.outputs := by
  have hheaderPath : (c.withHeaders headers).headerPath = c.headerPath :=
    congrArg (· ++ ".h") hpath
  have hsourcePath : (c.withHeaders headers).sourcePath = c.sourcePath :=
    congrArg (· ++ ".m") hpath
  have hblock : (c.withHeaders headers).sourceImports = c.sourceImports := by
    unfold sourceImports
    rw [hheaderPath]
    simp only [withHeaders, List.filterMap_congr himports]
  have hprint : (c.withHeaders headers).printSource = c.printSource := by
    funext printer
    unfold printSource
    rw [hheaderPath, hblock]
    rfl
  -- the text of a header does not depend on the map
  have hheader : (c.withHeaders headers).header = c.header := by
    have hlines : (c.withHeaders headers).headerLines = c.headerLines := rfl
    have hheaderText := (c.withHeaders headers).headerText_eq_textOfLines
    rw [hlines, ← headerText_eq_textOfLines, headerText_eq, headerText_eq] at hheaderText
    exact Except.ok.inj hheaderText
  have hsource : (c.withHeaders headers).source = c.source := by
    have hsourceText : (c.withHeaders headers).sourceText = c.sourceText := by
      unfold sourceText
      rw [hprint]
    rw [sourceText_eq, sourceText_eq] at hsourceText
    exact Except.ok.inj hsourceText
  rw [outputs, outputs, hheaderPath, hsourcePath, hheader, hsource]

end OuterClass

namespace ResolvedFile

/-- The top-level classes whose headers count for a file: its outer class, and for each extension
the unit of its scope and that of its value type. -/
def units (file : ResolvedFile) : List String :=
  file.file.outerClass :: file.extensions.flatMap fun field =>
    field.scope.unitName :: field.value.typeRef?.toList.map TypeRef.unitName

/-- Files give the same with maps that agree on their paths and on the headers of their units. -/
theorem outputs_congr {headers headers' : HeaderMap}
    (hpath : ∀ package unit, headers'.outputPath package unit = headers.outputPath package unit) :
    ∀ {files : List ResolvedFile}, (∀ file ∈ files, file.Sound) →
      (∀ file ∈ files, file.isGenerated = true → ∀ unit ∈ file.units, ∀ package,
        headers'.headerFor package unit = headers.headerFor package unit) →
      outputs headers' files = outputs headers files
  | [], _, _ => rfl
  | file :: files, hsound, hunits => by
    have hrest := outputs_congr hpath (fun f hf => hsound f (List.mem_cons_of_mem file hf))
      fun f hf => hunits f (List.mem_cons_of_mem file hf)
    cases hg : file.isGenerated with
    | false => simpa [outputs, hg] using hrest
    | true =>
      obtain ⟨lowered, hlowered⟩ := lowerAll_ok (hsound file (by simp))
      have hclass (headers : HeaderMap) : OuterClass.ofFile file.file file.extensions headers =
          .ok ⟨file.file, lowered, headers⟩ := map_eq_ok_iff.2 ⟨lowered, hlowered, rfl⟩
      have hfields := map_field_of_lowerAll hlowered
      have hunit {f : LoweredField} (hf : f ∈ lowered) {unit : String}
          (h : unit ∈ f.field.scope.unitName ::
            f.field.value.typeRef?.toList.map TypeRef.unitName) (package : String) :
          headers'.headerFor package unit = headers.headerFor package unit := by
        have hfield : f.field ∈ file.extensions := hfields ▸ List.mem_map_of_mem hf
        refine hunits file (by simp) hg unit (List.mem_cons_of_mem _ ?_) package
        exact List.mem_flatMap.2 ⟨f.field, hfield, h⟩
      have himports : ∀ f ∈ lowered, f.sourceImport? headers' = f.sourceImport? headers := by
        intro f hf
        refine LoweredField.sourceImport?_congr (fun type htype => ?_) ?_
        · exact hunit hf (by simp [htype]) _
        · exact hunit hf List.mem_cons_self _
      have hsame : OuterClass.outputs ⟨file.file, lowered, headers'⟩ =
          OuterClass.outputs ⟨file.file, lowered, headers⟩ :=
        OuterClass.outputs_withHeaders (c := ⟨file.file, lowered, headers⟩) (hpath _ _) himports
      rw [outputs_cons hg (hclass headers'), outputs_cons hg (hclass headers), hrest, hsame]

end ResolvedFile

open ResolvedFile

/-! ## What new entries change -/

/-- Entries for generated headers change the header of no class, where no class name has a dot, and
no class was mapped to another header than the one that is generated for it. -/
theorem HeaderMap.headerFor_recorded {headers : HeaderMap} {files : List ResolvedFile}
    {unit : String} (hunit : '.' ∉ unit.toList)
    (houter : ∀ file ∈ files, file.isGenerated = true → '.' ∉ file.file.outerClass.toList)
    (hmapped : ∀ file ∈ files, file.isGenerated = true → ∀ header,
      headers.mapped? file.qualifiedName = some header → header = file.headerPath headers)
    (package : String) :
    (headers.putAll (recorded headers files)).headerFor package unit =
      headers.headerFor package unit := by
  rw [headerFor, mapped?_putAll, outputPath_putAll, headerFor]
  cases hfound : (recorded headers files).reverse.lookup (qualifiedName package unit) with
  | none => rfl
  | some header =>
    -- an entry with this name is one for this class
    have hentry : (qualifiedName package unit, header) ∈ recorded headers files := by
      obtain ⟨front, back, heq, -⟩ := List.lookup_eq_some_iff.1 hfound
      rw [← List.mem_reverse, heq]
      simp
    obtain ⟨file, hfile, heq⟩ := List.mem_map.1 hentry
    obtain ⟨hmem, hg⟩ := List.mem_filter.1 hfile
    obtain ⟨hname, rfl⟩ := Prod.mk.inj heq
    obtain ⟨hpackage, hclass⟩ := (qualifiedName_inj (houter file hmem hg) hunit).1 hname
    have hpath : file.headerPath headers = headers.outputPath package unit ++ ".h" := by
      rw [headerPath, ResolvedFile.outputPath, hpackage, hclass]
    rw [Option.some_or, Option.getD_some, ← hname]
    cases hold : headers.mapped? file.qualifiedName with
    | none => exact hpath
    | some old => exact (hmapped file hmem hg old hold).symm

example : (({} : HeaderMap).put (qualifiedName "a" "B.C") "a/B.C.h").headerFor "a.B" "C" ≠
    ({} : HeaderMap).headerFor "a.B" "C" := by decide +kernel

namespace Generator

/-! ## Further calls -/

/-- What the last one of several calls gives, each made to the generator that the one before has
left. The calls after the first one are counted. -/
def generateAgain (generator : Generator) (files : List ResolvedFile) :
    Nat → Except GenerationFault (Generator × SortedMap String)
  | 0 => generator.generate files
  | n + 1 => do
    let (next, _) ← generator.generateAgain files n
    next.generate files

variable {generator after : Generator} {files : List ResolvedFile} {output : SortedMap String}

theorem generate_of_generate (h : generator.generate files = .ok (after, output)) :
    after.generate files =
      .ok (after, SortedMap.empty.insertAll (outputs after.headers files)) := by
  obtain ⟨hsound, rfl, -⟩ := generate_eq_ok_iff.1 h
  refine generate_eq_ok_iff.2 ⟨hsound, ?_, rfl⟩
  simp only [recorded_putAll, HeaderMap.putAll_putAll_self]

/-- All calls after the first one give the same. -/
theorem generateAgain_succ (h : generator.generate files = .ok (after, output)) (n : Nat) :
    generator.generateAgain files (n + 1) =
      .ok (after, SortedMap.empty.insertAll (outputs after.headers files)) := by
  have hnext := generate_of_generate h
  induction n with
  | zero => exact bind_eq_ok_iff.2 ⟨_, h, hnext⟩
  | succ n ih => exact bind_eq_ok_iff.2 ⟨_, ih, hnext⟩

/-- **Generation comes to rest at the second call.** A call succeeds exactly if all extensions can
be lowered. It then leaves the header map with the headers of the files with extensions put in, one
after the other, and otherwise as it was. All further calls leave the map as it is and give one
output. This is the output of the first call already, if no name of a class that counts has a dot in
it, and no generated class was mapped to another header. -/
theorem generate_comesToRest (generator : Generator) (files : List ResolvedFile) :
    ((∃ result, generator.generate files = .ok result) ↔ ∀ file ∈ files, file.Sound) ∧
    ∀ after output, generator.generate files = .ok (after, output) →
      after.options = generator.options ∧
      after.headers = (files.filter isGenerated).foldl
        (fun headers file => headers.put file.qualifiedName (file.headerPath generator.headers))
        generator.headers ∧
      (∀ name ∉ qualifiedNames files,
        after.headers.mapped? name = generator.headers.mapped? name) ∧
      ∃ again, (∀ n, generator.generateAgain files (n + 1) = .ok (after, again)) ∧
        ((∀ file ∈ files, file.isGenerated = true → ∀ unit ∈ file.units, '.' ∉ unit.toList) →
          (∀ file ∈ files, file.isGenerated = true → ∀ header,
            generator.headers.mapped? file.qualifiedName = some header →
              header = file.headerPath generator.headers) →
          again = output) := by
  refine ⟨exists_generate_iff, fun after output h => ?_⟩
  have hagain := generateAgain_succ h
  obtain ⟨hsound, rfl, rfl⟩ := generate_eq_ok_iff.1 h
  refine ⟨rfl, ?_, fun name hname => ?_, _, hagain, fun hunits hmapped => ?_⟩
  · simp only [HeaderMap.putAll, recorded, List.foldl_map]
  · rw [← map_fst_recorded generator.headers] at hname
    exact HeaderMap.mapped?_putAll_of_not_mem hname generator.headers
  · have houter : ∀ file ∈ files, file.isGenerated = true →
        '.' ∉ file.file.outerClass.toList :=
      fun file hfile hg => hunits file hfile hg _ List.mem_cons_self
    congr 1
    refine outputs_congr (HeaderMap.outputPath_putAll _ _) hsound fun file hfile hg unit hunit => ?_
    exact HeaderMap.headerFor_recorded (hunits file hfile hg unit hunit) houter hmapped

/-- A generator that was told of one header that it is going to generate. -/
def expectant : Generator where
  headers := ({} : HeaderMap).put "a.One" "a/One.h"

/-- The files that refer to each other come out the same in every call. -/
theorem generate_comesToRest_crossReferences :
    ∃ after output, expectant.generate (resolveFiles crossReferences).1 = .ok (after, output) ∧
      after.headers.mappings.entries = [("a.One", "a/One.h"), ("a.Two", "a/Two.h")] ∧
      ∀ n, expectant.generateAgain (resolveFiles crossReferences).1 (n + 1) =
        .ok (after, output) := by
  have hsound : ∀ file ∈ (resolveFiles crossReferences).1, file.Sound :=
    fun file hfile => sound_of_mem_resolveFiles hfile
  have hunits : ∀ file ∈ (resolveFiles crossReferences).1, ∀ unit ∈ file.units,
      '.' ∉ unit.toList := by decide +kernel
  have hmapped : ∀ file ∈ (resolveFiles crossReferences).1,
      ∀ header ∈ expectant.headers.mapped? file.qualifiedName,
        header = file.headerPath expectant.headers := by decide +kernel
  have hentries : (((resolveFiles crossReferences).1.filter isGenerated).foldl
      (fun headers file => headers.put file.qualifiedName (file.headerPath expectant.headers))
      expectant.headers).mappings.entries = [("a.One", "a/One.h"), ("a.Two", "a/Two.h")] := by
    decide +kernel
  obtain ⟨hcall, hresult⟩ := generate_comesToRest expectant (resolveFiles crossReferences).1
  obtain ⟨⟨after, output⟩, h⟩ := hcall.2 hsound
  obtain ⟨-, hheaders, -, again, hagain, hsame⟩ := hresult after output h
  obtain rfl : again = output :=
    hsame (fun file hfile _ => hunits file hfile) fun file hfile _ => hmapped file hfile
  exact ⟨after, again, h, by rw [hheaders, hentries], hagain⟩

end Generator

end ProtoExtensions
