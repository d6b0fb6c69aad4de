import ProtoExtensions.CommandLine
import ProtoExtensions.Proofs.GenerationResult
import ProtoExtensions.Proofs.Loading

/-!
Runs of `generate`. A run stops before it writes where the descriptors cannot be loaded, where the
report on them has an error, or where the options or the header mappings cannot be read; all of this
comes before the first write (`GenerateRequest.RunsTo`). Resolved files can always be generated, so
nothing else stops a run until it writes. The first two reasons are those for which `check` fails,
and on the error output they look like no other.
-/

namespace ProtoExtensions

/-! ## Reading header mappings -/

namespace Properties

/-- Whether lines can be read, and how many entries they have, does not depend on the map that the
entries go to. -/
theorem readLines_snd_eq (map map' : HeaderMap) (count : Nat) (pending : List Char)
    (start number : Nat) (rows : List (List Char)) :
    (readLines ⟨map, count, pending, start⟩ number rows).2 =
      (readLines ⟨map', count, pending, start⟩ number rows).2 := by
  induction rows generalizing map map' count pending start number with
  | nil =>
    rw [readLines, readLines]
    split <;> rfl
  | cons raw rest ih =>
    rw [readLines, readLines, readLine, readLine]
    dsimp only
    cases hskip : pending.isEmpty && isSkipped (trimStart raw) with
    | true => exact ih map map' count pending start (number + 1)
    | false =>
      simp only [Bool.false_eq_true, if_false]
      cases continued? (trimStart raw) with
      | some text => exact ih map map' _ _ _ _
      | none =>
        dsimp only
        cases (splitEntry (pending ++ trimStart raw)).2.isEmpty with
        | true => rfl
        | false => exact ih _ _ _ _ _ _

end Properties

namespace HeaderMap

/-- Whether a mapping file can be read does not depend on the map that it is read into. -/
theorem exists_load_eq_error_iff (map map' : HeaderMap) (tree : FileTree) (path : String) :
    (∃ fault, map.load tree path = .error fault) ↔ ∃ fault, map'.load tree path = .error fault := by
  unfold load
  cases tree.readText path with
  | error fault => simp
  | ok text =>
    have hsame : (map.readMappings text).2 = (map'.readMappings text).2 :=
      Properties.readLines_snd_eq map map' 0 [] 0 1 _
    cases h : map.readMappings text with
    | mk read result =>
      cases h' : map'.readMappings text with
      | mk read' result' =>
        obtain rfl : result = result' := by simpa [h, h'] using hsame
        cases result <;> simp [h, h']

theorem exists_loadAll_eq_error_iff (known : HeaderMap) {tree : FileTree} {paths : List String}
    {map : HeaderMap} :
    (∃ fault, map.loadAll tree paths = .error fault) ↔
      ∃ path ∈ paths, ∃ fault, known.load tree path = .error fault := by
  induction paths generalizing map with
  | nil => simp [loadAll]
  | cons path rest ih =>
    rw [loadAll, List.exists_mem_cons_iff, exists_load_eq_error_iff known map]
    cases h : map.load tree path with
    | error fault => simp
    | ok result => simpa using ih

end HeaderMap

/-! ## Reports -/

theorem loadAndResolve_eq_ok_iff {tree : FileTree} {path : String} {files : List ResolvedFile}
    {report : Report} :
    loadAndResolve tree path = .ok (files, report) ↔
      ∃ loaded, tree.loadDescriptors path = .ok loaded ∧
        files = (resolveFiles loaded.files).1 ∧
        report = loaded.report.merge (resolveFiles loaded.files).2 := by
  unfold loadAndResolve
  cases tree.loadDescriptors path with
  | error fault => simp
  | ok loaded => simp [eq_comm]

theorem loadAndResolve_eq_error_iff {tree : FileTree} {path : String} {fault : RunFault} :
    loadAndResolve tree path = .error fault ↔
      ∃ cause, tree.loadDescriptors path = .error cause ∧ fault = .load path cause := by
  unfold loadAndResolve
  cases tree.loadDescriptors path with
  | error cause => simp [eq_comm]
  | ok loaded => simp

theorem isConsistent_of_loadAndResolve {tree : FileTree} {path : String}
    {files : List ResolvedFile} {report : Report}
    (h : loadAndResolve tree path = .ok (files, report)) : report.IsConsistent := by
  obtain ⟨loaded, hloaded, -, rfl⟩ := loadAndResolve_eq_ok_iff.1 h
  exact (FileTree.isConsistent_of_loadDescriptors hloaded).merge _

theorem runCheck_exitCode_eq_zero_iff {tree : FileTree} {path : String} :
    (runCheck tree path).exitCode = 0 ↔
      ∃ files report, loadAndResolve tree path = .ok (files, report) ∧ report.ok = true := by
  unfold runCheck
  cases h : loadAndResolve tree path with
  | error fault => simp
  | ok result =>
    obtain ⟨files, report⟩ := result
    have hok := (isConsistent_of_loadAndResolve h).ok_iff_count
    by_cases hcount : report.count .error = 0 <;> simp [hcount, hok]

/-! ## What a run comes to -/

namespace GenerateRequest

variable {request : GenerateRequest} {tree : FileTree}

/-- What a run of a request can come to. Only the last case writes. -/
inductive RunsTo (request : GenerateRequest) (tree : FileTree) : Outcome → Prop where
  | unloaded {fault : RunFault} {output : List String} :
    loadAndResolve tree request.directory = .error fault →
    RunsTo request tree
      { exitCode := 1, output, errors := ["error: " ++ fault.message], tree }
  | refused {files : List ResolvedFile} {report : Report} {output : List String} :
    loadAndResolve tree request.directory = .ok (files, report) →
    report.ok = false →
    RunsTo request tree
      { exitCode := 1
        output
        errors := ["✗ " ++ toString (report.count .error) ++
          " error(s), fix them before generating code"]
        tree }
  | unprepared {files : List ResolvedFile} {report : Report} {fault : RunFault}
      {output : List String} :
    loadAndResolve tree request.directory = .ok (files, report) →
    report.ok = true →
    generateFor tree request files = .error fault →
    RunsTo request tree
      { exitCode := 1, output, errors := ["error: " ++ fault.message], tree }
  | failed {files : List ResolvedFile} {report : Report} {generator : Generator}
      {generated : SortedMap String} {written : FileTree} {lines output : List String}
      {fault : RunFault} :
    loadAndResolve tree request.directory = .ok (files, report) →
    report.ok = true →
    generateFor tree request files = .ok (generator, generated) →
    writeGenerated tree request.outputDirectory generator generated = (written, lines, some fault) →
    RunsTo request tree
      { exitCode := 1, output, errors := ["error: " ++ fault.message], tree := written }
  | done {files : List ResolvedFile} {report : Report} {generator : Generator}
      {generated : SortedMap String} {written : FileTree} {lines output : List String} :
    loadAndResolve tree request.directory = .ok (files, report) →
    report.ok = true →
    generateFor tree request files = .ok (generator, generated) →
    writeGenerated tree request.outputDirectory generator generated = (written, lines, none) →
    RunsTo request tree { output, tree := written }

theorem runsTo_runGenerate (request : GenerateRequest) (tree : FileTree) :
    request.RunsTo tree (runGenerate tree request) := by
  unfold runGenerate
  cases hload : loadAndResolve tree request.directory with
  | error fault => exact .unloaded hload
  | ok result =>
    obtain ⟨files, report⟩ := result
    have hcount := (isConsistent_of_loadAndResolve hload).ok_iff_count
    cases hok : report.ok with
    | false =>
      rw [hok, Bool.false_eq_true, false_iff] at hcount
      simp only [if_pos hcount]
      exact .refused hload hok
    | true =>
      simp only [ne_eq, hcount.1 hok, not_true_eq_false, if_false]
      cases hgenerate : generateFor tree request files with
      | error fault => exact .unprepared hload hok hgenerate
      | ok generated =>
        obtain ⟨generator, generated⟩ := generated
        cases hwrite : writeGenerated tree request.outputDirectory generator generated with
        | mk written rest =>
          obtain ⟨lines, fault⟩ := rest
          simp only [hwrite]
          cases fault with
          | none => exact .done hload hok hgenerate hwrite
          | some fault => exact .failed hload hok hgenerate hwrite

/-! ## What keeps a run from writing -/

/-- What keeps a request from being carried out: descriptors that cannot be loaded, an error in the
report on them, or an options file or a mapping file that cannot be read. -/
inductive Blocked (request : GenerateRequest) (tree : FileTree) : Prop where
  | descriptors {fault : LoadFault} :
    tree.loadDescriptors request.directory = .error fault →
    Blocked request tree
  | report {loaded : Loaded} {d : Diagnostic} :
    tree.loadDescriptors request.directory = .ok loaded →
    d ∈ (loaded.report.merge (resolveFiles loaded.files).2).entries →
    d.severity = .error →
    Blocked request tree
  | options {path : String} {fault : SetupFault} :
    request.optionsFile? tree = some path →
    Options.load tree path = .error fault →
    Blocked request tree
  | mapping {options : Options} {path : String} {known : HeaderMap} {fault : SetupFault} :
    request.options tree = .ok options →
    path ∈ options.mappingFiles tree →
    known.load tree path = .error fault →
    Blocked request tree

theorem exists_options_eq_error_iff :
    (∃ fault, request.options tree = .error fault) ↔
      ∃ path, request.optionsFile? tree = some path ∧
        ∃ cause, Options.load tree path = .error cause := by
  unfold options
  cases request.optionsFile? tree with
  | none => simp
  | some path => cases h : Options.load tree path <;> simp [h]

theorem exists_of_generateFor_eq_ok {files : List ResolvedFile}
    {result : Generator × SortedMap String} (h : generateFor tree request files = .ok result) :
    ∃ options headers, request.options tree = .ok options ∧
      options.headerMap tree = .ok headers := by
  obtain ⟨options, hoptions, h⟩ := bind_eq_ok_iff.1 h
  cases hheaders : options.headerMap tree with
  | ok headers => exact ⟨options, headers, hoptions, hheaders⟩
  | error fault => simp [Generator.ofOptions, hheaders, Except.map] at h

/-- Resolved files can be generated unless options or mappings cannot be read. -/
theorem blocked_of_generateFor_eq_error {files : List ResolvedFile} {fault : RunFault}
    (hsound : ∀ file ∈ files, file.Sound) (h : generateFor tree request files = .error fault) :
    request.Blocked tree ∧
      ((∃ path cause, fault = .options path cause) ∨ ∃ cause, fault = .mappings cause) := by
  cases hoptions : request.options tree with
  | error reason =>
    obtain rfl : reason = fault := by
      simpa [generateFor, hoptions, bind, Except.bind] using h
    obtain ⟨path, hfile, cause, hcause⟩ := exists_options_eq_error_iff.1 ⟨reason, hoptions⟩
    refine ⟨.options hfile hcause, .inl ⟨path, cause, ?_⟩⟩
    simpa [options, hfile, hcause, eq_comm] using hoptions
  | ok options =>
    cases hheaders : options.headerMap tree with
    | error cause =>
      obtain ⟨path, hpath, reason, hreason⟩ :=
        (HeaderMap.exists_loadAll_eq_error_iff {}).1 ⟨cause, hheaders⟩
      refine ⟨.mapping hoptions hpath hreason, .inr ⟨cause, ?_⟩⟩
      simpa [generateFor, hoptions, Generator.ofOptions, hheaders, Except.map, bind, Except.bind,
        eq_comm] using h
    | ok headers =>
      obtain ⟨result, hresult⟩ :
          ∃ result, Generator.generate ⟨options, headers⟩ files = .ok result :=
        Generator.exists_generate_iff.2 hsound
      simp [generateFor, hoptions, Generator.ofOptions, hheaders, Except.map, bind, Except.bind,
        hresult] at h

/-- A request is carried out up to its first write exactly if nothing blocks it. -/
theorem not_blocked_iff : ¬request.Blocked tree ↔ ∃ files report result,
    loadAndResolve tree request.directory = .ok (files, report) ∧ report.ok = true ∧
      generateFor tree request files = .ok result := by
  constructor
  · intro hfree
    cases hload : loadAndResolve tree request.directory with
    | error fault =>
      obtain ⟨cause, hcause, -⟩ := loadAndResolve_eq_error_iff.1 hload
      exact absurd (.descriptors hcause) hfree
    | ok resolved =>
      obtain ⟨files, report⟩ := resolved
      obtain ⟨loaded, hloaded, hfiles, hreport⟩ := loadAndResolve_eq_ok_iff.1 hload
      have hok : report.ok = true := by
        refine (isConsistent_of_loadAndResolve hload).2 fun d hd herror => hfree ?_
        exact .report hloaded (hreport ▸ hd) herror
      cases hgenerate : generateFor tree request files with
      | ok result => exact ⟨files, report, result, rfl, hok, hgenerate⟩
      | error fault =>
        have hsound : ∀ file ∈ files, file.Sound :=
          fun file hfile => sound_of_mem_resolveFiles (hfiles ▸ hfile)
        exact absurd (blocked_of_generateFor_eq_error hsound hgenerate).1 hfree
  · rintro ⟨files, report, result, hload, hok, hgenerate⟩ hblocked
    obtain ⟨loaded, hloaded, -, hreport⟩ := loadAndResolve_eq_ok_iff.1 hload
    obtain ⟨options, headers, hoptions, hheaders⟩ := exists_of_generateFor_eq_ok hgenerate
    cases hblocked with
    | descriptors h =>
      rw [hloaded] at h
      cases h
    | report h hd herror =>
      rw [hloaded] at h
      cases h
      exact (isConsistent_of_loadAndResolve hload).1 hok _ (hreport ▸ hd) herror
    | options hfile hcause =>
      obtain ⟨fault, hfault⟩ := exists_options_eq_error_iff.2 ⟨_, hfile, _, hcause⟩
      rw [hoptions] at hfault
      cases hfault
    | mapping h hpath hcause =>
      rw [hoptions] at h
      cases h
      obtain ⟨fault, hfault⟩ :=
        (HeaderMap.exists_loadAll_eq_error_iff _).2 ⟨_, hpath, _, hcause⟩
      rw [show HeaderMap.loadAll _ tree _ = _ from hheaders] at hfault
      cases hfault

end GenerateRequest

/-! ## What a run says -/

/-- What the error output has where a run stops at the report on its descriptors, or before there is
one. -/
inductive Outcome.StopsAtReport (outcome : Outcome) (directory : String) : Prop where
  | unloaded (fault : LoadFault) :
    outcome.errors = ["error: " ++ (RunFault.load directory fault).message] →
    StopsAtReport outcome directory
  | refused (count : Nat) :
    outcome.errors = ["✗ " ++ toString count ++ " error(s), fix them before generating code"] →
    StopsAtReport outcome directory

theorem append_ne_append (a b : String) (hab : ¬a.toList <+: b.toList)
    (hba : ¬b.toList <+: a.toList) (x y : String) : a ++ x ≠ b ++ y := by
  intro h
  have hchars : a.toList ++ x.toList = b.toList ++ y.toList := by
    rw [← String.toList_append, h, String.toList_append]
  rcases List.prefix_or_prefix_of_prefix (List.prefix_append a.toList x.toList)
    (hchars ▸ List.prefix_append b.toList y.toList) with h | h
  · exact hab h
  · exact hba h

namespace RunFault

/-- The fault is found after the report: it is about options, mappings, or writing. -/
def isLate : RunFault → Bool
  | load .. | generation _ => false
  | options .. | mappings _ | write .. | writeMappings _ => true

theorem message_ne_load {fault : RunFault} (h : fault.isLate = true) (directory : String)
    (cause : LoadFault) : fault.message ≠ (load directory cause).message := by
  have hload : (load directory cause).message =
      "Failed to load descriptors at '" ++ (directory ++ ("': " ++ cause.message)) :=
    (String.append_assoc ..).trans (String.append_assoc ..)
  rw [hload]
  cases fault with
  | load | generation => cases h
  | options path reason =>
    change "Failed to read options from '" ++ path ++ "': " ++ reason.chain ≠ _
    rw [String.append_assoc, String.append_assoc]
    exact append_ne_append "Failed to read options from '" "Failed to load descriptors at '"
      (by decide) (by decide) _ _
  | mappings reason =>
    exact append_ne_append "Failed to load header mappings: " "Failed to load descriptors at '"
      (by decide) (by decide) _ _
  | write path reason =>
    change "Failed to write to '" ++ path ++ "': " ++ (SetupFault.file reason).chain ≠ _
    rw [String.append_assoc, String.append_assoc]
    exact append_ne_append "Failed to write to '" "Failed to load descriptors at '"
      (by decide) (by decide) _ _
  | writeMappings reason =>
    exact append_ne_append "Failed to write header mappings: " "Failed to load descriptors at '"
      (by decide) (by decide) _ _

theorem not_stopsAtReport {fault : RunFault} (h : fault.isLate = true) {outcome : Outcome}
    (herrors : outcome.errors = ["error: " ++ fault.message]) (directory : String) :
    ¬outcome.StopsAtReport directory := by
  intro hstops
  cases hstops with
  | unloaded cause heq =>
    rw [herrors, List.singleton_inj, String.append_right_inj] at heq
    exact message_ne_load h directory cause heq
  | refused count heq =>
    rw [herrors, List.singleton_inj, String.append_assoc] at heq
    exact append_ne_append "error: " "✗ " (by decide) (by decide) _ _ heq

end RunFault

theorem isLate_of_writeGenerated {tree written : FileTree} {directory : String}
    {generator : Generator} {files : SortedMap String} {lines : List String} {fault : RunFault}
    (h : writeGenerated tree directory generator files = (written, lines, some fault)) :
    fault.isLate = true := by
  unfold writeGenerated at h
  split at h
  · cases h
    rfl
  · dsimp only at h
    split at h <;> cases h
    rfl

namespace GenerateRequest.RunsTo

variable {request : GenerateRequest} {tree : FileTree} {outcome : Outcome}

/-- A run stops at the report, or before it, exactly if there is no report without errors. -/
theorem stopsAtReport_iff (h : request.RunsTo tree outcome) :
    outcome.StopsAtReport request.directory ↔
      ¬∃ files report, loadAndResolve tree request.directory = .ok (files, report) ∧
        report.ok = true := by
  cases h with
  | unloaded hload =>
    obtain ⟨cause, -, rfl⟩ := loadAndResolve_eq_error_iff.1 hload
    exact iff_of_true (.unloaded cause rfl) (by simp [hload])
  | refused hload hok => exact iff_of_true (.refused _ rfl) (by simp [hload, hok])
  | unprepared hload hok hgenerate =>
    refine iff_of_false ?_ (not_not_intro ⟨_, _, hload, hok⟩)
    obtain ⟨loaded, -, hfiles, -⟩ := loadAndResolve_eq_ok_iff.1 hload
    obtain ⟨-, hfault⟩ := blocked_of_generateFor_eq_error
      (fun file hfile => sound_of_mem_resolveFiles (hfiles ▸ hfile)) hgenerate
    rcases hfault with ⟨path, cause, rfl⟩ | ⟨cause, rfl⟩
    · exact RunFault.not_stopsAtReport rfl rfl _
    · exact RunFault.not_stopsAtReport rfl rfl _
  | failed hload hok _ hwrite =>
    refine iff_of_false ?_ (not_not_intro ⟨_, _, hload, hok⟩)
    exact RunFault.not_stopsAtReport (isLate_of_writeGenerated hwrite) rfl _
  | done hload hok =>
    refine iff_of_false (fun hstops => ?_) (not_not_intro ⟨_, _, hload, hok⟩)
    cases hstops with
    | unloaded _ heq | refused _ heq => cases heq

theorem of_blocked (h : request.RunsTo tree outcome) (hblocked : request.Blocked tree) :
    outcome.exitCode = 1 ∧ outcome.tree = tree := by
  cases h with
  | unloaded | refused | unprepared => exact ⟨rfl, rfl⟩
  | failed hload hok hgenerate _ | done hload hok hgenerate _ =>
    exact absurd hblocked (not_blocked_iff.2 ⟨_, _, _, hload, hok, hgenerate⟩)

theorem of_not_blocked (h : request.RunsTo tree outcome) (hfree : ¬request.Blocked tree) :
    ∃ files report generator generated,
      loadAndResolve tree request.directory = .ok (files, report) ∧
      generateFor tree request files = .ok (generator, generated) ∧
      outcome.tree = (writeGenerated tree request.outputDirectory generator generated).1 ∧
      (outcome.exitCode = 0 ↔
        (writeGenerated tree request.outputDirectory generator generated).2.2 = none) := by
  obtain ⟨files, report, result, hload, hok, hgenerate⟩ := not_blocked_iff.1 hfree
  cases h with
  | unloaded h => simp [hload] at h
  | refused h hrefused =>
    obtain ⟨rfl, rfl⟩ : _ ∧ _ := by simpa [hload] using h
    simp [hok] at hrefused
  | unprepared h _ hfault =>
    obtain ⟨rfl, rfl⟩ : _ ∧ _ := by simpa [hload] using h
    simp [hgenerate] at hfault
  | failed hload _ hgenerate hwrite =>
    exact ⟨_, _, _, _, hload, hgenerate, by rw [hwrite], by simp [hwrite]⟩
  | done hload _ hgenerate hwrite =>
    exact ⟨_, _, _, _, hload, hgenerate, by rw [hwrite], by simp [hwrite]⟩

end GenerateRequest.RunsTo

/-- **A run that is blocked writes nothing, and `check` foretells the report.** Where descriptors,
options, or mappings cannot be read, or the report has an error, `generate` exits with 1 and leaves
the tree as it is. Where nothing of this is so, it writes: the tree is then what writing the
generated files has made of it, and the exit code tells whether all could be written. It gets past
the report exactly if `check` succeeds for the same directory. -/
theorem generate_writesUnlessBlocked (tree : FileTree) (request : GenerateRequest) :
    (request.Blocked tree → ((Command.generate request).run tree).exitCode = 1 ∧
      ((Command.generate request).run tree).tree = tree) ∧
    (¬request.Blocked tree → ∃ files report generator generated,
      loadAndResolve tree request.directory = .ok (files, report) ∧
      generateFor tree request files = .ok (generator, generated) ∧
      ((Command.generate request).run tree).tree =
        (writeGenerated tree request.outputDirectory generator generated).1 ∧
      (((Command.generate request).run tree).exitCode = 0 ↔
        (writeGenerated tree request.outputDirectory generator generated).2.2 = none)) ∧
    (¬((Command.generate request).run tree).StopsAtReport request.directory ↔
      ((Command.check request.directory).run tree).exitCode = 0) := by
  have hruns : request.RunsTo tree ((Command.generate request).run tree) :=
    request.runsTo_runGenerate tree
  refine ⟨hruns.of_blocked, hruns.of_not_blocked, ?_⟩
  rw [hruns.stopsAtReport_iff, not_not]
  exact runCheck_exitCode_eq_zero_iff.symm

/-- A directory with a sound descriptor, and a mapping file whose second line names no header. -/
def badMappings : FileTree where
  root := .directory
    [("headers.map", .file "a.A = a.h\nb.B\n".toUTF8),
     ("x.pb.json", .file ("\x7b\"name\": \"x.proto\", " ++
        "\"messageTypes\": [\x7b\"name\": \"M\"\x7d], " ++
        "\"extensions\": [\x7b\"name\": \"e\", \"number\": 100, \"type\": \"int32\", " ++
        "\"extendee\": \"M\"\x7d]\x7d").toUTF8)]
  workingDirectory := []

/-- A request that names the mapping file writes nothing, although `check` succeeds; one that does
not name it is carried out. -/
theorem generate_writesUnlessBlocked_badMappings :
    (∃ outcome, outcome = (Command.generate { mappings := ["headers.map"] }).run badMappings ∧
      outcome.exitCode = 1 ∧ outcome.tree = badMappings ∧ ¬outcome.StopsAtReport ".") ∧
    ∃ generator generated,
      ((Command.generate { output := some "out" }).run badMappings).tree =
        (writeGenerated badMappings "out" generator generated).1 := by
  have hcheck : (runCheck badMappings ".").exitCode = 0 := by decide +kernel
  have hblocked : GenerateRequest.Blocked { mappings := ["headers.map"] } badMappings :=
    @GenerateRequest.Blocked.mapping _ _ { headerMappings := ["headers.map"] } "headers.map" {}
      (.mapping "headers.map" ⟨2, .noHeader "b.B"⟩) rfl (by decide +kernel) rfl
  obtain ⟨files, report, hload, hok⟩ := runCheck_exitCode_eq_zero_iff.1 hcheck
  obtain ⟨loaded, hloaded, -, hreport⟩ := loadAndResolve_eq_ok_iff.1 hload
  have hconsistent := isConsistent_of_loadAndResolve hload
  have hfree : ¬GenerateRequest.Blocked { output := some "out" } badMappings := by
    intro h
    cases h with
    | descriptors h => cases hloaded.symm.trans h
    | report h hd herror =>
      cases hloaded.symm.trans h
      exact hconsistent.1 hok _ (hreport ▸ hd) herror
    | options h => cases h
    | mapping h hpath =>
      cases h
      cases hpath
  obtain ⟨hkept, -, hreported⟩ :=
    generate_writesUnlessBlocked badMappings { mappings := ["headers.map"] }
  obtain ⟨-, hwritten, -⟩ := generate_writesUnlessBlocked badMappings { output := some "out" }
  obtain ⟨_, _, generator, generated, -, -, htree, -⟩ := hwritten hfree
  obtain ⟨hexit, htreeKept⟩ := hkept hblocked
  exact ⟨⟨_, rfl, hexit, htreeKept, hreported.2 hcheck⟩, generator, generated, htree⟩

end ProtoExtensions
