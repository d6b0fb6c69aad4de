import Mathlib.Data.List.Nodup
import ProtoExtensions.Proofs.TypeOrder
import ProtoExtensions.TypeIndex

/-!
What the index of types holds. Each type that is offered to an index is kept, or is answered by one
diagnostic because a type held by then has its name (`Registers`). So an index has each name once,
with the type that was offered first under it (`TypeIndex.HoldsFirst`), and what descriptor files
offer are all types that they declare, in the order of a visit (`OffersTypes`).
-/

namespace ProtoExtensions

theorem find?_eq_some_iff_of_nodup {α : Type} (key : α → String) {items : List α}
    (h : (items.map key).Nodup) {name : String} {item : α} :
    items.find? (key · == name) = some item ↔ item ∈ items ∧ key item = name := by
  constructor
  · intro hfound
    exact ⟨List.mem_of_find?_eq_some hfound, by simpa using List.find?_some hfound⟩
  · rintro ⟨hmem, rfl⟩
    cases hfound : items.find? (key · == key item) with
    | none => simpa using List.find?_eq_none.1 hfound item hmem
    | some other =>
      have hother : key other = key item := by simpa using List.find?_some hfound
      rw [List.inj_on_of_nodup_map h (List.mem_of_find?_eq_some hfound) hmem hother]

/-! ## Offering types -/

/-- Types that are offered to an index which holds some already, with those of them that it keeps
and its diagnostics. Each offered type is kept or has a diagnostic that names the holder of its
name. -/
inductive Registers :
    (held offered kept : List TypeEntry) → (diagnostics : List Diagnostic) → Prop
  | nil {held : List TypeEntry} : Registers held [] [] []
  | free {held rest kept : List TypeEntry} {entry : TypeEntry} {diagnostics : List Diagnostic}
      (hfree : ∀ other ∈ held, other.fullName ≠ entry.fullName)
      (hrest : Registers (held ++ [entry]) rest kept diagnostics) :
      Registers held (entry :: rest) (entry :: kept) diagnostics
  | taken {held rest kept : List TypeEntry} {entry holder : TypeEntry}
      {diagnostics : List Diagnostic} (hholder : holder ∈ held)
      (hname : holder.fullName = entry.fullName) (hrest : Registers held rest kept diagnostics) :
      Registers held (entry :: rest) kept (entry.duplicate holder :: diagnostics)

namespace Registers

variable {held offered kept : List TypeEntry} {diagnostics : List Diagnostic}

theorem length_add_length (h : Registers held offered kept diagnostics) :
    kept.length + diagnostics.length = offered.length := by
  induction h with
  | nil => rfl
  | free _ _ ih | taken _ _ _ ih =>
    simp only [List.length_cons]
    omega

theorem sublist (h : Registers held offered kept diagnostics) : kept.Sublist offered := by
  induction h with
  | nil => exact .slnil
  | free _ _ ih => exact ih.cons_cons _
  | taken _ _ _ ih => exact ih.cons _

theorem nodup (h : Registers held offered kept diagnostics)
    (hheld : (held.map TypeEntry.fullName).Nodup) :
    ((held ++ kept).map TypeEntry.fullName).Nodup := by
  induction h with
  | nil => simpa using hheld
  | @free held rest kept entry _ hfree _ ih =>
    rw [List.append_cons]
    refine ih ?_
    rw [List.map_append, List.nodup_append]
    refine ⟨hheld, by simp, fun name hname other hother => ?_⟩
    obtain ⟨holder, hholder, rfl⟩ := List.mem_map.1 hname
    obtain rfl : other = entry.fullName := by simpa using hother
    exact hfree holder hholder
  | taken _ _ _ ih => exact ih hheld

/-- Under each name the first type counts: those that are not kept come after another one of their
name. -/
theorem find?_eq (h : Registers held offered kept diagnostics) (name : String) :
    (held ++ kept).find? (·.fullName == name) = (held ++ offered).find? (·.fullName == name) := by
  induction h with
  | nil => rfl
  | @free held rest kept entry _ _ _ ih =>
    rwa [List.append_cons, List.append_cons held entry rest]
  | @taken held rest kept entry holder _ hholder hname _ ih =>
    rw [ih, List.find?_append, List.find?_append, List.find?_cons]
    by_cases heq : entry.fullName = name
    · have hfound : (held.find? (·.fullName == name)).isSome :=
        List.find?_isSome.2 ⟨holder, hholder, by simp [hname, heq]⟩
      rw [Option.or_of_isSome hfound, Option.or_of_isSome hfound]
    · have hbeq : (entry.fullName == name) = false := by simpa using heq
      simp only [hbeq]

/-- Every diagnostic about a taken name is about one of the offered types. -/
theorem exists_duplicate_of_mem (h : Registers held offered kept diagnostics) {d : Diagnostic}
    (hd : d ∈ diagnostics) : ∃ entry holder, entry ∈ offered ∧ d = entry.duplicate holder := by
  induction h with
  | nil => cases hd
  | free _ _ ih =>
    obtain ⟨entry, holder, hentry, heq⟩ := ih hd
    exact ⟨entry, holder, List.mem_cons_of_mem _ hentry, heq⟩
  | @taken _ _ _ entry holder _ _ _ _ ih =>
    rcases List.mem_cons.1 hd with rfl | hd
    · exact ⟨entry, holder, List.mem_cons_self, rfl⟩
    · obtain ⟨entry, holder, hentry, heq⟩ := ih hd
      exact ⟨entry, holder, List.mem_cons_of_mem _ hentry, heq⟩

theorem code_of_mem (h : Registers held offered kept diagnostics) {d : Diagnostic}
    (hd : d ∈ diagnostics) : d.code = Diagnostic.duplicateSymbol ∧ d.severity = .error := by
  obtain ⟨entry, holder, -, rfl⟩ := h.exists_duplicate_of_mem hd
  exact ⟨rfl, rfl⟩

theorem eq_nil_iff (h : Registers held offered kept diagnostics) :
    diagnostics = [] ↔ kept = offered := by
  have hlength := h.length_add_length
  constructor
  · rintro rfl
    exact h.sublist.eq_of_length hlength
  · rintro rfl
    exact List.length_eq_zero_iff.1 (by omega)

/-- All is kept exactly where no name is offered twice or held already. -/
theorem eq_offered_iff (h : Registers held offered kept diagnostics)
    (hheld : (held.map TypeEntry.fullName).Nodup) :
    kept = offered ↔ ((held ++ offered).map TypeEntry.fullName).Nodup := by
  constructor
  · rintro rfl
    exact h.nodup hheld
  · intro hoffered
    induction h with
    | nil => rfl
    | @free held rest kept entry _ _ _ ih =>
      rw [List.append_cons] at hoffered
      rw [ih (hoffered.sublist (by simp)) hoffered]
    | @taken held rest kept entry holder _ hholder hname _ ih =>
      rw [List.map_append, List.nodup_append] at hoffered
      exact absurd hname (hoffered.2.2 _ (List.mem_map_of_mem hholder) _ (by simp))

end Registers

namespace TypeIndex

/-! ## Registering -/

/-- Every type is stored under its full name. -/
def Keyed (index : TypeIndex) : Prop :=
  ∀ stored ∈ index.types, stored.1 = stored.2.fullName

theorem lookup_eq_find?_map {types : List (String × TypeEntry)}
    (h : ∀ stored ∈ types, stored.1 = stored.2.fullName) (name : String) :
    types.lookup name = (types.map Prod.snd).find? (·.fullName == name) := by
  induction types with
  | nil => rfl
  | cons stored rest ih =>
    obtain ⟨key, entry⟩ := stored
    obtain rfl : key = entry.fullName := h _ List.mem_cons_self
    rw [List.lookup_cons, List.map_cons, List.find?_cons,
      ih fun stored hstored => h stored (List.mem_cons_of_mem _ hstored), Bool.beq_comm]

theorem Keyed.lookup?_eq {index : TypeIndex} (h : index.Keyed) (name : String) :
    index.lookup? name = index.entries.find? (·.fullName == name) :=
  lookup_eq_find?_map h name

theorem Keyed.fullName_eq {index : TypeIndex} (h : index.Keyed) {name : String}
    {entry : TypeEntry} (hfound : index.lookup? name = some entry) : entry.fullName = name := by
  rw [h.lookup?_eq] at hfound
  simpa using List.find?_some hfound

theorem Keyed.lookup?_eq_some_iff {index : TypeIndex} (h : index.Keyed)
    (hdistinct : (index.entries.map TypeEntry.fullName).Nodup) {name : String}
    {entry : TypeEntry} :
    index.lookup? name = some entry ↔ entry ∈ index.entries ∧ entry.fullName = name := by
  rw [h.lookup?_eq]
  exact find?_eq_some_iff_of_nodup TypeEntry.fullName hdistinct

/-- An index with some types stored behind its own. -/
def storing (index : TypeIndex) (kept : List TypeEntry) : TypeIndex :=
  { index with types := index.types ++ kept.map fun entry => (entry.fullName, entry) }

@[simp] theorem entries_storing (index : TypeIndex) (kept : List TypeEntry) :
    (index.storing kept).entries = index.entries ++ kept := by
  simp [storing, entries, Function.comp_def]

theorem storing_cons (index : TypeIndex) (entry : TypeEntry) (kept : List TypeEntry) :
    (index.storing [entry]).storing kept = index.storing (entry :: kept) := by
  simp [storing]

theorem Keyed.storing {index : TypeIndex} (h : index.Keyed) (kept : List TypeEntry) :
    (index.storing kept).Keyed := by
  intro stored hstored
  rcases List.mem_append.1 hstored with hold | hnew
  · exact h stored hold
  · obtain ⟨entry, -, rfl⟩ := List.mem_map.1 hnew
    rfl

theorem register_eq_self {index : TypeIndex} {entry : TypeEntry} {d : Diagnostic}
    (h : (index.register entry).2 = some d) : (index.register entry).1 = index := by
  cases hfound : index.lookup? entry.fullName with
  | none => simp [register_of_lookup?_eq_none hfound] at h
  | some holder => rw [register_of_lookup?_eq_some hfound]

/-- Registering types one after the other puts those that are kept behind the others. -/
theorem Keyed.registers_registerAll {index : TypeIndex} (h : index.Keyed)
    (offered : List TypeEntry) :
    ∃ kept, (index.registerAll offered).1 = index.storing kept ∧
      Registers index.entries offered kept (index.registerAll offered).2.entries := by
  induction offered generalizing index with
  | nil => exact ⟨[], by simp [TypeIndex.storing], .nil⟩
  | cons entry rest ih =>
    rw [registerAll_cons]
    cases hfound : index.lookup? entry.fullName with
    | none =>
      rw [register_of_lookup?_eq_none hfound]
      obtain ⟨kept, hindex, hkept⟩ := ih (h.storing [entry])
      have hfree : ∀ other ∈ index.entries, other.fullName ≠ entry.fullName := by
        rw [h.lookup?_eq] at hfound
        simpa using List.find?_eq_none.1 hfound
      refine ⟨entry :: kept, hindex.trans (index.storing_cons entry kept), .free hfree ?_⟩
      rw [entries_storing] at hkept
      simpa [Report.empty, TypeIndex.storing] using hkept
    | some holder =>
      rw [register_of_lookup?_eq_some hfound]
      obtain ⟨kept, hindex, hkept⟩ := ih h
      have hname : holder.fullName = entry.fullName := h.fullName_eq hfound
      rw [h.lookup?_eq] at hfound
      refine ⟨kept, hindex, ?_⟩
      simpa [Report.empty] using
        Registers.taken (List.mem_of_find?_eq_some hfound) hname hkept

/-- What an index holds of the types that were offered to it: every name once, in the order of the
offers, and under each name the type that was offered first. -/
structure HoldsFirst (index : TypeIndex) (offered : List TypeEntry) : Prop where
  keyed : index.Keyed
  distinct : (index.entries.map TypeEntry.fullName).Nodup
  inOrder : index.entries.Sublist offered
  first : ∀ name, index.lookup? name = offered.find? (·.fullName == name)
  keys : ∀ name entry,
    index.lookup? name = some entry ↔ entry ∈ index.entries ∧ entry.fullName = name

/-- What an index holds after some types have been offered to it and then some more. -/
theorem HoldsFirst.registerAll {index : TypeIndex} {offered : List TypeEntry}
    (h : index.HoldsFirst offered) (further : List TypeEntry) :
    (index.registerAll further).1.HoldsFirst (offered ++ further) := by
  obtain ⟨kept, hindex, hkept⟩ := h.keyed.registers_registerAll further
  have hkeyed : (index.registerAll further).1.Keyed := by
    rw [hindex]
    exact h.keyed.storing kept
  have hentries : (index.registerAll further).1.entries = index.entries ++ kept := by
    rw [hindex, entries_storing]
  have hdistinct : ((index.registerAll further).1.entries.map TypeEntry.fullName).Nodup := by
    rw [hentries]
    exact hkept.nodup h.distinct
  refine ⟨hkeyed, hdistinct, ?_, fun name => ?_,
    fun name entry => hkeyed.lookup?_eq_some_iff hdistinct⟩
  · rw [hentries]
    exact h.inOrder.append hkept.sublist
  · rw [hkeyed.lookup?_eq, hentries, hkept.find?_eq, List.find?_append, List.find?_append,
      ← h.keyed.lookup?_eq, h.first]

/-! ## The index of descriptor files -/

/-- The index that knows some files but no types. -/
def knowing (files : List DescriptorFile) : TypeIndex :=
  { files := (files.map (·.spec.file)).reverse }

theorem foldl_addFile : ∀ (files : List DescriptorFile) (index : TypeIndex),
    files.foldl (fun index file => index.addFile file.spec.file) index =
      { index with files := (files.map (·.spec.file)).reverse ++ index.files }
  | [], _ => rfl
  | file :: files, index => by
    rw [List.foldl_cons, foldl_addFile files]
    simp [addFile]

/-- The types of the files come into an index that knows the files, the last one first. -/
theorem ofFiles_eq (files : List DescriptorFile) :
    ofFiles files = (knowing files).registerAll (declaredEntries files) := by
  rw [ofFiles, foldl_addFile]
  simp [knowing, empty]

theorem keyed_knowing (files : List DescriptorFile) : (knowing files).Keyed := by
  simp [Keyed, knowing]

theorem files_ofFiles (files : List DescriptorFile) :
    (ofFiles files).1.files = (files.map (·.spec.file)).reverse := by
  obtain ⟨kept, hindex, -⟩ := (keyed_knowing files).registers_registerAll (declaredEntries files)
  rw [ofFiles_eq, hindex]
  rfl

theorem registers_ofFiles (files : List DescriptorFile) :
    Registers [] (declaredEntries files) (ofFiles files).1.entries (ofFiles files).2.entries := by
  obtain ⟨kept, hindex, hkept⟩ :=
    (keyed_knowing files).registers_registerAll (declaredEntries files)
  rw [ofFiles_eq, hindex, entries_storing]
  exact hkept

theorem holdsFirst_ofFiles (files : List DescriptorFile) :
    (ofFiles files).1.HoldsFirst (declaredEntries files) := by
  have hempty : (knowing files).HoldsFirst [] :=
    ⟨keyed_knowing files, by simp [knowing, entries], by simp [knowing, entries],
      fun name => by simp [knowing, lookup?], fun name entry => by simp [knowing, lookup?, entries]⟩
  rw [ofFiles_eq]
  exact hempty.registerAll (declaredEntries files)

/-- No name is reported exactly where no two declared types have the same name. -/
theorem report_ofFiles_eq_nil_iff {files : List DescriptorFile} :
    (ofFiles files).2.entries = [] ↔ ((declaredEntries files).map TypeEntry.fullName).Nodup := by
  have hregisters := registers_ofFiles files
  rw [hregisters.eq_nil_iff, hregisters.eq_offered_iff (by simp), List.nil_append]

theorem entries_ofFiles {files : List DescriptorFile} (h : (ofFiles files).2.entries = []) :
    (ofFiles files).1.entries = declaredEntries files :=
  (registers_ofFiles files).eq_nil_iff.1 h

end TypeIndex

/-- What descriptor files offer, file by file: every message and enum that a file declares, in the
order of a visit. -/
inductive OffersTypes : List DescriptorFile → List TypeEntry → Prop
  | nil : OffersTypes [] []
  | cons {file : DescriptorFile} {files : List DescriptorFile} {declared : List DeclaredType}
      {entries : List TypeEntry} (hlists : file.spec.ListsTypes declared)
      (hrest : OffersTypes files entries) :
      OffersTypes (file :: files)
        (declared.map (TypeEntry.ofDeclared file.path file.spec.file) ++ entries)

theorem offersTypes_declaredEntries :
    ∀ files : List DescriptorFile, OffersTypes files (TypeIndex.declaredEntries files)
  | [] => .nil
  | file :: files =>
    .cons file.spec.listsTypes_declaredTypes (offersTypes_declaredEntries files)

/-- The number of messages and enums that files declare. -/
def declaredTypeCount : List DescriptorFile → Nat
  | [] => 0
  | file :: files => file.spec.typeCount + declaredTypeCount files

theorem length_declaredEntries : ∀ files : List DescriptorFile,
    (TypeIndex.declaredEntries files).length = declaredTypeCount files
  | [] => rfl
  | file :: files => by
    have ih := length_declaredEntries files
    unfold TypeIndex.declaredEntries at ih ⊢
    rw [List.flatMap_cons, List.length_append, List.length_map, file.spec.length_declaredTypes, ih,
      declaredTypeCount]

/-- **The first declaration of each name stays.** What files declare is offered to their index in
the order of a visit. Each offered type is held or answered by one diagnostic that names the holder
of its name, also where more types are registered after the files, and the index has under every
name the type that was offered first. A refused type changes nothing. -/
theorem ofFiles_registerAll_holdsFirst (files : List DescriptorFile) (further : List TypeEntry) :
    ∃ declared added, OffersTypes files declared ∧
      Registers [] declared (TypeIndex.ofFiles files).1.entries
        (TypeIndex.ofFiles files).2.entries ∧
      (TypeIndex.ofFiles files).1.size + (TypeIndex.ofFiles files).2.entries.length =
        declaredTypeCount files ∧
      ((TypeIndex.ofFiles files).1.registerAll further).1.entries =
        (TypeIndex.ofFiles files).1.entries ++ added ∧
      Registers (TypeIndex.ofFiles files).1.entries further added
        ((TypeIndex.ofFiles files).1.registerAll further).2.entries ∧
      ((TypeIndex.ofFiles files).1.registerAll further).1.HoldsFirst (declared ++ further) ∧
      (∀ d ∈ (TypeIndex.ofFiles files).2.entries ++
          ((TypeIndex.ofFiles files).1.registerAll further).2.entries,
        d.code = Diagnostic.duplicateSymbol ∧ d.severity = .error) ∧
      ∀ (index : TypeIndex) (entry : TypeEntry) (d : Diagnostic),
        (index.register entry).2 = some d → (index.register entry).1 = index := by
  obtain ⟨added, hindex, hadded⟩ :=
    (TypeIndex.holdsFirst_ofFiles files).keyed.registers_registerAll further
  have hregisters := TypeIndex.registers_ofFiles files
  refine ⟨TypeIndex.declaredEntries files, added, offersTypes_declaredEntries files, hregisters,
    ?_, by rw [hindex, TypeIndex.entries_storing], hadded,
    (TypeIndex.holdsFirst_ofFiles files).registerAll further, fun d hd => ?_,
    fun index entry d hd => TypeIndex.register_eq_self hd⟩
  · rw [← length_declaredEntries, ← hregisters.length_add_length, TypeIndex.size,
      TypeIndex.entries, List.length_map]
  · rcases List.mem_append.1 hd with hd | hd
    · exact hregisters.code_of_mem hd
    · exact hadded.code_of_mem hd

/-- Two files that declare `.a.b.C`, the first one in the package `a.b` and the second one inside a
message of the package `a`. Both declare a type inside it. -/
def splitNames : List DescriptorFile :=
  [⟨"one.json", {
      name := "one.proto"
      package := "a.b"
      messageTypes := [{ name := "C", enumTypes := [{ name := "D" }] }] }⟩,
   ⟨"two.json", {
      name := "two.proto"
      package := "a"
      messageTypes := [{
        name := "b"
        nestedTypes := [{ name := "C", nestedTypes := [{ name := "E" }] }] }] }⟩]

/-- The message `.a.b.C.E` once more. -/
def anotherE : TypeEntry where
  kind := .message
  type := ⟨{ name := "three.proto", package := "a.b.C" }, ["E"]⟩
  declaredIn := "three.json"
  path := "$.messageTypes[0]"

theorem ofFiles_registerAll_holdsFirst_splitNames :
    ((TypeIndex.ofFiles splitNames).1.entries.map TypeEntry.fullName =
        [".a.b.C", ".a.b.C.D", ".a.b", ".a.b.C.E"] ∧
      (TypeIndex.ofFiles splitNames).2.entries.map (·.message) =
        ["Duplicate message '.a.b.C' (also defined in one.json)"]) ∧
    ((TypeIndex.ofFiles splitNames).1.registerAll [anotherE]).1 =
      (TypeIndex.ofFiles splitNames).1 ∧
    ∃ declared, OffersTypes splitNames declared ∧
      Registers [] declared (TypeIndex.ofFiles splitNames).1.entries
        (TypeIndex.ofFiles splitNames).2.entries ∧
      ((TypeIndex.ofFiles splitNames).1.registerAll [anotherE]).1.HoldsFirst
        (declared ++ [anotherE]) := by
  obtain ⟨declared, -, hoffers, hregisters, -, -, -, hholds, -, hself⟩ :=
    ofFiles_registerAll_holdsFirst splitNames [anotherE]
  have hrefused : ((TypeIndex.ofFiles splitNames).1.register anotherE).2.isSome := by
    decide +kernel
  obtain ⟨d, hd⟩ := Option.isSome_iff_exists.1 hrefused
  exact ⟨⟨by decide +kernel, by decide +kernel⟩, hself _ _ d hd, declared, hoffers, hregisters,
    hholds⟩

end ProtoExtensions
