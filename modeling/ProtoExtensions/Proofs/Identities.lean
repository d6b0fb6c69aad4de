import ProtoExtensions.HeaderMap
import ProtoExtensions.Proofs.Accounting
import ProtoExtensions.Proofs.NameLookup
import ProtoExtensions.Proofs.SymbolTable

/-!
Which types resolved fields mention. The extended message and the type of the values come from the
index; the message around a declaration is put together from its names instead. Where files and
types have distinct names, the index holds this message, too (`TypeIndex.lookup?_scope`), so that
all types mentioned anywhere are held by one index, and the full name of such a type determines its
file and its path (`TypeIndex.Knows.eq`).
-/

namespace ProtoExtensions

/-! ## Types known to an index -/

/-- A field mentions the message it extends, the type of its values and the message around its
declaration. -/
inductive ExtensionField.Mentions (field : ExtensionField) : TypeRef → Prop
  | extendee : field.Mentions field.extendee
  | value {type : TypeRef} (h : field.value.typeRef? = some type) : field.Mentions type
  | scope {type : TypeRef} (h : field.scope = .message type) : field.Mentions type

/-- Whether an index has under the full name of a type this very type: its file and its path. -/
def TypeIndex.Knows (index : TypeIndex) (type : TypeRef) : Prop :=
  ∃ entry, index.lookup? type.fullName = some entry ∧ entry.type = type

namespace TypeIndex

variable {index : TypeIndex}

/-- Types known to one index are the same where their full names agree. -/
theorem Knows.eq {a b : TypeRef} (ha : index.Knows a) (hb : index.Knows b)
    (h : a.fullName = b.fullName) : a = b := by
  obtain ⟨entry, hentry, rfl⟩ := ha
  obtain ⟨other, hother, rfl⟩ := hb
  rw [h, hother] at hentry
  cases hentry
  rfl

theorem Keyed.knows_of_find? (hkeyed : index.Keyed) {name scope : String} {entry : TypeEntry}
    (h : index.find? name scope = some entry) : index.Knows entry.type := by
  obtain ⟨candidate, -, hfound⟩ := List.exists_of_findSome?_eq_some h
  obtain rfl : entry.fullName = candidate := hkeyed.fullName_eq hfound
  exact ⟨entry, hfound, rfl⟩

theorem Resolves.knows_extendee {scope : Scope} {spec : FieldSpec} {field : ExtensionField}
    (h : index.Resolves scope spec field) (hkeyed : index.Keyed) :
    index.Knows field.extendee := by
  have hextendee := h.extendee
  unfold TypeIndex.extendee at hextendee
  split at hextendee
  · cases hextendee
  next name _ =>
  obtain ⟨entry, hentry, htype⟩ := map_eq_ok_iff.1 hextendee
  rw [← htype]
  exact hkeyed.knows_of_find? (expect_eq_ok_iff.1 hentry).1

theorem Resolves.knows_value {scope : Scope} {spec : FieldSpec} {field : ExtensionField}
    (h : index.Resolves scope spec field) (hkeyed : index.Keyed) {type : TypeRef}
    (htype : field.value.typeRef? = some type) : index.Knows type := by
  rcases valueKind_eq_ok h.value with ⟨-, hv⟩ | ⟨_, entry, -, -, hentry, -, hv⟩ |
    ⟨_, entry, -, -, hentry, hv⟩
  · rw [hv] at htype
    cases htype
  · rw [hv] at htype
    cases htype
    exact hkeyed.knows_of_find? (expect_eq_ok_iff.1 hentry).1
  · rw [hv] at htype
    cases htype
    exact hkeyed.knows_of_find? (expect_eq_ok_iff.1 hentry).1

end TypeIndex

/-! ## Messages around declarations -/

theorem MessageSpec.Declares.declaresType {message : MessageSpec} {place : Place}
    {names : List String} {field : FieldSpec} (h : message.Declares place names field) :
    ∃ outer, message.DeclaresType ⟨.message, names, [], outer⟩ := by
  induction h with
  | own _ => exact ⟨[], .self⟩
  | nested hinner _ ih =>
    obtain ⟨outer, houter⟩ := ih
    exact ⟨_, .nested hinner houter⟩

/-- The names on the way to a declaration are none or those of a message that the file declares. -/
theorem FileSpec.Declares.declaresType {spec : FileSpec} {declared : DeclaredExtension}
    (h : spec.Declares declared) :
    declared.messages = [] ∨
      ∃ outer, spec.DeclaresType ⟨.message, declared.messages, [], outer⟩ := by
  cases h with
  | topLevel _ => exact .inl rfl
  | inMessage hmessage hinner =>
    obtain ⟨outer, houter⟩ := hinner.declaresType
    exact .inr ⟨_, .inMessage hmessage houter⟩

namespace TypeIndex

variable {files : List DescriptorFile}

theorem nodup_files_ofFiles (hnames : (files.map (·.spec.name)).Nodup) :
    ((ofFiles files).1.files.map ProtoFile.name).Nodup := by
  rw [files_ofFiles, List.map_reverse, List.nodup_reverse, List.map_map]
  exact hnames

/-- Where proto names are distinct, each file is known by what it describes itself. -/
theorem fileOf_eq (hnames : (files.map (·.spec.name)).Nodup) {file : DescriptorFile}
    (hfile : file ∈ files) : (ofFiles files).1.fileOf file.spec = file.spec.file := by
  have hmem : file.spec.file ∈ (ofFiles files).1.files := by
    rw [files_ofFiles, List.mem_reverse]
    exact List.mem_map_of_mem hfile
  have hfound : (ofFiles files).1.file? file.spec.name = some file.spec.file :=
    (find?_eq_some_iff_of_nodup ProtoFile.name (nodup_files_ofFiles hnames)).2 ⟨hmem, rfl⟩
  rw [fileOf, hfound, Option.getD_some]

/-- Where no type is reported, the index has every declared type under its full name. -/
theorem lookup?_of_declaresType (hreport : (ofFiles files).2.entries = []) {file : DescriptorFile}
    (hfile : file ∈ files) {declared : DeclaredType} (h : file.spec.DeclaresType declared) :
    (ofFiles files).1.lookup? (TypeRef.mk file.spec.file declared.names).fullName =
      some (.ofDeclared file.path file.spec.file declared) := by
  refine ((holdsFirst_ofFiles files).keys _ _).2 ⟨?_, rfl⟩
  rw [entries_ofFiles hreport]
  have hlisted : declared ∈ file.spec.declaredTypes :=
    (file.spec.listsTypes_declaredTypes.complete declared).2 h
  exact List.mem_flatMap.2 ⟨file, hfile, List.mem_map_of_mem hlisted⟩

theorem lookup?_scope (hreport : (ofFiles files).2.entries = []) {file : DescriptorFile}
    (hfile : file ∈ files) {declared : DeclaredExtension} (h : file.spec.Declares declared)
    {type : TypeRef} (hscope : declared.scope file.spec.file = .message type) :
    ∃ entry, (ofFiles files).1.lookup? type.fullName = some entry ∧ entry.kind = .message ∧
      entry.type = type := by
  unfold DeclaredExtension.scope at hscope
  split at hscope
  · cases hscope
  next hmessages =>
  cases hscope
  rcases h.declaresType with hnil | ⟨outer, houter⟩
  · exact absurd (by simp [hnil]) hmessages
  · exact ⟨_, lookup?_of_declaresType hreport hfile houter, rfl, rfl⟩

end TypeIndex

/-! ## Resolved files -/

/-- Whether some resolved file has a field that mentions a type. -/
def MentionedIn (files : List ResolvedFile) (type : TypeRef) : Prop :=
  ∃ file ∈ files, ∃ field ∈ file.extensions, field.Mentions type

section

variable {files : List DescriptorFile} (hnames : (files.map (·.spec.name)).Nodup)
  (hreport : (TypeIndex.ofFiles files).2.entries = [])

include hnames hreport in
theorem lookup?_of_scope_eq {resolved : ResolvedFile}
    (hresolved : resolved ∈ (resolveFiles files).1) {field : ExtensionField}
    (hfield : field ∈ resolved.extensions) {type : TypeRef} (hscope : field.scope = .message type) :
    ∃ entry, (TypeIndex.ofFiles files).1.lookup? type.fullName = some entry ∧
      entry.kind = .message ∧ entry.type = type := by
  obtain ⟨file, hfile, declared, hdeclares, hresolves⟩ := exists_declares_of_mem hresolved hfield
  rw [hresolves.scope_eq, TypeIndex.fileOf_eq hnames hfile] at hscope
  exact TypeIndex.lookup?_scope hreport hfile hdeclares hscope

include hnames hreport in
theorem knows_of_mentionedIn {type : TypeRef} (h : MentionedIn (resolveFiles files).1 type) :
    (TypeIndex.ofFiles files).1.Knows type := by
  obtain ⟨resolved, hresolved, field, hfield, hmentions⟩ := h
  obtain ⟨file, -, declared, -, hresolves⟩ := exists_declares_of_mem hresolved hfield
  have hkeyed : (TypeIndex.ofFiles files).1.Keyed := (TypeIndex.holdsFirst_ofFiles files).keyed
  cases hmentions with
  | extendee => exact hresolves.knows_extendee hkeyed
  | value htype => exact hresolves.knows_value hkeyed htype
  | scope hscope =>
    obtain ⟨entry, hentry, -, htype⟩ := lookup?_of_scope_eq hnames hreport hresolved hfield hscope
    exact ⟨entry, hentry, htype⟩

end

/-- **Full names identify types.** Where proto names are distinct and no type is reported, each
resolved file is the one that its descriptor describes, the index holds the message around each
declaration, and types with the same full name that are mentioned anywhere have the same file and
path, and so the same class and header. -/
theorem resolveFiles_identities {files : List DescriptorFile}
    (hnames : (files.map (·.spec.name)).Nodup)
    (hreport : (TypeIndex.ofFiles files).2.entries = []) :
    (resolveFiles files).1.map (fun resolved => (resolved.path, resolved.file)) =
        files.map (fun file => (file.path, file.spec.file)) ∧
      (∀ resolved ∈ (resolveFiles files).1, ∀ field ∈ resolved.extensions, ∀ type,
        field.scope = .message type →
          ∃ entry, (TypeIndex.ofFiles files).1.lookup? type.fullName = some entry ∧
            entry.kind = .message ∧ entry.type = type) ∧
      ∀ a b, MentionedIn (resolveFiles files).1 a → MentionedIn (resolveFiles files).1 b →
        a.fullName = b.fullName →
          a.file = b.file ∧ a.path = b.path ∧ a.className = b.className ∧
            ∀ headers : HeaderMap, headers.headerForType a = headers.headerForType b := by
  refine ⟨?_, fun resolved hresolved field hfield type hscope =>
    lookup?_of_scope_eq hnames hreport hresolved hfield hscope, fun a b ha hb hname => ?_⟩
  · rw [resolveFiles_fst, List.map_map]
    refine List.map_congr_left fun file hfile => ?_
    exact Prod.ext rfl (TypeIndex.fileOf_eq hnames hfile)
  · obtain rfl : a = b :=
      (knows_of_mentionedIn hnames hreport ha).eq (knows_of_mentionedIn hnames hreport hb) hname
    exact ⟨rfl, rfl, rfl, fun headers => rfl⟩

/-- Two files of one package. The first one has a field inside its message `.a.M.N`, and the second
one a field with values of this message, and another one that extends nothing. -/
def crossReferences : List DescriptorFile :=
  [⟨"one.json", {
      name := "one.proto"
      package := "a"
      messageTypes := [{
        name := "M"
        nestedTypes := [{
          name := "N"
          extensions := [{
            name := "inner", number := 100, type := .bool, extendee := some "M" }] }] }] }⟩,
   ⟨"two.json", {
      name := "two.proto"
      package := "a"
      extensions := [
        { name := "outer", number := 101, type := .message, typeName := some "M.N",
          extendee := some ".a.M" },
        { name := "lost", number := 102, type := .bool, extendee := some "O" }] }⟩]

/-- The message `.a.M.N` of the first file. -/
def innerMessage : TypeRef :=
  ⟨{ name := "one.proto", package := "a", topLevelTypes := ["M"] }, ["M", "N"]⟩

theorem resolveFiles_identities_crossReferences :
    ((crossReferences.map (·.spec.name)).Nodup ∧
      (TypeIndex.ofFiles crossReferences).2.entries = []) ∧
    (∃ entry, (TypeIndex.ofFiles crossReferences).1.lookup? ".a.M.N" = some entry ∧
      entry.kind = .message ∧ entry.type = innerMessage) ∧
    ∃ resolved ∈ (resolveFiles crossReferences).1, ∃ field ∈ resolved.extensions, ∃ type,
      field.name = "outer" ∧ field.value.typeRef? = some type ∧ type.file = innerMessage.file ∧
        type.path = innerMessage.path ∧ type.className = innerMessage.className := by
  have hnames : (crossReferences.map (·.spec.name)).Nodup := by decide +kernel
  have hreport : (TypeIndex.ofFiles crossReferences).2.entries = [] := by decide +kernel
  have hinner : ∃ resolved ∈ (resolveFiles crossReferences).1, ∃ field ∈ resolved.extensions,
      field.scope = .message innerMessage := by decide +kernel
  have houter : ∃ resolved ∈ (resolveFiles crossReferences).1, ∃ field ∈ resolved.extensions,
      field.name = "outer" ∧
        field.value.typeRef?.map TypeRef.fullName = some innerMessage.fullName := by
    decide +kernel
  obtain ⟨-, hscope, hidentity⟩ := resolveFiles_identities hnames hreport
  obtain ⟨one, hone, inner, hmem, hinner⟩ := hinner
  obtain ⟨two, htwo, outer, hmem', hname, houter⟩ := houter
  obtain ⟨type, htype, hfull⟩ := Option.map_eq_some_iff.1 houter
  obtain ⟨hfile, hpath, hclass, -⟩ := hidentity type innerMessage
    ⟨two, htwo, outer, hmem', .value htype⟩ ⟨one, hone, inner, hmem, .scope hinner⟩ hfull
  have hkey : innerMessage.fullName = ".a.M.N" := by decide +kernel
  exact ⟨⟨hnames, hreport⟩, hkey ▸ hscope one hone inner hmem innerMessage hinner,
    two, htwo, outer, hmem', type, hname, htype, hfile, hpath, hclass⟩

end ProtoExtensions
