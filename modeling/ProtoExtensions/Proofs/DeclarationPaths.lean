import Mathlib.Data.List.Forall2
import ProtoExtensions.Proofs.Accounting
import ProtoExtensions.Proofs.Numerals
import ProtoExtensions.Proofs.SymbolTable
import ProtoExtensions.Text.Lines

/-!
What the paths of diagnostics lead to. The text of a place is read back step by step
(`Place.read?_text`), and the steps are followed down a file (`FileSpec.declarationAt?`). A visit of
a file meets declarations in order, and the path that is noted for each of them leads to it
(`FileSpec.leads_declaredTypes`, `FileSpec.leads_declaredExtensions`). So entries of an index and
diagnostics, which note the paths of what they are made for, point there.
-/

namespace ProtoExtensions

/-! ## Reading paths -/

/-- The fields that hold declarations, with the steps into them. -/
def Step.fields : List (String × (Nat → Step)) :=
  [("messageTypes", .messageType), ("nestedTypes", .nestedType), ("enumTypes", .enumType),
   ("extensions", .extension)]

/-- The step that a field and an index in brackets stand for. -/
def Step.read? (text : List Char) : Option Step :=
  match split '[' text with
  | [field, index] =>
    match split ']' index with
    | [digits, []] =>
      if digits = [] then none
      else (fields.lookup (String.ofList field)).bind fun step => (digitsFrom? 10 0 digits).map step
    | _ => none
  | _ => none

/-- The steps that a path stands for, with a dot before each. -/
def Place.read? (path : String) : Option Place :=
  match split '.' path.toList with
  | ['$'] :: steps => steps.mapM Step.read?
  | _ => none

/-- The text of a step behind its dot. -/
def Step.body (field : String) (index : Nat) : List Char :=
  field.toList ++ '[' :: (Nat.toDigits 10 index ++ [']'])

namespace Step

variable {field : String} {make : Nat → Step} {index : Nat}

theorem read?_body (hopen : '[' ∉ field.toList) (hfield : fields.lookup field = some make) :
    read? (body field index) = some (make index) := by
  have hclose : '[' ∉ Nat.toDigits 10 index ++ [']'] := by
    simp [not_mem_toDigits (c := '[') rfl]
  have hpieces : split '[' (body field index) =
      [field.toList, Nat.toDigits 10 index ++ [']']] := by
    rw [body, split_append, split_of_not_mem hopen, split_of_not_mem hclose]
    rfl
  have hdigits : split ']' (Nat.toDigits 10 index ++ [']']) = [Nat.toDigits 10 index, []] := by
    rw [split_append, split_of_not_mem (not_mem_toDigits rfl index)]
    rfl
  have hne : Nat.toDigits 10 index ≠ [] := Nat.toDigits_ne_nil
  simp only [read?, hpieces, hdigits, if_neg hne, String.ofList_toList, hfield, Option.bind_some,
    digitsFrom?_toDigits (by decide : 1 < 10) (by decide), Option.map_some]

theorem dot_not_mem_body (hdot : '.' ∉ field.toList) : '.' ∉ body field index := by
  simp [body, hdot, not_mem_toDigits (c := '.') rfl]

theorem toList_text_eq {opening : String} (hopening : opening.toList = '.' :: field.toList ++ ['['])
    (index : Nat) : (opening ++ toString index ++ "]").toList = '.' :: body field index := by
  have hindex : (toString index).toList = Nat.toDigits 10 index := Nat.toList_repr
  rw [String.toList_append, String.toList_append, hopening, hindex, body, List.append_assoc,
    List.append_assoc]
  rfl

/-- What is written as an index of a field is a dot and a text without dots, read as the step into
the field. -/
theorem exists_piece (field : String) {opening : String}
    (hopening : opening.toList = '.' :: field.toList ++ ['[']) (hdot : '.' ∉ field.toList)
    (hopen : '[' ∉ field.toList) (hfield : fields.lookup field = some make) (index : Nat) :
    ∃ piece, (opening ++ toString index ++ "]").toList = '.' :: piece ∧ '.' ∉ piece ∧
      read? piece = some (make index) :=
  ⟨body field index, toList_text_eq hopening index, dot_not_mem_body hdot, read?_body hopen hfield⟩

theorem exists_text_eq (step : Step) :
    ∃ piece, step.text.toList = '.' :: piece ∧ '.' ∉ piece ∧ read? piece = some step := by
  cases step with
  | messageType index => exact exists_piece "messageTypes" rfl (by decide) (by decide) rfl index
  | nestedType index => exact exists_piece "nestedTypes" rfl (by decide) (by decide) rfl index
  | enumType index => exact exists_piece "enumTypes" rfl (by decide) (by decide) rfl index
  | extension index => exact exists_piece "extensions" rfl (by decide) (by decide) rfl index

end Step

namespace Place

theorem exists_split_append (place : Place) (first : List Char) (hfirst : '.' ∉ first) :
    ∃ pieces, split '.' (first ++ place.flatMap fun step => step.text.toList) = first :: pieces ∧
      pieces.mapM Step.read? = some place := by
  induction place generalizing first with
  | nil => exact ⟨[], by simp [split_of_not_mem hfirst], rfl⟩
  | cons step place ih =>
    obtain ⟨piece, htext, hdot, hread⟩ := step.exists_text_eq
    obtain ⟨pieces, hpieces, hmore⟩ := ih piece hdot
    refine ⟨piece :: pieces, ?_, by simp [hread, hmore]⟩
    rw [List.flatMap_cons, htext, List.cons_append, split_append, split_of_not_mem hfirst, hpieces]
    rfl

theorem toList_text (place : Place) :
    place.text.toList = ['$'] ++ place.flatMap fun step => step.text.toList := by
  have hjoin : ∀ steps : Place, (String.join (steps.map Step.text)).toList =
      steps.flatMap fun step => step.text.toList := by
    intro steps
    simp [List.flatMap_def, Function.comp_def]
  rw [text, String.toList_append, hjoin]
  rfl

/-- **Reading gives back the place that a text was made from.** -/
theorem read?_text (place : Place) : read? place.text = some place := by
  obtain ⟨pieces, hpieces, hread⟩ := place.exists_split_append ['$'] (by decide)
  rw [read?, toList_text, hpieces]
  exact hread

example : read? "$.messageTypes[12].enumTypes[0]" = some [.messageType 12, .enumType 0] := by
  decide +kernel

theorem text_injective : Function.Injective Place.text := by
  intro a b h
  have hread := congrArg read? h
  rwa [read?_text, read?_text, Option.some_inj] at hread

end Place

/-! ## Following paths -/

/-- A file, or what is declared in it. -/
inductive Part where
  | file (spec : FileSpec)
  | message (spec : MessageSpec)
  | enum (spec : EnumSpec)
  | extension (field : FieldSpec)

/-- A part of a file with the names of the types on the way to it, the part's own name included if
it is a type. -/
structure Declaration where
  names : List String
  part : Part

namespace Declaration

/-- A message inside a declaration. -/
def message (outer : Declaration) (spec : MessageSpec) : Declaration :=
  ⟨outer.names ++ [spec.name], .message spec⟩

/-- An enum inside a declaration. -/
def enum (outer : Declaration) (spec : EnumSpec) : Declaration :=
  ⟨outer.names ++ [spec.name], .enum spec⟩

/-- An extension inside a declaration. -/
def extension (outer : Declaration) (field : FieldSpec) : Declaration :=
  ⟨outer.names, .extension field⟩

/-- What a step from a declaration leads to. -/
def inside? (outer : Declaration) (step : Step) : Option Declaration :=
  match outer.part, step with
  | .file spec, .messageType i => spec.messageTypes[i]?.map outer.message
  | .file spec, .enumType i => spec.enumTypes[i]?.map outer.enum
  | .file spec, .extension i => spec.extensions[i]?.map outer.extension
  | .message spec, .nestedType i => spec.nestedTypes[i]?.map outer.message
  | .message spec, .enumType i => spec.enumTypes[i]?.map outer.enum
  | .message spec, .extension i => spec.extensions[i]?.map outer.extension
  | _, _ => none

/-- What a place leads to, one step after the other. -/
def follow? (outer : Declaration) (place : Place) : Option Declaration :=
  place.foldlM inside? outer

/-- Whether a declaration is that of a type of some kind, with some values. -/
def IsType (declaration : Declaration) (kind : TypeKind) (values : List EnumValue) : Prop :=
  match declaration.part with
  | .message _ => kind = .message ∧ values = []
  | .enum spec => kind = .enum ∧ values = spec.values
  | _ => False

theorem follow?_append_singleton {outer inner : Declaration} {place : Place}
    (h : outer.follow? place = some inner) (step : Step) :
    outer.follow? (place ++ [step]) = inner.inside? step := by
  have hinner : place.foldlM inside? outer = some inner := h
  simp [follow?, List.foldlM_append, hinner]

end Declaration

/-- A file as the declaration that all paths start from. -/
def FileSpec.root (spec : FileSpec) : Declaration :=
  ⟨[], .file spec⟩

/-- What a path in a file leads to. -/
def FileSpec.declarationAt? (spec : FileSpec) (path : String) : Option Declaration :=
  (Place.read? path).bind spec.root.follow?

theorem FileSpec.declarationAt?_text (spec : FileSpec) (place : Place) :
    spec.declarationAt? place.text = spec.root.follow? place := by
  rw [declarationAt?, Place.read?_text, Option.bind_some]

/-! ## Visits -/

mutual

/-- A message and the types inside it, as a visit meets them. -/
def MessageSpec.visitedTypes (outer : Declaration) : MessageSpec → List Declaration
  | ⟨name, nestedTypes, enumTypes, extensions⟩ =>
    let self := outer.message ⟨name, nestedTypes, enumTypes, extensions⟩
    self :: (visitedMessages self nestedTypes ++ enumTypes.map self.enum)

/-- Messages inside a declaration and the types inside them, as a visit meets them. -/
def visitedMessages (outer : Declaration) : List MessageSpec → List Declaration
  | [] => []
  | message :: messages => message.visitedTypes outer ++ visitedMessages outer messages

end

/-- The types of a file, as a visit meets them. -/
def FileSpec.visitedTypes (spec : FileSpec) : List Declaration :=
  visitedMessages spec.root spec.messageTypes ++ spec.enumTypes.map spec.root.enum

mutual

/-- The extensions inside a message, as a visit meets them. -/
def MessageSpec.visitedExtensions (outer : Declaration) : MessageSpec → List Declaration
  | ⟨name, nestedTypes, enumTypes, extensions⟩ =>
    let self := outer.message ⟨name, nestedTypes, enumTypes, extensions⟩
    extensions.map self.extension ++ visitedNested self nestedTypes

/-- The extensions inside messages that a declaration holds, as a visit meets them. -/
def visitedNested (outer : Declaration) : List MessageSpec → List Declaration
  | [] => []
  | message :: messages => message.visitedExtensions outer ++ visitedNested outer messages

end

/-- The extensions of a file, as a visit meets them. -/
def FileSpec.visitedExtensions (spec : FileSpec) : List Declaration :=
  spec.extensions.map spec.root.extension ++ visitedNested spec.root spec.messageTypes

/-- Whether a declared type is what its place leads to from the root. -/
structure DeclaredType.Leads (root : Declaration) (declared : DeclaredType)
    (declaration : Declaration) : Prop where
  follows : root.follow? declared.place = some declaration
  names_eq : declared.names = declaration.names
  isType : declaration.IsType declared.kind declared.values

/-- Whether a declared extension is what its place leads to from the root. -/
structure DeclaredExtension.Leads (root : Declaration) (declared : DeclaredExtension)
    (declaration : Declaration) : Prop where
  follows : root.follow? declared.place = some declaration
  messages_eq : declared.messages = declaration.names
  part_eq : declaration.part = .extension declared.field

theorem forall₂_mapIdx_map {α β γ : Type} {R : β → γ → Prop} {f : Nat → α → β} {g : α → γ}
    {items : List α} (h : ∀ i item, items[i]? = some item → R (f i item) (g item)) :
    List.Forall₂ R (items.mapIdx f) (items.map g) := by
  refine List.forall₂_iff_get.2 ⟨by simp, fun i hi _ => ?_⟩
  have hlength : i < items.length := by simpa using hi
  simpa using h i items[i] (List.getElem?_eq_getElem hlength)

theorem exists_mem_of_forall₂ {α β : Type} {R : α → β → Prop} {as : List α} {bs : List β}
    (h : List.Forall₂ R as bs) {a : α} (ha : a ∈ as) : ∃ b ∈ bs, R a b := by
  induction h with
  | nil => cases ha
  | cons hab _ ih =>
    rcases List.mem_cons.1 ha with rfl | ha
    · exact ⟨_, List.mem_cons_self, hab⟩
    · obtain ⟨b, hb, hrel⟩ := ih ha
      exact ⟨b, List.mem_cons_of_mem _ hb, hrel⟩

section

variable {root : Declaration} {place : Place}

theorem leads_declaredEnums (outer : Declaration) {enums : List EnumSpec}
    (hsteps : ∀ (i : Nat) (enum : EnumSpec), enums[i]? = some enum →
      root.follow? (place ++ [.enumType i]) = some (outer.enum enum)) :
    List.Forall₂ (DeclaredType.Leads root) (declaredEnums outer.names place enums)
      (enums.map outer.enum) :=
  forall₂_mapIdx_map fun i enum henum => ⟨hsteps i enum henum, rfl, rfl, rfl⟩

theorem leads_declaredFields (outer : Declaration) {fields : List FieldSpec}
    (hsteps : ∀ (i : Nat) (field : FieldSpec), fields[i]? = some field →
      root.follow? (place ++ [.extension i]) = some (outer.extension field)) :
    List.Forall₂ (DeclaredExtension.Leads root) (declaredFields outer.names place fields)
      (fields.map outer.extension) :=
  forall₂_mapIdx_map fun i field hfield => ⟨hsteps i field hfield, rfl, rfl⟩

end

/-! The invariant of a visit: the place that has been noted for a message leads to it from the root,
and so a further step leads to what is inside the message. -/

mutual

theorem MessageSpec.leads_declaredTypes {root outer : Declaration} {place : Place} :
    ∀ message : MessageSpec, root.follow? place = some (outer.message message) →
      List.Forall₂ (DeclaredType.Leads root) (message.declaredTypes outer.names place)
        (message.visitedTypes outer)
  | ⟨name, nestedTypes, enumTypes, extensions⟩, hplace => by
    let self : Declaration := outer.message ⟨name, nestedTypes, enumTypes, extensions⟩
    have hstep := Declaration.follow?_append_singleton hplace
    rw [MessageSpec.declaredTypes, MessageSpec.visitedTypes]
    refine .cons ⟨hplace, rfl, rfl, rfl⟩ (List.rel_append ?_ ?_)
    · refine leads_declaredMessages self nestedTypes fun i inner hinner => ?_
      rw [hstep, Nat.zero_add]
      exact congrArg (Option.map _) hinner
    · refine leads_declaredEnums self fun i enum henum => ?_
      rw [hstep]
      exact congrArg (Option.map _) henum

theorem leads_declaredMessages {root : Declaration} (outer : Declaration) {place : Place}
    {step : Nat → Step} {index : Nat} : ∀ messages : List MessageSpec,
      (∀ (i : Nat) (message : MessageSpec), messages[i]? = some message →
        root.follow? (place ++ [step (index + i)]) = some (outer.message message)) →
      List.Forall₂ (DeclaredType.Leads root)
        (declaredMessages outer.names place step index messages) (visitedMessages outer messages)
  | [], _ => by
    rw [declaredMessages, visitedMessages]
    exact .nil
  | message :: messages, hsteps => by
    rw [declaredMessages, visitedMessages]
    refine List.rel_append (message.leads_declaredTypes (hsteps 0 message rfl)) ?_
    refine leads_declaredMessages outer messages fun i inner hinner => ?_
    rw [Nat.add_assoc, Nat.add_comm 1]
    exact hsteps (i + 1) inner hinner

end

mutual

theorem MessageSpec.leads_declaredExtensions {root outer : Declaration} {place : Place} :
    ∀ message : MessageSpec, root.follow? place = some (outer.message message) →
      List.Forall₂ (DeclaredExtension.Leads root) (message.declaredExtensions outer.names place)
        (message.visitedExtensions outer)
  | ⟨name, nestedTypes, enumTypes, extensions⟩, hplace => by
    let self : Declaration := outer.message ⟨name, nestedTypes, enumTypes, extensions⟩
    have hstep := Declaration.follow?_append_singleton hplace
    rw [MessageSpec.declaredExtensions, MessageSpec.visitedExtensions]
    refine List.rel_append ?_ ?_
    · refine leads_declaredFields self fun i field hfield => ?_
      rw [hstep]
      exact congrArg (Option.map _) hfield
    · refine leads_nestedExtensions self nestedTypes fun i inner hinner => ?_
      rw [hstep, Nat.zero_add]
      exact congrArg (Option.map _) hinner

theorem leads_nestedExtensions {root : Declaration} (outer : Declaration) {place : Place}
    {step : Nat → Step} {index : Nat} : ∀ messages : List MessageSpec,
      (∀ (i : Nat) (message : MessageSpec), messages[i]? = some message →
        root.follow? (place ++ [step (index + i)]) = some (outer.message message)) →
      List.Forall₂ (DeclaredExtension.Leads root)
        (nestedExtensions outer.names place step index messages) (visitedNested outer messages)
  | [], _ => by
    rw [nestedExtensions, visitedNested]
    exact .nil
  | message :: messages, hsteps => by
    rw [nestedExtensions, visitedNested]
    refine List.rel_append (message.leads_declaredExtensions (hsteps 0 message rfl)) ?_
    refine leads_nestedExtensions outer messages fun i inner hinner => ?_
    rw [Nat.add_assoc, Nat.add_comm 1]
    exact hsteps (i + 1) inner hinner

end

namespace FileSpec

theorem follow?_root_singleton (spec : FileSpec) (step : Step) :
    spec.root.follow? ([] ++ [step]) = spec.root.inside? step :=
  Declaration.follow?_append_singleton rfl step

theorem leads_declaredTypes (spec : FileSpec) :
    List.Forall₂ (DeclaredType.Leads spec.root) spec.declaredTypes spec.visitedTypes := by
  refine List.rel_append ?_ ?_
  · refine leads_declaredMessages spec.root spec.messageTypes fun i message hmessage => ?_
    rw [follow?_root_singleton, Nat.zero_add]
    exact congrArg (Option.map _) hmessage
  · refine leads_declaredEnums spec.root fun i enum henum => ?_
    rw [follow?_root_singleton]
    exact congrArg (Option.map _) henum

theorem leads_declaredExtensions (spec : FileSpec) :
    List.Forall₂ (DeclaredExtension.Leads spec.root) spec.declaredExtensions
      spec.visitedExtensions := by
  refine List.rel_append ?_ ?_
  · refine leads_declaredFields spec.root fun i field hfield => ?_
    rw [follow?_root_singleton]
    exact congrArg (Option.map _) hfield
  · refine leads_nestedExtensions spec.root spec.messageTypes fun i message hmessage => ?_
    rw [follow?_root_singleton, Nat.zero_add]
    exact congrArg (Option.map _) hmessage

end FileSpec

/-! ## Distinct paths -/

instance : Std.Asymm Step.TypeBefore where
  asymm a b hab hba := by
    cases a <;> cases b <;> simp only [Step.TypeBefore] at hab hba
    all_goals omega

theorem Place.TypeBefore.ne {a b : Place} (h : a.TypeBefore b) : a ≠ b := by
  rintro rfl
  exact Std.Asymm.asymm (r := List.Lex Step.TypeBefore) a a h h

theorem Place.Before.ne {a b : Place} (h : a.Before b) : a ≠ b := by
  rintro rfl
  exact h.asymm h

namespace FileSpec

/-- No type is where an extension is. -/
theorem place_ne_place {spec : FileSpec} {type : DeclaredType} {extension : DeclaredExtension}
    (htype : type ∈ spec.declaredTypes) (hextension : extension ∈ spec.declaredExtensions) :
    type.place ≠ extension.place := by
  intro heq
  obtain ⟨a, -, ha⟩ := exists_mem_of_forall₂ spec.leads_declaredTypes htype
  obtain ⟨b, -, hb⟩ := exists_mem_of_forall₂ spec.leads_declaredExtensions hextension
  obtain rfl : a = b := Option.some_inj.1 (ha.follows.symm.trans (heq ▸ hb.follows))
  have htype := ha.isType
  rw [Declaration.IsType, hb.part_eq] at htype
  exact htype

/-- **The paths in a file are distinct.** -/
theorem nodup_paths (spec : FileSpec) :
    (spec.declaredTypes.map (·.place.text) ++
      spec.declaredExtensions.map (·.place.text)).Nodup := by
  have htexts {a b : Place} (h : a ≠ b) : a.text ≠ b.text := fun htext =>
    h (Place.text_injective htext)
  refine List.nodup_append.2 ⟨?_, ?_, ?_⟩
  · rw [List.Nodup, List.pairwise_map]
    exact spec.listsTypes_declaredTypes.ordered.imp fun hbefore => htexts hbefore.ne
  · rw [List.Nodup, List.pairwise_map]
    exact spec.listsAll_declaredExtensions.ordered.imp fun hbefore => htexts hbefore.ne
  · intro path hpath other hother
    obtain ⟨type, htype, rfl⟩ := List.mem_map.1 hpath
    obtain ⟨extension, hextension, rfl⟩ := List.mem_map.1 hother
    exact htexts (place_ne_place htype hextension)

end FileSpec

/-! ## What entries and diagnostics point at -/

/-- What a path in one of several files leads to; the file is named by its own path. -/
def locate? (files : List DescriptorFile) (name path : String) :
    Option (DescriptorFile × Declaration) :=
  (files.find? (·.path == name)).bind fun file =>
    (file.spec.declarationAt? path).map fun declaration => (file, declaration)

/-- The types of several files, as a visit meets them. -/
def visitedTypes (files : List DescriptorFile) : List (DescriptorFile × Declaration) :=
  files.flatMap fun file => file.spec.visitedTypes.map fun declaration => (file, declaration)

/-- Whether an entry's file and path lead to a type of the entry's names, kind and values. -/
structure TypeEntry.PointsAt (files : List DescriptorFile) (entry : TypeEntry)
    (found : DescriptorFile × Declaration) : Prop where
  located : locate? files entry.declaredIn entry.path = some found
  type_eq : entry.type = ⟨found.1.spec.file, found.2.names⟩
  isType : found.2.IsType entry.kind entry.values

/-- Whether a diagnostic of a file leads to a declaration in it. Only for an invalid default its
path goes on to a part of the declaration. -/
structure Diagnostic.PointsAt (file : DescriptorFile) (d : Diagnostic)
    (declaration : Declaration) : Prop where
  file_eq : d.file = file.path
  leads : ∃ path, d.path = path ++ (if d.code = Diagnostic.invalidDefault then ".defaultValue"
    else "") ∧ file.spec.declarationAt? path = some declaration

/-- The entries that files offer to an index point at the types that a visit meets. -/
theorem forall₂_pointsAt_declaredEntries {all : List DescriptorFile} (files : List DescriptorFile)
    (hfiles : ∀ file ∈ files, all.find? (·.path == file.path) = some file) :
    List.Forall₂ (TypeEntry.PointsAt all) (TypeIndex.declaredEntries files)
      (visitedTypes files) := by
  induction files with
  | nil => exact .nil
  | cons file files ih =>
    obtain ⟨hfile, hrest⟩ := List.forall_mem_cons.1 hfiles
    refine List.rel_append (List.rel_map ?_ file.spec.leads_declaredTypes) (ih hrest)
    intro declared declaration hleads
    have hpath : file.spec.declarationAt? declared.place.text = some declaration :=
      (file.spec.declarationAt?_text declared.place).trans hleads.follows
    refine ⟨?_, congrArg (TypeRef.mk _) hleads.names_eq, hleads.isType⟩
    simp only [locate?, TypeEntry.ofDeclared, hfile, Option.bind_some, hpath, Option.map_some]

/-- The scope of what is declared in a declaration of a file. -/
def Declaration.scope (declaration : Declaration) (file : ProtoFile) : Scope :=
  if declaration.names.isEmpty then .file file else .message ⟨file, declaration.names⟩

/-- Whether an index refuses the extension that a declaration of a file is. -/
def TypeIndex.refuses (index : TypeIndex) (file : ProtoFile) (declaration : Declaration) : Bool :=
  match declaration.part with
  | .extension field => !(index.resolve (declaration.scope file) field).isOk
  | _ => false

theorem TypeIndex.refuses_eq (index : TypeIndex) (file : ProtoFile)
    {root declaration : Declaration} {declared : DeclaredExtension}
    (hleads : declared.Leads root declaration) :
    index.refuses file declaration =
      !(index.resolve (declared.scope file) declared.field).isOk := by
  rw [refuses, hleads.part_eq, Declaration.scope, ← hleads.messages_eq]
  rfl

theorem Refusal.path_eq (refusal : Refusal) (fieldPath : String) :
    refusal.path fieldPath =
      fieldPath ++ (if refusal.code = Diagnostic.invalidDefault then ".defaultValue" else "") := by
  cases refusal with
  | invalidDefault => rfl
  | _ => exact (String.append_empty ..).symm

theorem Accounts.forall₂_pointsAt {index : TypeIndex} {file : DescriptorFile} {identity : ProtoFile}
    {visited : List DeclaredExtension} {fields : List ExtensionField} {entries : List Diagnostic}
    (h : Accounts index file.path identity visited fields entries) {declarations : List Declaration}
    (hleads : List.Forall₂ (DeclaredExtension.Leads file.spec.root) visited declarations) :
    List.Forall₂ (Diagnostic.PointsAt file) entries
      (declarations.filter (index.refuses identity)) := by
  induction h generalizing declarations with
  | nil =>
    cases hleads
    exact .nil
  | resolved hresolves _ ih =>
    cases hleads with
    | cons hfirst hmore =>
      have hrefuses := index.refuses_eq identity hfirst
      rw [TypeIndex.resolve_eq_ok_iff.2 hresolves] at hrefuses
      rw [List.filter_cons_of_neg (by simp [hrefuses, Except.isOk, Except.toBool])]
      exact ih hmore
  | @refused declared _ refusal _ _ hresolve _ ih =>
    cases hleads with
    | cons hfirst hmore =>
      have hrefuses := index.refuses_eq identity hfirst
      rw [hresolve] at hrefuses
      rw [List.filter_cons_of_pos (by rw [hrefuses]; rfl)]
      refine .cons ⟨rfl, declared.place.text, refusal.path_eq _, ?_⟩ (ih hmore)
      exact (file.spec.declarationAt?_text declared.place).trans hfirst.follows

/-- **Paths lead to what they are about.** Types are offered to the index of some files as a visit
meets them. Where the paths of the files are distinct, the file and the path of each offered entry
lead to its type, and so do those of the entries that the index keeps and of the diagnostics about
taken names. Resolving a file gives one diagnostic for each extension that is refused, in order,
which leads to that extension. No two declarations in a file share a path. -/
theorem diagnostics_pointAt {files : List DescriptorFile} (hfiles : (files.map (·.path)).Nodup) :
    (∃ offered, List.Forall₂ (TypeEntry.PointsAt files) offered (visitedTypes files) ∧
      Registers [] offered (TypeIndex.ofFiles files).1.entries
        (TypeIndex.ofFiles files).2.entries) ∧
    (∀ entry ∈ (TypeIndex.ofFiles files).1.entries,
      ∃ found ∈ visitedTypes files, entry.PointsAt files found) ∧
    (∀ d ∈ (TypeIndex.ofFiles files).2.entries, d.code = Diagnostic.duplicateSymbol ∧
      ∃ found ∈ visitedTypes files, locate? files d.file d.path = some found ∧
        ∃ entry holder : TypeEntry, entry.PointsAt files found ∧ d = entry.duplicate holder) ∧
    (∀ (index : TypeIndex) (file : DescriptorFile),
      List.Forall₂ (Diagnostic.PointsAt file) (index.resolveFile file).2.entries
        (file.spec.visitedExtensions.filter (index.refuses (index.fileOf file.spec)))) ∧
    ∀ file : DescriptorFile, (file.spec.declaredTypes.map (·.place.text) ++
      file.spec.declaredExtensions.map (·.place.text)).Nodup := by
  have hoffered := forall₂_pointsAt_declaredEntries files fun file hfile =>
    (find?_eq_some_iff_of_nodup DescriptorFile.path hfiles).2 ⟨hfile, rfl⟩
  have hregisters := TypeIndex.registers_ofFiles files
  refine ⟨⟨_, hoffered, hregisters⟩, fun entry hentry => ?_, fun d hd => ⟨?_, ?_⟩, ?_, ?_⟩
  · exact exists_mem_of_forall₂ hoffered (hregisters.sublist.subset hentry)
  · exact (hregisters.code_of_mem hd).1
  · obtain ⟨entry, holder, hentry, rfl⟩ := hregisters.exists_duplicate_of_mem hd
    obtain ⟨found, hfound, hpoints⟩ := exists_mem_of_forall₂ hoffered hentry
    exact ⟨found, hfound, hpoints.located, entry, holder, hpoints, rfl⟩
  · intro index file
    rw [index.entries_resolveFile]
    exact (index.accounts_resolveDeclared file.path (index.fileOf file.spec)
      file.spec.declaredExtensions).forall₂_pointsAt file.spec.leads_declaredExtensions
  · exact fun file => file.spec.nodup_paths

/-- Two files in which names are taken below their top levels, and an extension has a default that
cannot be read. -/
def nestedFiles : List DescriptorFile :=
  [⟨"a.json", {
      name := "a.proto"
      messageTypes := [{ name := "M", nestedTypes := [{ name := "N" }, { name := "N" }] }] }⟩,
   ⟨"b.json", {
      name := "b.proto"
      messageTypes := [{
        name := "K"
        nestedTypes := [{
          name := "N"
          enumTypes := [{ name := "E" }, { name := "E" }]
          extensions := [
            { name := "good", number := 7, type := .int32, extendee := some "M" },
            { name := "bad", number := 8, type := .int32, extendee := some "M",
              defaultValue := some "x" }] }] }]
      enumTypes := [{ name := "M" }] }⟩]

theorem diagnostics_pointAt_nested :
    (nestedFiles.map (·.path)).Nodup ∧
      (TypeIndex.ofFiles nestedFiles).2.entries.map (fun d => (d.file, d.path)) =
        [("a.json", "$.messageTypes[0].nestedTypes[1]"),
         ("b.json", "$.messageTypes[0].nestedTypes[0].enumTypes[1]"),
         ("b.json", "$.enumTypes[0]")] ∧
      (∀ d ∈ (TypeIndex.ofFiles nestedFiles).2.entries,
        ∃ found ∈ visitedTypes nestedFiles, locate? nestedFiles d.file d.path = some found) ∧
      (resolveFiles nestedFiles).2.entries.map (·.path) =
        ["$.messageTypes[0].nestedTypes[1]", "$.messageTypes[0].nestedTypes[0].enumTypes[1]",
         "$.enumTypes[0]", "$.messageTypes[0].nestedTypes[0].extensions[1].defaultValue"] ∧
      ∀ (index : TypeIndex), ∀ file ∈ nestedFiles,
        List.Forall₂ (Diagnostic.PointsAt file) (index.resolveFile file).2.entries
          (file.spec.visitedExtensions.filter (index.refuses (index.fileOf file.spec))) := by
  have hfiles : (nestedFiles.map (·.path)).Nodup := by decide
  obtain ⟨-, -, hduplicates, hresolved, -⟩ := diagnostics_pointAt hfiles
  refine ⟨hfiles, by decide +kernel, fun d hd => ?_, by decide +kernel,
    fun index file _ => hresolved index file⟩
  obtain ⟨-, found, hfound, hlocated, -⟩ := hduplicates d hd
  exact ⟨found, hfound, hlocated⟩

end ProtoExtensions
