import Mathlib.Data.List.Forall2
import ProtoExtensions.Spec.Reading

/-!
Descriptors survive being written and read. A record is written as those of its entries that have a
value, in the order in which the schema lists the record's fields (`Json.WrittenAs`). What a reader
finds under a key is then exactly what was written for it, and where nothing was, the default it
falls back on is the value that was left out. What is written also has the shape that its reader
asks for (`Json.HasShape`): each member is a known one and stands there once, and none that has to
be there is missing.
-/

namespace ProtoExtensions

namespace Json

/-! ## Members that may be left out -/

/-- The members of a record, from what each of its entries is written as, if it is. -/
def written (entries : List (String × Option Json)) : List (String × Json) :=
  entries.filterMap fun (key, value) => value.map (key, ·)

/-- What a flag is written as. -/
def unlessFalse (flag : Bool) : Option Json :=
  if flag then some (.bool true) else none

/-- What a list is written as. -/
def unlessEmpty (items : List Json) : Option Json :=
  if items.isEmpty then none else some (.list items)

theorem written_nil : written [] = [] :=
  rfl

theorem written_cons (key : String) (value : Option Json) (entries : List (String × Option Json)) :
    written ((key, value) :: entries) = value.toList.map (key, ·) ++ written entries := by
  cases value <;> rfl

theorem ifSome_eq (name : String) (text : Option String) :
    ifSome name text = written [(name, text.map .string)] := by
  cases text <;> rfl

theorem ifTrue_eq (name : String) (flag : Bool) :
    ifTrue name flag = written [(name, unlessFalse flag)] := by
  cases flag <;> rfl

theorem ifItems_eq (name : String) (items : List Json) :
    ifItems name items = written [(name, unlessEmpty items)] := by
  cases items <;> rfl

theorem keys_written_sublist (entries : List (String × Option Json)) :
    ((written entries).map (·.1)).Sublist (entries.map (·.1)) := by
  induction entries with
  | nil => exact List.Sublist.slnil
  | cons entry entries ih =>
    obtain ⟨key, value⟩ := entry
    cases value with
    | none => exact ih.cons key
    | some value => exact ih.cons_cons key

theorem lookup_written_of_not_mem {entries : List (String × Option Json)} {key : String}
    (h : key ∉ entries.map (·.1)) : (written entries).lookup key = none := by
  refine List.lookup_eq_none_iff.2 fun member hmember => bne_iff_ne.2 ?_
  rintro rfl
  exact h ((keys_written_sublist entries).subset (List.mem_map_of_mem hmember))

theorem lookup_written {entries : List (String × Option Json)} (hkeys : (entries.map (·.1)).Nodup)
    {key : String} {value : Option Json} (h : (key, value) ∈ entries) :
    (written entries).lookup key = value := by
  induction entries with
  | nil => exact absurd h List.not_mem_nil
  | cons entry entries ih =>
    obtain ⟨other, found⟩ := entry
    obtain ⟨hother, hrest⟩ := List.nodup_cons.1 hkeys
    obtain heq | htail := List.mem_cons.1 h
    · obtain ⟨rfl, rfl⟩ := Prod.mk.inj heq
      -- An entry that is left out leaves its key to no other one.
      cases value with
      | none => exact show (written entries).lookup key = none from lookup_written_of_not_mem hother
      | some value => exact List.lookup_cons_self
    · have hne : key ≠ other := by
        rintro rfl
        exact hother (List.mem_map.2 ⟨_, htail, rfl⟩)
      cases found with
      | none => exact ih hrest htail
      | some found =>
        change ((other, found) :: written entries).lookup key = value
        rw [List.lookup_cons, beq_false_of_ne hne]
        exact ih hrest htail

/-! ## The shape a reader asks for -/

/-- Whether a value is of the form that reading by a shape gives: a record holds known fields only,
each at most once, and all those that have to be there. -/
inductive HasShape (schema : Schema κ) : Shape κ → Json → Prop where
  | text (text : String) : HasShape schema .text (.string text)
  | path (text : String) : HasShape schema .path (.string text)
  | flag (flag : Bool) : HasShape schema .flag (.bool flag)
  | int32 {number : Int} (h : (Json.int number).int32?.isSome) :
      HasShape schema .int32 (.int number)
  | choice {variants : List String} {name : String} (h : name ∈ variants) :
      HasShape schema (.choice variants) (.string name)
  | null (shape : Shape κ) : HasShape schema (.optional shape) .null
  | value {shape : Shape κ} {json : Json} (h : HasShape schema shape json) :
      HasShape schema (.optional shape) json
  | list {shape : Shape κ} {items : List Json} (h : ∀ item ∈ items, HasShape schema shape item) :
      HasShape schema (.list shape) (.list items)
  | record {kind : κ} {members : List (String × Json)}
      (known : ∀ key ∈ members.map (·.1), key ∈ (schema kind).fields.map (·.key))
      (distinct : (members.map (·.1)).Nodup)
      (values : ∀ field ∈ (schema kind).fields, ∀ value,
        members.lookup field.key = some value → HasShape schema field.shape value)
      (complete : (schema kind).missing? members = none) :
      HasShape schema (.record kind) (.object members)

/-- Whether an entry of a record is one that a field of the record may have. -/
structure Fits (schema : Schema κ) (field : FieldShape κ) (entry : String × Option Json) :
    Prop where
  key : entry.1 = field.key
  shape : ∀ value, entry.2 = some value → HasShape schema field.shape value
  present : field.presence = .required → entry.2.isSome

theorem Fits.of_some {schema : Schema κ} {field : FieldShape κ} {json : Json}
    (h : HasShape schema field.shape json) : Fits schema field (field.key, some json) :=
  ⟨rfl, fun _ heq => Option.some.inj heq ▸ h, fun _ => rfl⟩

theorem Fits.of_not_required {schema : Schema κ} {field : FieldShape κ} {value : Option Json}
    (hpresence : field.presence ≠ .required)
    (h : ∀ json, value = some json → HasShape schema field.shape json) :
    Fits schema field (field.key, value) :=
  ⟨rfl, h, fun hrequired => absurd hrequired hpresence⟩

theorem fits_text (schema : Schema κ) (key text : String) (presence : Presence) :
    Fits schema ⟨key, .text, presence⟩ (key, some (.string text)) :=
  .of_some (.text text)

theorem int32?_toInt (number : Int32) : (Json.int number.toInt).int32? = some number := by
  have hlow := number.le_toInt
  have hhigh := number.toInt_lt
  rw [int32?, if_pos (by omega), Int32.ofInt_toInt]

theorem fits_int32 (schema : Schema κ) (key : String) (number : Int32) (presence : Presence) :
    Fits schema ⟨key, .int32, presence⟩ (key, some (.int number.toInt)) :=
  .of_some (.int32 (by rw [int32?_toInt, Option.isSome_some]))

theorem fits_optionalText (schema : Schema κ) (key : String) (text : Option String) :
    Fits schema ⟨key, .optional .text, .optional⟩ (key, text.map .string) := by
  refine .of_not_required nofun fun json h => ?_
  obtain ⟨text, -, rfl⟩ := Option.map_eq_some_iff.1 h
  exact .value (.text text)

theorem fits_flag (schema : Schema κ) (key : String) (flag : Bool) :
    Fits schema ⟨key, .flag, .defaulted⟩ (key, unlessFalse flag) := by
  refine .of_not_required nofun fun json h => ?_
  cases flag with
  | false => exact nomatch h
  | true => exact Option.some.inj h ▸ .flag true

theorem fits_list {schema : Schema κ} {key : String} {shape : Shape κ} {write : α → Json}
    {items : List α} (h : ∀ item ∈ items, HasShape schema shape (write item)) :
    Fits schema ⟨key, .list shape, .defaulted⟩ (key, unlessEmpty (items.map write)) := by
  refine .of_not_required nofun fun json hjson => ?_
  cases items with
  | nil => exact nomatch hjson
  | cons first rest => exact Option.some.inj hjson ▸ .list (List.forall_mem_map.2 h)

/-! ## Records -/

/-- Whether a value is the object written for some entries with different keys. -/
structure WrittenAs (json : Json) (entries : List (String × Option Json)) : Prop where
  eq : json = .object (written entries)
  distinct : (entries.map (·.1)).Nodup

namespace WrittenAs

variable {json : Json} {entries : List (String × Option Json)} {key : String}

/-- A record has its shape when its entries fit its fields one by one. -/
theorem hasShape {schema : Schema κ} {kind : κ} (hjson : json.WrittenAs entries)
    (h : List.Forall₂ (Fits schema) (schema kind).fields entries) :
    HasShape schema (.record kind) json := by
  obtain ⟨rfl, hkeys⟩ := hjson
  have hsame : entries.map (·.1) = (schema kind).fields.map (·.key) := by
    rw [← List.forall₂_eq_eq_eq, List.forall₂_map_left_iff, List.forall₂_map_right_iff]
    exact h.flip.imp fun _ _ hfits => hfits.key
  have hentry {field : FieldShape κ} (hfield : field ∈ (schema kind).fields) :
      ∃ value, Fits schema field (field.key, value) ∧
        (written entries).lookup field.key = value := by
    obtain ⟨i, hi, rfl⟩ := List.mem_iff_getElem.1 hfield
    obtain ⟨entry, hmem, hfits⟩ : ∃ entry ∈ entries, Fits schema (schema kind).fields[i] entry :=
      ⟨_, List.getElem_mem _, h.get hi (h.length_eq ▸ hi)⟩
    obtain ⟨key, value⟩ := entry
    obtain rfl : key = _ := hfits.key
    exact ⟨value, hfits, lookup_written hkeys hmem⟩
  refine .record ?_ ?_ ?_ ?_
  · intro key hkey
    exact hsame ▸ (keys_written_sublist entries).subset hkey
  · exact hkeys.sublist (keys_written_sublist entries)
  · intro field hfield value hvalue
    obtain ⟨_, hfits, hlookup⟩ := hentry hfield
    exact hfits.shape value (hlookup ▸ hvalue)
  · refine List.find?_eq_none.2 fun field hfield hmissing => ?_
    obtain ⟨value, hfits, hlookup⟩ := hentry hfield
    obtain ⟨hpresence, rfl⟩ : field.presence = .required ∧ value = none := by
      simpa [hlookup] using hmissing
    exact absurd (hfits.present hpresence) (by simp)

theorem member? (hjson : json.WrittenAs entries) {value : Option Json}
    (h : (key, value) ∈ entries) : json.member? key = value := by
  rw [hjson.eq]
  exact lookup_written hjson.distinct h

theorem required (hjson : json.WrittenAs entries) {read : Json → Option α} {value : Json} {a : α}
    (h : (key, some value) ∈ entries) (hread : read value = some a) :
    json.required key read = some a := by
  rw [Json.required, hjson.member? h, Option.bind_some, hread]

theorem text (hjson : json.WrittenAs entries) {text : String}
    (h : (key, some (.string text)) ∈ entries) : json.required key string? = some text :=
  hjson.required h rfl

theorem defaulted (hjson : json.WrittenAs entries) {read : Json → Option α} {value : Json} {a : α}
    (h : (key, some value) ∈ entries) (hread : read value = some a) (default : α) :
    json.defaulted key default read = some a := by
  rw [Json.defaulted, hjson.member? h, ← hread]

theorem absent (hjson : json.WrittenAs entries) (h : (key, none) ∈ entries) (default : α)
    (read : Json → Option α) : json.defaulted key default read = some default := by
  rw [Json.defaulted, hjson.member? h]

theorem optional (hjson : json.WrittenAs entries) {text : Option String}
    (h : (key, text.map .string) ∈ entries) : json.optional key string? = some text := by
  rw [Json.optional, hjson.member? h]
  cases text <;> rfl

theorem flag (hjson : json.WrittenAs entries) {flag : Bool}
    (h : (key, unlessFalse flag) ∈ entries) : json.defaulted key false bool? = some flag := by
  rw [Json.defaulted, hjson.member? h]
  cases flag <;> rfl

end WrittenAs

theorem listOf?_map {write : α → Json} {read : Json → Option α} {items : List α}
    (h : ∀ item ∈ items, read (write item) = some item) :
    listOf? read (.list (items.map write)) = some items := by
  change (items.map write).mapM read = some items
  induction items with
  | nil => rfl
  | cons item items ih =>
    rw [List.map_cons, List.mapM_cons, h item List.mem_cons_self,
      ih fun other hother => h other (List.mem_cons_of_mem item hother)]
    rfl

theorem WrittenAs.list {json : Json} {entries : List (String × Option Json)} {key : String}
    {write : α → Json} {read : Json → Option α} {items : List α} (hjson : json.WrittenAs entries)
    (h : (key, unlessEmpty (items.map write)) ∈ entries)
    (hread : ∀ item ∈ items, read (write item) = some item) :
    json.defaulted key [] (listOf? read) = some items := by
  cases items with
  | nil => exact hjson.absent h [] (listOf? read)
  | cons first rest => exact hjson.defaulted h (listOf?_map hread) []

theorem cardinality?_protoName (cardinality : Cardinality) :
    cardinality? (.string cardinality.protoName) = some cardinality :=
  cardinality.ofProtoName?_protoName

theorem fieldType?_protoName (type : FieldType) :
    fieldType? (.string type.protoName) = some type :=
  type.ofProtoName?_protoName

end Json

open Json

/-! ## Fields -/

namespace FieldOptions

/-- What the options of a field are written as. -/
def entries (options : FieldOptions) : List (String × Option Json) :=
  [("packed", unlessFalse options.packed), ("deprecated", unlessFalse options.deprecated)]

variable (options : FieldOptions)

theorem writtenAs : options.toJson.WrittenAs options.entries :=
  ⟨by simp [toJson, entries, ifTrue_eq, written_cons, written_nil], by simp [entries]⟩

theorem hasShape_toJson : options.toJson.HasShape descriptorSchema (.record .fieldOptions) :=
  options.writtenAs.hasShape (.cons (fits_flag ..) (.cons (fits_flag ..) .nil))

theorem ofJson?_toJson : ofJson? options.toJson = some options := by
  have hpacked : options.toJson.defaulted "packed" false bool? = some options.packed :=
    options.writtenAs.flag (by simp [entries])
  have hdeprecated : options.toJson.defaulted "deprecated" false bool? = some options.deprecated :=
    options.writtenAs.flag (by simp [entries])
  rw [ofJson?, hpacked, hdeprecated]
  rfl

theorem eq_of_isEmpty {options : FieldOptions} (h : options.isEmpty) : options = {} := by
  obtain ⟨packed, deprecated⟩ := options
  cases packed <;> cases deprecated <;> first | rfl | exact nomatch h

end FieldOptions

namespace FieldSpec

/-- What a field is written as. -/
def entries (field : FieldSpec) : List (String × Option Json) :=
  [("name", some (.string field.name)), ("number", some (.int field.number.toInt)),
    ("label", some (.string field.label.protoName)), ("type", some (.string field.type.protoName)),
    ("typeName", field.typeName.map .string), ("extendee", field.extendee.map .string),
    ("defaultValue", field.defaultValue.map .string),
    ("options", if field.options.isEmpty then none else some field.options.toJson)]

variable (field : FieldSpec)

theorem writtenAs : field.toJson.WrittenAs field.entries := by
  refine ⟨?_, by simp [entries]⟩
  have hoptions : (if field.options.isEmpty then [] else [("options", field.options.toJson)]) =
      written [("options", if field.options.isEmpty then none else some field.options.toJson)] := by
    split <;> rfl
  rw [toJson, hoptions]
  simp [entries, ifSome_eq, written_cons, written_nil]

theorem hasShape_toJson : field.toJson.HasShape descriptorSchema (.record .field) := by
  have hlabel := List.mem_map_of_mem (f := Cardinality.protoName) field.label.mem_all
  have htype := List.mem_map_of_mem (f := FieldType.protoName) field.type.mem_all
  refine field.writtenAs.hasShape (.cons (fits_text ..) (.cons (fits_int32 ..)
    (.cons (.of_some (.choice hlabel)) (.cons (.of_some (.choice htype))
    (.cons (fits_optionalText ..) (.cons (fits_optionalText ..) (.cons (fits_optionalText ..)
    (.cons (.of_not_required nofun fun json hjson => ?_) .nil))))))))
  obtain ⟨-, rfl⟩ : ¬field.options.isEmpty ∧ field.options.toJson = json := by
    simpa using hjson
  exact field.options.hasShape_toJson

theorem ofJson?_toJson : ofJson? field.toJson = some field := by
  have hjson := field.writtenAs
  have hname : field.toJson.required "name" string? = some field.name :=
    hjson.text (by simp [entries])
  have hnumber : field.toJson.required "number" int32? = some field.number :=
    hjson.required (by simp [entries]) (int32?_toInt field.number)
  have hlabel : field.toJson.defaulted "label" .optional cardinality? = some field.label :=
    hjson.defaulted (by simp [entries]) (cardinality?_protoName field.label) _
  have htype : field.toJson.required "type" fieldType? = some field.type :=
    hjson.required (by simp [entries]) (fieldType?_protoName field.type)
  have htypeName : field.toJson.optional "typeName" string? = some field.typeName :=
    hjson.optional (by simp [entries])
  have hextendee : field.toJson.optional "extendee" string? = some field.extendee :=
    hjson.optional (by simp [entries])
  have hdefault : field.toJson.optional "defaultValue" string? = some field.defaultValue :=
    hjson.optional (by simp [entries])
  have hoptions : field.toJson.defaulted "options" {} FieldOptions.ofJson? =
      some field.options := by
    by_cases hempty : field.options.isEmpty
    · rw [FieldOptions.eq_of_isEmpty hempty]
      exact hjson.absent (by simp [entries, hempty]) _ _
    · exact hjson.defaulted (by simp [entries, hempty]) field.options.ofJson?_toJson {}
  rw [ofJson?, hname, hnumber, hlabel, htype, htypeName, hextendee, hdefault, hoptions]
  rfl

end FieldSpec

/-! ## Enums -/

namespace EnumValue

/-- What an enum value is written as. -/
def entries (value : EnumValue) : List (String × Option Json) :=
  [("name", some (.string value.name)), ("number", some (.int value.number.toInt))]

variable (value : EnumValue)

theorem writtenAs : value.toJson.WrittenAs value.entries :=
  ⟨rfl, by simp [entries]⟩

theorem hasShape_toJson : value.toJson.HasShape descriptorSchema (.record .enumValue) :=
  value.writtenAs.hasShape (.cons (fits_text ..) (.cons (fits_int32 ..) .nil))

theorem ofJson?_toJson : ofJson? value.toJson = some value := by
  have hname : value.toJson.required "name" string? = some value.name :=
    value.writtenAs.text (by simp [entries])
  have hnumber : value.toJson.required "number" int32? = some value.number :=
    value.writtenAs.required (by simp [entries]) (int32?_toInt value.number)
  rw [ofJson?, hname, hnumber]
  rfl

end EnumValue

namespace EnumSpec

/-- What an enum is written as. Its values are always there. -/
def entries (spec : EnumSpec) : List (String × Option Json) :=
  [("name", some (.string spec.name)), ("values", some (.list (spec.values.map EnumValue.toJson)))]

variable (spec : EnumSpec)

theorem writtenAs : spec.toJson.WrittenAs spec.entries :=
  ⟨rfl, by simp [entries]⟩

theorem hasShape_toJson : spec.toJson.HasShape descriptorSchema (.record .enum) := by
  have hvalues : ∀ json ∈ spec.values.map EnumValue.toJson,
      json.HasShape descriptorSchema (.record .enumValue) :=
    List.forall_mem_map.2 fun value _ => value.hasShape_toJson
  exact spec.writtenAs.hasShape
    (.cons (fits_text ..) (.cons (.of_some (.list hvalues)) .nil))

theorem ofJson?_toJson : ofJson? spec.toJson = some spec := by
  have hname : spec.toJson.required "name" string? = some spec.name :=
    spec.writtenAs.text (by simp [entries])
  have hvalues : spec.toJson.defaulted "values" [] (listOf? EnumValue.ofJson?) =
      some spec.values :=
    spec.writtenAs.defaulted (by simp [entries])
      (listOf?_map fun value _ => value.ofJson?_toJson) []
  rw [ofJson?, hname, hvalues]
  rfl

end EnumSpec

/-! ## Messages -/

theorem messagesToJson_eq (messages : List MessageSpec) :
    messagesToJson messages = messages.map MessageSpec.toJson := by
  induction messages with
  | nil => rfl
  | cons message messages ih => rw [messagesToJson, ih, List.map_cons]

theorem messages?_eq (items : List Json) : messages? items = items.mapM MessageSpec.ofJson? := by
  induction items with
  | nil => rfl
  | cons item items ih => rw [messages?, ih, List.mapM_cons]

theorem messageList?_eq : messageList? = listOf? MessageSpec.ofJson? := by
  funext json
  cases json with
  | list items => exact messages?_eq items
  | _ => rfl

theorem nestedMessages?_eq (members : List (String × Json)) :
    nestedMessages? members = (Json.object members).defaulted "nestedTypes" [] messageList? := by
  induction members with
  | nil => rfl
  | cons member members ih =>
    obtain ⟨key, value⟩ := member
    rw [nestedMessages?, ih, defaulted, defaulted, Json.member?, Json.member?, List.lookup_cons]
    by_cases hkey : key = "nestedTypes"
    · subst hkey
      simp
    · have hne : ("nestedTypes" == key) = false := beq_false_of_ne (Ne.symm hkey)
      rw [if_neg hkey, hne]

namespace MessageSpec

/-- What holds of each message if of the messages directly inside it holds of all. -/
theorem induction {P : MessageSpec → Prop}
    (step : ∀ message, (∀ inner ∈ message.nestedTypes, P inner) → P message)
    (message : MessageSpec) : P message :=
  step message fun inner _ => induction step inner
termination_by message
decreasing_by
  obtain ⟨name, nestedTypes, enumTypes, extensions⟩ := message
  have := List.sizeOf_lt_of_mem ‹_›
  simp at this ⊢
  omega

/-- What a message is written as. -/
def entries (message : MessageSpec) : List (String × Option Json) :=
  [("name", some (.string message.name)),
    ("nestedTypes", unlessEmpty (message.nestedTypes.map toJson)),
    ("enumTypes", unlessEmpty (message.enumTypes.map EnumSpec.toJson)),
    ("extensions", unlessEmpty (message.extensions.map FieldSpec.toJson))]

variable (message : MessageSpec)

theorem writtenAs : message.toJson.WrittenAs message.entries := by
  obtain ⟨name, nestedTypes, enumTypes, extensions⟩ := message
  refine ⟨?_, by simp [entries]⟩
  simp [toJson, entries, messagesToJson_eq, ifItems_eq, written_cons, written_nil]

theorem ofJson?_eq (json : Json) : ofJson? json = (do
    let name ← json.required "name" string?
    let nestedTypes ← json.defaulted "nestedTypes" [] (listOf? ofJson?)
    let enumTypes ← json.defaulted "enumTypes" [] (listOf? EnumSpec.ofJson?)
    let extensions ← json.defaulted "extensions" [] (listOf? FieldSpec.ofJson?)
    pure { name, nestedTypes, enumTypes, extensions }) := by
  cases json with
  | object members => rw [ofJson?, nestedMessages?_eq, messageList?_eq]
  | _ => rfl

theorem hasShape_toJson (message : MessageSpec) :
    message.toJson.HasShape descriptorSchema (.record .message) := by
  induction message using induction with
  | step message ih =>
    exact message.writtenAs.hasShape (.cons (fits_text ..) (.cons (fits_list ih)
      (.cons (fits_list fun spec _ => spec.hasShape_toJson)
      (.cons (fits_list fun field _ => field.hasShape_toJson) .nil))))

theorem ofJson?_toJson (message : MessageSpec) : ofJson? message.toJson = some message := by
  induction message using induction with
  | step message ih =>
    have hjson := message.writtenAs
    have hname : message.toJson.required "name" string? = some message.name :=
      hjson.text (by simp [entries])
    have hnested : message.toJson.defaulted "nestedTypes" [] (listOf? ofJson?) =
        some message.nestedTypes :=
      hjson.list (by simp [entries]) ih
    have henums : message.toJson.defaulted "enumTypes" [] (listOf? EnumSpec.ofJson?) =
        some message.enumTypes :=
      hjson.list (by simp [entries]) fun spec _ => spec.ofJson?_toJson
    have hextensions : message.toJson.defaulted "extensions" [] (listOf? FieldSpec.ofJson?) =
        some message.extensions :=
      hjson.list (by simp [entries]) fun field _ => field.ofJson?_toJson
    rw [ofJson?_eq, hname, hnested, henums, hextensions]
    -- A message holds messages, so it is its fields put together only once it is taken apart.
    cases message
    rfl

end MessageSpec

/-! ## Files -/

namespace FileOptions

/-- What the options of a file are written as. -/
def entries (options : FileOptions) : List (String × Option Json) :=
  [("javaPackage", options.javaPackage.map .string),
    ("javaOuterClassname", options.outerClassname.map .string),
    ("javaMultipleFiles", unlessFalse options.multipleFiles)]

variable (options : FileOptions)

theorem writtenAs : options.toJson.WrittenAs options.entries :=
  ⟨by simp [toJson, entries, ifSome_eq, ifTrue_eq, written_cons, written_nil], by simp [entries]⟩

theorem hasShape_toJson : options.toJson.HasShape descriptorSchema (.record .fileOptions) :=
  options.writtenAs.hasShape (.cons (fits_optionalText ..) (.cons (fits_optionalText ..)
    (.cons (fits_flag ..) .nil)))

theorem ofJson?_toJson : ofJson? options.toJson = some options := by
  have hjavaPackage : options.toJson.optional "javaPackage" string? = some options.javaPackage :=
    options.writtenAs.optional (by simp [entries])
  have houterClassname : options.toJson.optional "javaOuterClassname" string? =
      some options.outerClassname :=
    options.writtenAs.optional (by simp [entries])
  have hmultipleFiles : options.toJson.defaulted "javaMultipleFiles" false bool? =
      some options.multipleFiles :=
    options.writtenAs.flag (by simp [entries])
  rw [ofJson?, hjavaPackage, houterClassname, hmultipleFiles]
  rfl

end FileOptions

namespace FileSpec

/-- What a file is written as. Its package and options are always there. -/
def entries (spec : FileSpec) : List (String × Option Json) :=
  [("name", some (.string spec.name)), ("package", some (.string spec.package)),
    ("options", some spec.options.toJson),
    ("messageTypes", unlessEmpty (spec.messageTypes.map MessageSpec.toJson)),
    ("enumTypes", unlessEmpty (spec.enumTypes.map EnumSpec.toJson)),
    ("extensions", unlessEmpty (spec.extensions.map FieldSpec.toJson))]

variable (spec : FileSpec)

theorem writtenAs : spec.toJson.WrittenAs spec.entries :=
  ⟨by simp [toJson, entries, messagesToJson_eq, ifItems_eq, written_cons, written_nil],
    by simp [entries]⟩

theorem hasShape_toJson : spec.toJson.HasShape descriptorSchema (.record .file) :=
  spec.writtenAs.hasShape (.cons (fits_text ..) (.cons (fits_text ..)
    (.cons (.of_some spec.options.hasShape_toJson)
    (.cons (fits_list fun message _ => message.hasShape_toJson)
    (.cons (fits_list fun spec _ => spec.hasShape_toJson)
    (.cons (fits_list fun field _ => field.hasShape_toJson) .nil))))))

theorem ofJson?_toJson : ofJson? spec.toJson = some spec := by
  have hjson := spec.writtenAs
  have hname : spec.toJson.required "name" string? = some spec.name :=
    hjson.text (by simp [entries])
  have hpackage : spec.toJson.defaulted "package" "" string? = some spec.package :=
    hjson.defaulted (by simp [entries]) (show string? (.string spec.package) = some _ from rfl) ""
  have hoptions : spec.toJson.defaulted "options" {} FileOptions.ofJson? = some spec.options :=
    hjson.defaulted (by simp [entries]) spec.options.ofJson?_toJson {}
  have hmessages : spec.toJson.defaulted "messageTypes" [] messageList? =
      some spec.messageTypes :=
    messageList?_eq ▸ hjson.list (by simp [entries]) fun message _ => message.ofJson?_toJson
  have henums : spec.toJson.defaulted "enumTypes" [] (listOf? EnumSpec.ofJson?) =
      some spec.enumTypes :=
    hjson.list (by simp [entries]) fun spec _ => spec.ofJson?_toJson
  have hextensions : spec.toJson.defaulted "extensions" [] (listOf? FieldSpec.ofJson?) =
      some spec.extensions :=
    hjson.list (by simp [entries]) fun field _ => field.ofJson?_toJson
  rw [ofJson?, hname, hpackage, hoptions, hmessages, henums, hextensions]
  rfl

/-- **A file survives being written.** Whatever its names, numbers and options are and however deep
its messages go, the value written for it is of the form that reading a descriptor accepts, it is
read as the very same file, and that file is written as the very same value. -/
theorem toJson_survives : spec.toJson.HasShape descriptorSchema (.record .file) ∧
    ofJson? spec.toJson = some spec ∧
    (ofJson? spec.toJson).map toJson = some spec.toJson :=
  ⟨spec.hasShape_toJson, spec.ofJson?_toJson, by rw [spec.ofJson?_toJson, Option.map_some]⟩

end FileSpec

end ProtoExtensions
