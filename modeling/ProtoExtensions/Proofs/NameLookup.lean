import Mathlib.Logic.Relation
import ProtoExtensions.Resolution
import ProtoExtensions.Text.Lines

/-!
Looking names up from the inside out. A relative name is tried in its scope, and where it names
nothing there, in the scope cut before its last dot, until no dot is left. `TypeIndex.Walk` says so
step by step; each scope cuts to one other, which is shorter (`CutsTo.eq`, `CutsTo.length_lt`), so
the walk ends, and it ends where `TypeIndex.find?` does. As scopes get shorter on the way, the type
found is the one under the longest scope that has one, of whatever kind it is.
-/

namespace ProtoExtensions

/-- Whether a type name is a full name, which means the same in every scope. -/
def IsAbsolute (name : String) : Prop :=
  ∃ rest, name.toList = '.' :: rest

/-! ## Scopes around a scope -/

/-- Whether a scope, cut before its last dot, is another one. -/
def CutsTo (scope outer : String) : Prop :=
  ∃ last : String, scope = outer ++ "." ++ last ∧ '.' ∉ last.toList

/-- Whether a scope comes from another one by cutting it any number of times. -/
def IsAround (outer scope : String) : Prop :=
  Relation.ReflTransGen CutsTo scope outer

theorem cutsTo_iff {scope outer : String} :
    CutsTo scope outer ↔ ∃ last, scope.toList = outer.toList ++ '.' :: last ∧ '.' ∉ last := by
  constructor
  · rintro ⟨last, rfl, hlast⟩
    exact ⟨last.toList, by simp, hlast⟩
  · rintro ⟨last, hscope, hlast⟩
    exact ⟨String.ofList last, String.toList_injective (by simp [hscope]), by simpa using hlast⟩

theorem CutsTo.eq {scope a b : String} (ha : CutsTo scope a) (hb : CutsTo scope b) : a = b := by
  obtain ⟨_, ha, hlast⟩ := cutsTo_iff.1 ha
  obtain ⟨_, hb, hother⟩ := cutsTo_iff.1 hb
  exact String.toList_injective ((append_separator_inj hlast hother).1 (ha ▸ hb)).1

theorem CutsTo.length_lt {scope outer : String} (h : CutsTo scope outer) :
    outer.length < scope.length := by
  obtain ⟨last, hscope, -⟩ := cutsTo_iff.1 h
  rw [← String.length_toList, ← String.length_toList, hscope, List.length_append, List.length_cons]
  omega

theorem exists_cutsTo {scope : String} (h : '.' ∈ scope.toList) : ∃ outer, CutsTo scope outer := by
  obtain ⟨before, after, hsplit, hbefore⟩ :=
    List.eq_append_cons_of_mem (List.mem_reverse.2 h)
  refine ⟨String.ofList after.reverse, cutsTo_iff.2 ⟨before.reverse, ?_, by simpa using hbefore⟩⟩
  simpa using congrArg List.reverse hsplit

/-- What holds of scopes without a dot, and of each scope if of the one it cuts to, holds of all. -/
theorem scope_induction {P : String → Prop} (outermost : ∀ scope, '.' ∉ scope.toList → P scope)
    (cut : ∀ scope outer, CutsTo scope outer → P outer → P scope) (scope : String) : P scope := by
  by_cases hdot : '.' ∈ scope.toList
  · obtain ⟨outer, houter⟩ := exists_cutsTo hdot
    have := houter.length_lt
    exact cut scope outer houter (scope_induction outermost cut outer)
  · exact outermost scope hdot
termination_by scope.length

theorem not_cutsTo {scope : String} (h : '.' ∉ scope.toList) (outer : String) :
    ¬CutsTo scope outer := by
  rintro ⟨last, rfl, -⟩
  simp at h

/-! ### The list of them -/

theorem partsBeforeDots_append (a b : List Char) :
    partsBeforeDots (a ++ b) = partsBeforeDots a ++ (partsBeforeDots b).map (a ++ ·) := by
  induction a with
  | nil => simp [partsBeforeDots]
  | cons c rest ih =>
    simp only [List.cons_append, partsBeforeDots, ih, List.map_append, List.map_map]
    split <;> rfl

theorem partsBeforeDots_of_not_mem {text : List Char} (h : '.' ∉ text) :
    partsBeforeDots text = [] := by
  induction text with
  | nil => rfl
  | cons c rest ih =>
    simp only [List.mem_cons, not_or] at h
    simp [partsBeforeDots, ih h.2, Ne.symm h.1]

theorem enclosingScopes_of_not_mem {scope : String} (h : '.' ∉ scope.toList) :
    enclosingScopes scope = [scope] := by
  simp [enclosingScopes, partsBeforeDots_of_not_mem h]

theorem enclosingScopes_of_cutsTo {scope outer : String} (h : CutsTo scope outer) :
    enclosingScopes scope = scope :: enclosingScopes outer := by
  obtain ⟨last, hscope, hlast⟩ := cutsTo_iff.1 h
  have hparts : partsBeforeDots scope.toList = partsBeforeDots outer.toList ++ [outer.toList] := by
    rw [hscope, partsBeforeDots_append]
    simp [partsBeforeDots, partsBeforeDots_of_not_mem hlast]
  simp [enclosingScopes, hparts]

theorem mem_enclosingScopes_iff {outer scope : String} :
    outer ∈ enclosingScopes scope ↔ IsAround outer scope := by
  induction scope using scope_induction with
  | outermost scope hdot =>
    rw [enclosingScopes_of_not_mem hdot, List.mem_singleton, IsAround,
      Relation.ReflTransGen.cases_head_iff]
    refine ⟨fun h => .inl h.symm, ?_⟩
    rintro (h | ⟨next, hcut, -⟩)
    · exact h.symm
    · exact absurd hcut (not_cutsTo hdot next)
  | cut scope next hcut ih =>
    rw [enclosingScopes_of_cutsTo hcut, List.mem_cons, ih, IsAround, IsAround,
      Relation.ReflTransGen.cases_head_iff (a := scope)]
    refine or_congr eq_comm ⟨fun h => ⟨next, hcut, h⟩, ?_⟩
    rintro ⟨other, hother, h⟩
    exact hcut.eq hother ▸ h

/-! ### Their lengths -/

theorem IsAround.isPrefix {outer scope : String} (h : IsAround outer scope) :
    outer.toList <+: scope.toList := by
  induction h with
  | refl => exact List.prefix_refl _
  | tail _ hcut ih =>
    obtain ⟨last, hscope, -⟩ := cutsTo_iff.1 hcut
    exact (hscope ▸ List.prefix_append _ _ : _ <+: _).trans ih

theorem IsAround.length_le {outer scope : String} (h : IsAround outer scope) :
    outer.length ≤ scope.length := by
  rw [← String.length_toList, ← String.length_toList]
  exact h.isPrefix.length_le

theorem pairwise_enclosingScopes (scope : String) :
    (enclosingScopes scope).Pairwise fun inner outer => outer.length < inner.length := by
  induction scope using scope_induction with
  | outermost scope hdot =>
    rw [enclosingScopes_of_not_mem hdot]
    exact List.pairwise_singleton _ _
  | cut scope outer hcut ih =>
    rw [enclosingScopes_of_cutsTo hcut]
    refine List.pairwise_cons.2 ⟨fun other hother => ?_, ih⟩
    exact Nat.lt_of_le_of_lt (mem_enclosingScopes_iff.1 hother).length_le hcut.length_lt

/-- The outermost scope has no dot; around a full name it is the empty one. -/
theorem exists_outermost (scope : String) :
    ∃ outermost, IsAround outermost scope ∧ '.' ∉ outermost.toList ∧
      (IsAbsolute scope → outermost = "") := by
  have houtermost : ∃ outermost, IsAround outermost scope ∧ '.' ∉ outermost.toList := by
    induction scope using scope_induction with
    | outermost scope hdot => exact ⟨scope, .refl, hdot⟩
    | cut scope outer hcut ih =>
      obtain ⟨outermost, haround, hdot⟩ := ih
      exact ⟨outermost, .head hcut haround, hdot⟩
  obtain ⟨outermost, haround, hdot⟩ := houtermost
  refine ⟨outermost, haround, hdot, fun ⟨rest, hrest⟩ => ?_⟩
  have hprefix := haround.isPrefix
  rw [hrest] at hprefix
  cases hchars : outermost.toList with
  | nil => simpa using hchars
  | cons c more =>
    rw [hchars] at hprefix hdot
    obtain ⟨rfl, -⟩ := List.cons_prefix_cons.1 hprefix
    exact absurd List.mem_cons_self hdot

/-! ## Looking up -/

theorem candidateNames_of_isAbsolute {name : String} (h : IsAbsolute name) (scope : String) :
    candidateNames name scope = [name] := by
  obtain ⟨rest, hrest⟩ := h
  simp only [candidateNames, hrest]

theorem candidateNames_of_not_isAbsolute {name : String} (h : ¬IsAbsolute name) (scope : String) :
    candidateNames name scope = (enclosingScopes scope).map (· ++ "." ++ name) := by
  unfold candidateNames
  split
  · next rest hrest => exact absurd ⟨rest, hrest⟩ h
  · rfl

namespace TypeIndex

variable {index : TypeIndex} {name scope : String}

/-- A relative name looked up from a scope outwards: the first type found counts, and there is none
where no dot is left to cut at. -/
inductive Walk (index : TypeIndex) (name : String) : String → Option TypeEntry → Prop
  | found {scope : String} {entry : TypeEntry} :
    index.lookup? (scope ++ "." ++ name) = some entry →
    Walk index name scope (some entry)
  | outwards {scope outer : String} {result : Option TypeEntry} :
    index.lookup? (scope ++ "." ++ name) = none →
    CutsTo scope outer →
    Walk index name outer result →
    Walk index name scope result
  | ended {scope : String} :
    index.lookup? (scope ++ "." ++ name) = none →
    '.' ∉ scope.toList →
    Walk index name scope none

theorem find?_of_isAbsolute (h : IsAbsolute name) :
    index.find? name scope = index.lookup? name := by
  rw [find?, candidateNames_of_isAbsolute h, List.findSome?_singleton]

theorem find?_eq_findSome? (h : ¬IsAbsolute name) :
    index.find? name scope =
      (enclosingScopes scope).findSome? fun outer => index.lookup? (outer ++ "." ++ name) := by
  rw [find?, candidateNames_of_not_isAbsolute h, List.findSome?_map]
  rfl

/-- The walk outwards ends, and `find?` tells where. -/
theorem walk_find? (h : ¬IsAbsolute name) : index.Walk name scope (index.find? name scope) := by
  rw [find?_eq_findSome? h]
  induction scope using scope_induction with
  | outermost scope hdot =>
    rw [enclosingScopes_of_not_mem hdot, List.findSome?_singleton]
    cases hlookup : index.lookup? (scope ++ "." ++ name) with
    | none => exact .ended hlookup hdot
    | some entry => exact .found hlookup
  | cut scope outer hcut ih =>
    rw [enclosingScopes_of_cutsTo hcut, List.findSome?_cons]
    cases hlookup : index.lookup? (scope ++ "." ++ name) with
    | none => exact .outwards hlookup hcut ih
    | some entry => exact .found hlookup

theorem Walk.eq {a b : Option TypeEntry} (ha : index.Walk name scope a)
    (hb : index.Walk name scope b) : a = b := by
  induction ha with
  | found hfound =>
    cases hb with
    | found h => exact hfound.symm.trans h
    | outwards h => cases hfound.symm.trans h
    | ended h => cases hfound.symm.trans h
  | outwards hnone hcut _ ih =>
    cases hb with
    | found h => cases hnone.symm.trans h
    | outwards _ hother hrest => exact ih (hcut.eq hother ▸ hrest)
    | ended _ hdot => exact absurd hcut (not_cutsTo hdot _)
  | ended hnone hdot =>
    cases hb with
    | found h => cases hnone.symm.trans h
    | outwards _ hcut => exact absurd hcut (not_cutsTo hdot _)
    | ended => rfl

theorem find?_eq_some_iff (h : ¬IsAbsolute name) {entry : TypeEntry} :
    index.find? name scope = some entry ↔
      ∃ outer, IsAround outer scope ∧ index.lookup? (outer ++ "." ++ name) = some entry ∧
        ∀ inner, IsAround inner scope → outer.length < inner.length →
          index.lookup? (inner ++ "." ++ name) = none := by
  have hlengths := pairwise_enclosingScopes scope
  simp only [← mem_enclosingScopes_iff]
  rw [find?_eq_findSome? h, List.findSome?_eq_some_iff]
  constructor
  · rintro ⟨before, outer, after, hsplit, hfound, hbefore⟩
    rw [hsplit] at hlengths ⊢
    refine ⟨outer, by simp, hfound, fun inner hinner hlt => ?_⟩
    obtain ⟨hafter, -⟩ := List.pairwise_cons.1 (List.pairwise_append.1 hlengths).2.1
    rcases List.mem_append.1 hinner with hinner | hinner
    · exact hbefore inner hinner
    · rcases List.mem_cons.1 hinner with rfl | hinner
      · exact absurd hlt (Nat.lt_irrefl _)
      · exact absurd hlt (Nat.lt_asymm (hafter inner hinner))
  · rintro ⟨outer, houter, hfound, hinner⟩
    obtain ⟨before, after, hsplit⟩ := List.append_of_mem houter
    refine ⟨before, outer, after, hsplit, hfound, fun inner hbefore => ?_⟩
    rw [hsplit] at hlengths hinner
    exact hinner inner (List.mem_append_left _ hbefore)
      ((List.pairwise_append.1 hlengths).2.2 inner hbefore outer List.mem_cons_self)

theorem find?_eq_none_iff (h : ¬IsAbsolute name) :
    index.find? name scope = none ↔
      ∀ outer, IsAround outer scope → index.lookup? (outer ++ "." ++ name) = none := by
  rw [find?_eq_findSome? h, List.findSome?_eq_none_iff]
  simp only [mem_enclosingScopes_iff]

/-! ## Expecting a kind of type -/

theorem reference_eq_found_iff {kind : TypeKind} {entry : TypeEntry} :
    index.reference name scope kind = .found entry ↔
      index.find? name scope = some entry ∧ entry.kind = kind := by
  cases hfind : index.find? name scope with
  | none => simp [reference, hfind]
  | some found => grind [reference]

theorem reference_eq_mismatch_iff {kind : TypeKind} {entry : TypeEntry} :
    index.reference name scope kind = .mismatch entry ↔
      index.find? name scope = some entry ∧ entry.kind ≠ kind := by
  cases hfind : index.find? name scope with
  | none => simp [reference, hfind]
  | some found => grind [reference]

theorem reference_eq_notFound_iff {kind : TypeKind} :
    index.reference name scope kind = .notFound ↔ index.find? name scope = none := by
  cases hfind : index.find? name scope with
  | none => simp [reference, hfind]
  | some found => grind [reference]

theorem expect_eq_ok_iff {kind : TypeKind} {entry : TypeEntry} :
    index.expect name scope kind = .ok entry ↔
      index.find? name scope = some entry ∧ entry.kind = kind := by
  rw [← reference_eq_found_iff, expect]
  cases index.reference name scope kind <;> simp

/-- A name that is refused refers to nothing or to a type of the other kind. -/
theorem expect_eq_error_iff {kind : TypeKind} {refusal : Refusal} :
    index.expect name scope kind = .error refusal ↔
      (index.find? name scope = none ∧ refusal = .notFound kind name scope) ∨
        ∃ entry, (index.find? name scope = some entry ∧ entry.kind ≠ kind) ∧
          refusal = .mismatch kind name entry := by
  rw [← @reference_eq_notFound_iff index name scope kind]
  simp only [← reference_eq_mismatch_iff]
  unfold expect
  cases index.reference name scope kind <;> simp [eq_comm]

/-- **The innermost scope with a type decides.** A full name refers to the type of that name. A
relative name is looked up from its scope outwards, which ends, after the outermost scope at the
latest: it refers to the type under the longest of the scopes around it that have one, and to
nothing exactly if none has. That type alone is compared with the kind expected; where it is of the
other kind, no scope further out is asked. -/
theorem find?_innermost (index : TypeIndex) (name scope : String) :
    (IsAbsolute name → index.find? name scope = index.lookup? name) ∧
      (¬IsAbsolute name →
        (∀ result, index.Walk name scope result ↔ result = index.find? name scope) ∧
        (∀ entry, index.find? name scope = some entry ↔
          ∃ outer, IsAround outer scope ∧ index.lookup? (outer ++ "." ++ name) = some entry ∧
            ∀ inner, IsAround inner scope → outer.length < inner.length →
              index.lookup? (inner ++ "." ++ name) = none) ∧
        (index.find? name scope = none ↔
          ∀ outer, IsAround outer scope → index.lookup? (outer ++ "." ++ name) = none)) ∧
      (∃ outermost, IsAround outermost scope ∧ '.' ∉ outermost.toList ∧
        (IsAbsolute scope → outermost = "")) ∧
      ∀ kind,
        (∀ entry, index.reference name scope kind = .found entry ↔
          index.find? name scope = some entry ∧ entry.kind = kind) ∧
        (∀ entry, index.reference name scope kind = .mismatch entry ↔
          index.find? name scope = some entry ∧ entry.kind ≠ kind) ∧
        (index.reference name scope kind = .notFound ↔ index.find? name scope = none) := by
  refine ⟨find?_of_isAbsolute, fun hname => ⟨fun result => ⟨fun hwalk => ?_, ?_⟩, ?_, ?_⟩,
    exists_outermost scope, fun kind => ⟨?_, ?_, ?_⟩⟩
  · exact hwalk.eq (walk_find? hname)
  · rintro rfl
    exact walk_find? hname
  · exact fun entry => find?_eq_some_iff hname
  · exact find?_eq_none_iff hname
  · exact fun entry => reference_eq_found_iff
  · exact fun entry => reference_eq_mismatch_iff
  · exact reference_eq_notFound_iff

/-- The message `.M`. -/
def outerMessage : TypeEntry where
  kind := .message
  type := ⟨{ name := "x.proto", package := "" }, ["M"]⟩
  declaredIn := "x.json"
  path := "$.messageTypes[0]"

/-- The enum `.a.M`. -/
def innerEnum : TypeEntry where
  kind := .enum
  type := ⟨{ name := "y.proto", package := "a" }, ["M"]⟩
  declaredIn := "y.json"
  path := "$.enumTypes[0]"

/-- An index of these two. -/
def hiddenMessage : TypeIndex where
  types := [(".M", outerMessage), (".a.M", innerEnum)]

/-- Where a message is expected, an enum further in still hides the message further out. -/
theorem find?_innermost_hiddenMessage :
    ¬IsAbsolute "M" ∧ IsAround "" ".a.b" ∧
      hiddenMessage.lookup? ("" ++ "." ++ "M") = some outerMessage ∧
      hiddenMessage.Walk "M" ".a.b" (some innerEnum) ∧
      hiddenMessage.find? "M" ".a.b" = some innerEnum ∧
      hiddenMessage.reference "M" ".a.b" .message = .mismatch innerEnum := by
  have hname : ¬IsAbsolute "M" := by
    rintro ⟨rest, hrest⟩
    simp at hrest
  obtain ⟨-, hrelative, -, hkind⟩ := hiddenMessage.find?_innermost "M" ".a.b"
  obtain ⟨hwalk, hfound, -⟩ := hrelative hname
  have hinner : ∀ inner ∈ enclosingScopes ".a.b", ".a".length < inner.length →
      hiddenMessage.lookup? (inner ++ "." ++ "M") = none := by decide +kernel
  have hfind : hiddenMessage.find? "M" ".a.b" = some innerEnum :=
    (hfound innerEnum).2 ⟨".a", mem_enclosingScopes_iff.1 (by decide +kernel), by decide +kernel,
      fun inner haround => hinner inner (mem_enclosingScopes_iff.2 haround)⟩
  exact ⟨hname, mem_enclosingScopes_iff.1 (by decide +kernel), by decide +kernel,
    (hwalk _).2 hfind.symm, hfind, ((hkind .message).2.1 innerEnum).2 ⟨hfind, by decide⟩⟩

end TypeIndex

end ProtoExtensions
