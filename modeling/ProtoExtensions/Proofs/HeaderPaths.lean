import ProtoExtensions.Lowering.Emission

/-!
Which header declares a class, as rules: a mapping of the class counts before all else, and the
directory of any other header follows the package, the style, and whether the package belongs to the
platform (`HeaderMap.Declares`, `HeaderMap.headerFor_followsRules`). A package belongs to the
platform where one of the listed packages is its beginning, name by name (`isPlatformPackage_iff`).
So all that is nested in a platform package belongs to the platform, and more letters behind the
last name of a package bring it in only as a listed package.
-/

namespace ProtoExtensions

/-! ## Platform packages -/

/-- Whether a package is nested in another one, at any depth. Dots in front of it do not count. -/
def LiesInside (package outer : String) : Prop :=
  ∃ inner, withoutLeadingDots package = outer ++ "." ++ inner

/-- Whether a package belongs to the platform: but for dots in front of it, it is a listed package,
or nested in one. -/
def InPlatform (package : String) : Prop :=
  ∃ listed ∈ platformPackages, withoutLeadingDots package = listed ∨ LiesInside package listed

theorem isListedPackage_iff {package : List Char} :
    isListedPackage package = true ↔ String.ofList package ∈ platformPackages := by
  rw [isListedPackage, List.contains_iff_mem]

/-- The walk down through the names of a package finds a listed package exactly if one lies on the
way. The first name is not empty, so that every name on the way gets its dot. -/
theorem reachesPlatform_iff {before segments : List (List Char)}
    (h : ∀ first ∈ (before ++ segments).head?, first ≠ []) :
    reachesPlatform (joinWith '.' before) segments = true ↔
      ∃ front, front ≠ [] ∧ front <+: segments ∧
        isListedPackage (joinWith '.' (before ++ front)) = true := by
  induction segments generalizing before with
  | nil =>
    refine iff_of_false (by simp [reachesPlatform]) ?_
    rintro ⟨front, hne, hfront, -⟩
    exact hne (List.prefix_nil.1 hfront)
  | cons segment rest ih =>
    have hpackage : (if (joinWith '.' before).isEmpty then segment
        else joinWith '.' before ++ '.' :: segment) = joinWith '.' (before ++ [segment]) := by
      cases before with
      | nil => rfl
      | cons first more =>
        have hfirst : first ≠ [] := h first (by simp)
        have hne : (joinWith '.' (first :: more)).isEmpty = false := by
          cases more <;> simp [joinWith, hfirst]
        rw [if_neg (by simp [hne]), joinWith_append '.' (List.cons_ne_nil _ _) (by simp)]
        rfl
    have hmore : ∀ first ∈ ((before ++ [segment]) ++ rest).head?, first ≠ [] := by
      simpa only [List.append_assoc, List.singleton_append] using h
    simp only [reachesPlatform, hpackage, Bool.or_eq_true, ih hmore, List.append_assoc,
      List.singleton_append]
    constructor
    · rintro (hlisted | ⟨front, -, hfront, hlisted⟩)
      · exact ⟨[segment], by simp, by simp, hlisted⟩
      · exact ⟨segment :: front, by simp, by simpa using hfront, hlisted⟩
    · rintro ⟨front, hne, hfront, hlisted⟩
      cases front with
      | nil => exact absurd rfl hne
      | cons first more =>
        obtain ⟨rfl, hprefix⟩ := List.cons_prefix_cons.1 hfront
        by_cases hmore : more = []
        · subst hmore
          exact .inl hlisted
        · exact .inr ⟨more, hmore, hprefix, hlisted⟩

theorem reachesPlatform_dropWhile (text : List Char) :
    reachesPlatform [] (split '.' (text.dropWhile (· == '.'))) =
      reachesPlatform [] (split '.' text) := by
  induction text with
  | nil => rfl
  | cons c rest ih =>
    by_cases hc : c = '.'
    · subst hc
      have hempty : isListedPackage [] = false := by decide +kernel
      rw [List.dropWhile_cons_of_pos rfl, ih, split, if_pos rfl, reachesPlatform]
      simp [hempty]
    · rw [List.dropWhile_cons_of_neg (by simpa using hc)]

theorem head?_dropWhile_ne (text : List Char) :
    (text.dropWhile (· == '.')).head? ≠ some '.' := by
  intro hdot
  have hdropped := List.head?_dropWhile_not (· == '.') text
  rw [hdot] at hdropped
  simp at hdropped

/-- The names of a package lead into the platform exactly if those of a listed package come first
among them. -/
theorem reachesPlatform_split_iff {text : List Char} (h : text.head? ≠ some '.') :
    reachesPlatform [] (split '.' text) = true ↔
      ∃ listed ∈ platformPackages, split '.' listed.toList <+: split '.' text := by
  by_cases hempty : text = []
  · subst hempty
    decide +kernel
  · have hfirst : ∀ first ∈ ([] ++ split '.' text).head?, first ≠ [] := by
      obtain ⟨c, rest, rfl⟩ := List.exists_cons_of_ne_nil hempty
      have hc : c ≠ '.' := by simpa using h
      rw [List.nil_append, split, if_neg hc]
      split <;> simp
    refine (reachesPlatform_iff hfirst).trans ⟨?_, ?_⟩
    · rintro ⟨front, hne, hfront, hlisted⟩
      rw [isListedPackage_iff] at hlisted
      refine ⟨_, hlisted, ?_⟩
      rwa [String.toList_ofList, List.nil_append, split_joinWith hne]
      exact fun piece hpiece => not_mem_of_mem_split (hfront.mem hpiece)
    · rintro ⟨listed, hlisted, hprefix⟩
      refine ⟨_, split_ne_nil '.' listed.toList, hprefix, ?_⟩
      rwa [List.nil_append, joinWith_split, isListedPackage_iff, String.ofList_toList]

/-- A package passes the test exactly if it is a listed package, or is nested in one. -/
theorem isPlatformPackage_iff {package : String} :
    isPlatformPackage package = true ↔ InPlatform package := by
  rw [isPlatformPackage, ← reachesPlatform_dropWhile,
    reachesPlatform_split_iff (head?_dropWhile_ne package.toList)]
  have hnames (listed : String) :
      split '.' listed.toList <+: split '.' (package.toList.dropWhile (· == '.')) ↔
        withoutLeadingDots package = listed ∨ LiesInside package listed := by
    rw [split_prefix_split_iff]
    refine or_congr ?_ ⟨?_, ?_⟩
    · rw [← String.toList_inj, withoutLeadingDots, String.toList_ofList]
    · rintro ⟨rest, hrest⟩
      exact ⟨String.ofList rest, by rw [withoutLeadingDots, hrest, ← String.toList_inj]; simp⟩
    · rintro ⟨inner, hinner⟩
      refine ⟨inner.toList, ?_⟩
      have hchars := congrArg String.toList hinner
      simpa [withoutLeadingDots] using hchars
  simp only [hnames]
  rfl

/-! ## Longer packages -/

theorem withoutLeadingDots_append (package more : String) :
    withoutLeadingDots (package ++ more) =
      if withoutLeadingDots package = "" then withoutLeadingDots more
      else withoutLeadingDots package ++ more := by
  have hempty : withoutLeadingDots package = "" ↔
      (package.toList.dropWhile (· == '.')).isEmpty = true := by
    rw [← String.toList_inj, withoutLeadingDots, String.toList_ofList, List.isEmpty_iff]
    rfl
  simp only [hempty]
  rw [withoutLeadingDots, String.toList_append, List.dropWhile_append]
  split
  · rfl
  · rw [← String.toList_inj, String.toList_append]
    simp only [withoutLeadingDots, String.toList_ofList]

theorem withoutLeadingDots_append_of_ne {package : String} (h : withoutLeadingDots package ≠ "")
    (more : String) :
    withoutLeadingDots (package ++ more) = withoutLeadingDots package ++ more := by
  rw [withoutLeadingDots_append, if_neg h]

theorem LiesInside.ne_empty {package outer : String} (h : LiesInside package outer) :
    withoutLeadingDots package ≠ "" := by
  obtain ⟨inner, hinner⟩ := h
  rw [hinner]
  simp

theorem LiesInside.append {package outer : String} (h : LiesInside package outer) (more : String) :
    LiesInside (package ++ more) outer := by
  have hne := h.ne_empty
  obtain ⟨inner, hinner⟩ := h
  exact ⟨inner ++ more, by rw [withoutLeadingDots_append_of_ne hne, hinner, String.append_assoc]⟩

theorem InPlatform.nested {package : String} (h : InPlatform package) (inner : String) :
    InPlatform (package ++ "." ++ inner) := by
  obtain ⟨listed, hlisted, heq | hinside⟩ := h
  · have hempty : "" ∉ platformPackages := by decide +kernel
    have hne : withoutLeadingDots package ≠ "" := by
      rw [heq]
      rintro rfl
      exact hempty hlisted
    refine ⟨listed, hlisted, .inr ⟨inner, ?_⟩⟩
    rw [String.append_assoc, withoutLeadingDots_append_of_ne hne, heq, String.append_assoc]
  · rw [String.append_assoc]
    exact ⟨listed, hlisted, .inr (hinside.append _)⟩

/-- More letters behind the last name of a package do not nest it any deeper. -/
theorem liesInside_append_iff {more : String} (h : '.' ∉ more.toList) {package outer : String} :
    LiesInside (package ++ more) outer ↔ LiesInside package outer := by
  refine ⟨?_, fun hinside => hinside.append more⟩
  rintro ⟨inner, hinner⟩
  by_cases hempty : withoutLeadingDots package = ""
  · rw [withoutLeadingDots_append, if_pos hempty] at hinner
    have hchars : more.toList.dropWhile (· == '.') = outer.toList ++ '.' :: inner.toList := by
      simpa [withoutLeadingDots] using congrArg String.toList hinner
    have hdot : '.' ∈ more.toList.dropWhile (· == '.') := by simp [hchars]
    exact absurd ((List.dropWhile_suffix _).mem hdot) h
  · rw [withoutLeadingDots_append_of_ne hempty] at hinner
    have hchars : (withoutLeadingDots package).toList ++ more.toList =
        outer.toList ++ '.' :: inner.toList := by
      simpa using congrArg String.toList hinner
    obtain ⟨rest, -, hmore⟩ | ⟨rest, hpackage, hrest⟩ := List.append_eq_append_iff.1 hchars
    · rw [hmore] at h
      simp at h
    · cases rest with
      | nil =>
        rw [List.nil_append] at hrest
        exact absurd (hrest ▸ List.mem_cons_self) h
      | cons c rest =>
        obtain ⟨rfl, -⟩ := List.cons.inj hrest
        refine ⟨String.ofList rest, ?_⟩
        rw [← String.toList_inj, hpackage]
        simp

theorem inPlatform_append_iff {more : String} (h : '.' ∉ more.toList) {package : String} :
    InPlatform (package ++ more) ↔
      withoutLeadingDots (package ++ more) ∈ platformPackages ∨
        ∃ listed ∈ platformPackages, LiesInside package listed := by
  simp only [InPlatform, liesInside_append_iff h, and_or_left, exists_or, exists_eq_right']

/-! ## Headers -/

/-- A package with slashes for its dots. -/
def slashed (package : String) : String :=
  String.ofList (joinWith '/' (split '.' package.toList))

namespace HeaderMap

variable {map : HeaderMap} {package unit name header : String}

theorem mapped?_eq_some_iff :
    map.mapped? name = some header ↔ (name, header) ∈ map.mappings.entries :=
  SortedMap.lookup_eq_some_iff map.mappings.sorted

theorem mapped?_eq_none_iff : map.mapped? name = none ↔ name ∉ map.mappings.keys := by
  rw [Option.eq_none_iff_forall_ne_some, SortedMap.keys, List.mem_map]
  simp only [ne_eq, mapped?_eq_some_iff]
  constructor
  · rintro h ⟨⟨key, header⟩, hentry, rfl⟩
    exact h header hentry
  · exact fun h header hentry => h ⟨_, hentry, rfl⟩

/-- The header of a top-level class, by the rules: the one that its qualified name is mapped to, and
for a class without a mapping the one named after it. This lies in the directory of its package; it
lies in none if there is no package, or if the style is flat and the package does not belong to the
platform. -/
inductive Declares (map : HeaderMap) (package unit : String) : String → Prop where
  | mapped {header : String} (h : (qualifiedName package unit, header) ∈ map.mappings.entries) :
    Declares map package unit header
  | flat (h : qualifiedName package unit ∉ map.mappings.keys)
      (hflat : package = "" ∨ map.style = .none ∧ ¬InPlatform package) :
    Declares map package unit (unit ++ ".h")
  | nested (h : qualifiedName package unit ∉ map.mappings.keys) (hpackage : package ≠ "")
      (hstyle : map.style = .package ∨ InPlatform package) :
    Declares map package unit (slashed package ++ "/" ++ unit ++ ".h")

theorem outputDirectory_of_flat (h : package = "" ∨ map.style = .none ∧ ¬InPlatform package) :
    map.outputDirectory package = "" := by
  unfold outputDirectory styleFor
  rcases h with rfl | ⟨hstyle, hplatform⟩
  · rfl
  · rw [if_neg (mt isPlatformPackage_iff.1 hplatform), hstyle]
    exact ite_self _

theorem outputDirectory_of_nested (hpackage : package ≠ "")
    (h : map.style = .package ∨ InPlatform package) :
    map.outputDirectory package = slashed package ++ "/" := by
  have hstyle : map.styleFor package = .package := by
    unfold styleFor
    rcases h with h | h
    · rw [h, ite_self]
    · rw [if_pos (isPlatformPackage_iff.2 h)]
  rw [outputDirectory, if_neg hpackage, hstyle, slashed, joinWith_split_eq_map]

theorem headerFor_of_not_mem (h : qualifiedName package unit ∉ map.mappings.keys) :
    map.headerFor package unit = map.outputDirectory package ++ unit ++ ".h" := by
  rw [headerFor, mapped?_eq_none_iff.2 h]
  rfl

theorem Declares.eq (h : map.Declares package unit header) :
    map.headerFor package unit = header := by
  cases h with
  | mapped h => rw [headerFor, mapped?_eq_some_iff.2 h, Option.getD_some]
  | flat h hflat => rw [headerFor_of_not_mem h, outputDirectory_of_flat hflat, String.empty_append]
  | nested h hpackage hstyle =>
    rw [headerFor_of_not_mem h, outputDirectory_of_nested hpackage hstyle]

theorem exists_declares (map : HeaderMap) (package unit : String) :
    ∃ header, map.Declares package unit header := by
  cases hmapped : map.mapped? (qualifiedName package unit) with
  | some header => exact ⟨header, .mapped (mapped?_eq_some_iff.1 hmapped)⟩
  | none =>
    have hnot := mapped?_eq_none_iff.1 hmapped
    by_cases hpackage : package = ""
    · exact ⟨_, .flat hnot (.inl hpackage)⟩
    · by_cases hplatform : InPlatform package
      · exact ⟨_, .nested hnot hpackage (.inr hplatform)⟩
      · cases hstyle : map.style with
        | package => exact ⟨_, .nested hnot hpackage (.inl hstyle)⟩
        | none => exact ⟨_, .flat hnot (.inr ⟨hstyle, hplatform⟩)⟩

/-- **Headers follow the rules.** The header of a class is the one that mapping, package, style and
platform give it. A package passes the platform test exactly if, but for dots in front, it is listed
or nested in a listed package. So whatever is nested in a package that passes also passes, and a
package with more letters behind its last name passes exactly if it is a listed package with them,
or is nested in one already. -/
theorem headerFor_followsRules :
    (∀ (map : HeaderMap) (package unit header : String),
      map.headerFor package unit = header ↔ map.Declares package unit header) ∧
    (∀ package, isPlatformPackage package = true ↔ InPlatform package) ∧
    (∀ package inner, isPlatformPackage package = true →
      isPlatformPackage (package ++ "." ++ inner) = true) ∧
    ∀ package more, '.' ∉ more.toList →
      (isPlatformPackage (package ++ more) = true ↔
        withoutLeadingDots (package ++ more) ∈ platformPackages ∨
          ∃ listed ∈ platformPackages, LiesInside package listed) := by
  refine ⟨fun map package unit header => ⟨?_, Declares.eq⟩, fun _ => isPlatformPackage_iff, ?_, ?_⟩
  · rintro rfl
    obtain ⟨header, hheader⟩ := map.exists_declares package unit
    rwa [hheader.eq]
  · intro package inner hpackage
    exact isPlatformPackage_iff.2 ((isPlatformPackage_iff.1 hpackage).nested inner)
  · intro package more hmore
    rw [isPlatformPackage_iff, inPlatform_append_iff hmore]

/-- A flat map with one mapping. -/
def flatMap : HeaderMap :=
  ({ style := .none } : HeaderMap).put "java.List" "mapped/List.h"

/-- Under the flat style only what is nested in a listed package has a directory; a mapped class has
the header it is mapped to. -/
theorem headerFor_followsRules_flatMap :
    flatMap.headerFor "java" "List" = "mapped/List.h" ∧
    flatMap.headerFor ".java.util" "List" = "/java/util/List.h" ∧
    flatMap.headerFor "javafx.scene" "Node" = "Node.h" ∧
    isPlatformPackage "java" = true ∧ isPlatformPackage ("java" ++ "." ++ "util") = true ∧
    '.' ∉ "fx".toList ∧ isPlatformPackage ("java" ++ "fx") = false := by
  have hjava : isPlatformPackage "java" = true := by decide +kernel
  have hutil : InPlatform ".java.util" := ⟨"java", by decide, .inr ⟨"util", by decide +kernel⟩⟩
  have hfx : '.' ∉ "fx".toList := by decide
  have hlonger := headerFor_followsRules.2.2.2 "java" "fx" hfx
  have hjavafx : isPlatformPackage ("java" ++ "fx") = false := by
    rw [Bool.eq_false_iff, Ne, hlonger]
    rintro (hlisted | ⟨listed, -, inner, hinner⟩)
    · exact absurd hlisted (by decide +kernel)
    · have hdot : '.' ∈ (withoutLeadingDots "java").toList := by
        rw [hinner]
        simp
      exact absurd hdot (by decide +kernel)
  refine ⟨(headerFor_followsRules.1 _ _ _ _).2 (.mapped (by decide +kernel)),
    (headerFor_followsRules.1 _ _ _ _).2 (.nested (by decide +kernel) (by decide) (.inr hutil)),
    ?_, hjava, headerFor_followsRules.2.2.1 "java" "util" hjava, hfx, hjavafx⟩
  have hscene : ¬InPlatform "javafx.scene" := by
    rw [← isPlatformPackage_iff]
    decide +kernel
  exact (headerFor_followsRules.1 _ _ _ _).2 (.flat (by decide +kernel) (.inr ⟨rfl, hscene⟩))

end HeaderMap

end ProtoExtensions
