import ProtoExtensions.Proofs.CamelCase
import ProtoExtensions.Proofs.GenerationResult

/-!
Which classes have one name, and which have one header. An outer class whose name is inferred is
kept apart from the types of its file by one suffix. It is a type's class only where a file for
multiple files has types both of the name without the suffix and of the name with it
(`TypeRef.outerClassName_eq_className_iff`). The class of a type or of a scope is named after its
unit (`NamesInUnit`), and what a header map records for one unit leaves the headers of all other
units alone (`HeaderMap.headerFor_put`).
-/

namespace ProtoExtensions

/-! ## Inferred outer classes -/

namespace ProtoFile

/-- The file's own name in camel case. The outer class is named after it. -/
def camelName (file : ProtoFile) : String :=
  camelCase file.baseName true

variable {file : ProtoFile}

theorem outerClass_of_inferred (h : file.outerClassname = none) :
    file.outerClass =
      if file.camelName ∈ file.topLevelTypes then file.camelName ++ "OuterClass"
      else file.camelName := by
  rw [outerClass, h, Option.getD_none, inferredOuterClass]
  simp only [List.contains_iff_mem]
  rfl

theorem underscore_not_mem_outerClass (h : file.outerClassname = none) :
    '_' ∉ file.outerClass.toList := by
  rw [outerClass, h, Option.getD_none]
  exact fun hc => absurd (isAlphanum_of_mem_inferredOuterClass hc) (by decide)

/-- An inferred outer class has the name of a type only where the suffix has led to it. -/
theorem outerClass_eq_iff (h : file.outerClassname = none) {name : String}
    (hname : name ∈ file.topLevelTypes) :
    file.outerClass = name ↔
      file.camelName ∈ file.topLevelTypes ∧ name = file.camelName ++ "OuterClass" := by
  rw [outerClass_of_inferred h]
  by_cases htaken : file.camelName ∈ file.topLevelTypes
  · rw [if_pos htaken, and_iff_right htaken, eq_comm]
  · rw [if_neg htaken]
    refine iff_of_false ?_ fun h => htaken h.1
    rintro rfl
    exact htaken hname

end ProtoFile

namespace TypeRef

variable {type : TypeRef}

theorem className_ne_outerClassName (h : type.file.multipleFiles = false) :
    type.file.outerClassName ≠ type.className := by
  intro heq
  have hlength := congrArg String.length heq
  simp only [className, h, Bool.false_eq_true, if_false, String.length_append,
    show "_".length = 1 from rfl] at hlength
  omega

theorem outerClass_eq_intercalate_iff (hinferred : type.file.outerClassname = none)
    (hdeclared : type.topLevelName ∈ type.file.topLevelTypes) :
    type.file.outerClass = "_".intercalate type.path ↔
      type.file.camelName ∈ type.file.topLevelTypes ∧
        type.path = [type.file.camelName ++ "OuterClass"] := by
  obtain ⟨file, path⟩ := type
  have hname := ProtoFile.outerClass_eq_iff hinferred hdeclared
  match path with
  | [] =>
    -- without names the class is as if the one name were empty, and no outer class has this name
    refine iff_of_false (fun heq => ?_) (by simp)
    have hempty : file.camelName ++ "OuterClass" = "" := (hname.1 heq).2.symm
    simp at hempty
  | [name] =>
    rw [String.intercalate_singleton, List.singleton_inj]
    exact hname
  | name :: next :: rest =>
    refine iff_of_false (fun heq => ?_) (by simp)
    refine ProtoFile.underscore_not_mem_outerClass hinferred ?_
    rw [heq, String.intercalate_cons_cons]
    simp

/-- **An inferred outer class is a type's class in one case only.** A type of the file, nested or
not, has the class of the outer class exactly if the file is one for multiple files, has a top-level
type with the file's own name in camel case, and the type is the top-level one with this name and
the suffix that then stands behind it. -/
theorem outerClassName_eq_className_iff (type : TypeRef)
    (hinferred : type.file.outerClassname = none)
    (hdeclared : type.topLevelName ∈ type.file.topLevelTypes) :
    type.file.outerClassName = type.className ↔
      type.file.multipleFiles = true ∧ type.file.camelName ∈ type.file.topLevelTypes ∧
        type.path = [type.file.camelName ++ "OuterClass"] := by
  cases hfiles : type.file.multipleFiles with
  | false => exact iff_of_false (className_ne_outerClassName hfiles) (by simp)
  | true =>
    have hclass : type.className =
        classPrefix type.file.classPackage ++ "_".intercalate type.path := by
      rw [className, hfiles, if_pos rfl]
    rw [hclass, ProtoFile.outerClassName, String.append_right_inj, and_iff_right rfl]
    exact outerClass_eq_intercalate_iff hinferred hdeclared

end TypeRef

/-- A file for multiple files that uses up both names for its outer class. -/
def holderFile : ProtoFile where
  name := "foo/holder.proto"
  package := "foo"
  multipleFiles := true
  topLevelTypes := ["Holder", "HolderOuterClass"]

/-- One of its types has the class of the outer class, and the other one does not. -/
theorem outerClassName_eq_className_iff_holderFile :
    holderFile.outerClassname = none ∧
    "HolderOuterClass" ∈ holderFile.topLevelTypes ∧ "Holder" ∈ holderFile.topLevelTypes ∧
    holderFile.outerClassName = (TypeRef.mk holderFile ["HolderOuterClass"]).className ∧
    holderFile.outerClassName ≠ (TypeRef.mk holderFile ["Holder"]).className := by
  have hsuffixed : "HolderOuterClass" ∈ holderFile.topLevelTypes := by decide
  have hplain : "Holder" ∈ holderFile.topLevelTypes := by decide
  have hfirst :=
    TypeRef.outerClassName_eq_className_iff ⟨holderFile, ["HolderOuterClass"]⟩ rfl hsuffixed
  have hsecond := TypeRef.outerClassName_eq_className_iff ⟨holderFile, ["Holder"]⟩ rfl hplain
  refine ⟨rfl, hsuffixed, hplain, hfirst.2 (by decide +kernel), fun heq => ?_⟩
  exact absurd (hsecond.1 heq) (by decide +kernel)

/-- So an inferred outer class is not kept apart from every type of its file. -/
theorem not_forall_outerClassName_ne_className :
    ¬∀ file : ProtoFile, file.outerClassname = none → ∀ name ∈ file.topLevelTypes,
      file.outerClassName ≠ (TypeRef.mk file [name]).className := by
  intro h
  exact h holderFile rfl "HolderOuterClass" (by decide) (by decide +kernel)

/-! ## Classes in units -/

/-- Whether a class is named after a unit of a package: behind the class prefix and the name of the
unit there is nothing, or an underscore. -/
def NamesInUnit (package unit name : String) : Prop :=
  ∃ rest, name = classPrefix package ++ unit ++ rest ∧ (rest = "" ∨ ∃ inner, rest = "_" ++ inner)

theorem NamesInUnit.self (package unit : String) :
    NamesInUnit package unit (classPrefix package ++ unit) :=
  ⟨"", by rw [String.append_empty], .inl rfl⟩

namespace TypeRef

theorem intercalate_path (type : TypeRef) :
    "_".intercalate type.path = type.topLevelName ∨
      ∃ inner, "_".intercalate type.path = type.topLevelName ++ "_" ++ inner := by
  unfold topLevelName
  cases type.path with
  | nil => exact .inl rfl
  | cons name inner =>
    cases inner with
    | nil => exact .inl String.intercalate_singleton
    | cons next rest => exact .inr ⟨_, String.intercalate_cons_cons⟩

theorem namesInUnit_className (type : TypeRef) :
    NamesInUnit type.file.classPackage type.unitName type.className := by
  unfold className unitName
  cases type.file.multipleFiles with
  | false =>
    refine ⟨"_" ++ "_".intercalate type.path, ?_, .inr ⟨_, rfl⟩⟩
    simp only [Bool.false_eq_true, if_false, ProtoFile.outerClassName, String.append_assoc]
  | true =>
    simp only [if_true]
    obtain hpath | ⟨inner, hpath⟩ := type.intercalate_path
    · rw [hpath]
      exact .self _ _
    · exact ⟨"_" ++ inner, by rw [hpath]; simp only [String.append_assoc], .inr ⟨_, rfl⟩⟩

end TypeRef

theorem Scope.namesInUnit_className (scope : Scope) :
    NamesInUnit scope.declaringFile.classPackage scope.unitName scope.className := by
  cases scope with
  | file f => exact .self _ _
  | message type => exact type.namesInUnit_className

/-! ## Headers recorded for units -/

namespace HeaderMap

variable {package package' unit unit' : String}

/-- A header that is recorded for a unit is the header of this unit, and of no other. -/
theorem headerFor_put (hunit : '.' ∉ unit.toList) (hunit' : '.' ∉ unit'.toList)
    (headers : HeaderMap) (header : String) :
    (headers.put (qualifiedName package unit) header).headerFor package' unit' =
      if package' = package ∧ unit' = unit then header else headers.headerFor package' unit' := by
  have hname : qualifiedName package' unit' = qualifiedName package unit ↔
      package' = package ∧ unit' = unit := qualifiedName_inj hunit' hunit
  by_cases hsame : package' = package ∧ unit' = unit
  · obtain ⟨rfl, rfl⟩ := hsame
    rw [if_pos ⟨rfl, rfl⟩, headerFor, mapped?_put_self, Option.getD_some]
  · rw [if_neg hsame, headerFor, mapped?_put_other (mt hname.1 hsame), outputPath_put, headerFor]

/-- After the headers of some classes are recorded, a unit has the header of the last class that is
this unit; any other unit has the header it had before. -/
theorem headerFor_record (hunit' : '.' ∉ unit'.toList) {classes : List OuterClass}
    (hclasses : ∀ c ∈ classes, '.' ∉ c.file.outerClass.toList) (headers : HeaderMap) :
    (Generator.record headers classes).headerFor package' unit' =
      ((classes.reverse.find? fun c =>
        c.file.classPackage = package' ∧ c.file.outerClass = unit').map OuterClass.headerPath).getD
          (headers.headerFor package' unit') := by
  induction classes generalizing headers with
  | nil => rfl
  | cons c rest ih =>
    obtain ⟨hc, hrest⟩ := List.forall_mem_cons.1 hclasses
    have hrecord : Generator.record headers (c :: rest) =
        Generator.record (headers.put (qualifiedName c.file.classPackage c.file.outerClass)
          c.headerPath) rest := rfl
    rw [hrecord, ih hrest, headerFor_put hc hunit', List.reverse_cons, List.find?_append,
      Option.map_or, Option.getD_or]
    congr 1
    by_cases hsame : c.file.classPackage = package' ∧ c.file.outerClass = unit'
    · obtain ⟨rfl, rfl⟩ := hsame
      simp
    · have hother : ¬(package' = c.file.classPackage ∧ unit' = c.file.outerClass) :=
        fun h => hsame ⟨h.1.symm, h.2.symm⟩
      rw [if_neg hother]
      simp [hsame]

end HeaderMap

/-- **Classes are named after their units, and headers are recorded for units.** The class of every
type and of every scope is named after its unit. Where no unit has a dot in its name, a header that
is recorded for a unit is the header of this unit and of no other; so, after all that a run records,
a unit has the header of the last class that is this unit, and all other units keep theirs. -/
theorem classes_namedAfterUnits :
    (∀ type : TypeRef, NamesInUnit type.file.classPackage type.unitName type.className) ∧
    (∀ scope : Scope, NamesInUnit scope.declaringFile.classPackage scope.unitName scope.className) ∧
    ∀ unit', '.' ∉ unit'.toList → ∀ (headers : HeaderMap) (package' : String),
      (∀ package unit header, '.' ∉ unit.toList →
        (headers.put (qualifiedName package unit) header).headerFor package' unit' =
          if package' = package ∧ unit' = unit then header
          else headers.headerFor package' unit') ∧
      ∀ classes : List OuterClass, (∀ c ∈ classes, '.' ∉ c.file.outerClass.toList) →
        (Generator.record headers classes).headerFor package' unit' =
          ((classes.reverse.find? fun c =>
            c.file.classPackage = package' ∧ c.file.outerClass = unit').map
              OuterClass.headerPath).getD (headers.headerFor package' unit') := by
  refine ⟨TypeRef.namesInUnit_className, Scope.namesInUnit_className, ?_⟩
  intro unit' hunit' headers package'
  refine ⟨fun package unit header hunit => ?_, fun classes hclasses => ?_⟩
  · exact HeaderMap.headerFor_put hunit hunit' headers header
  · exact HeaderMap.headerFor_record hunit' hclasses headers

/-- A nested message keeps the name of its unit in front, and headers that are recorded for other
units do not reach a class in a package that reads as one of them. -/
theorem classes_namedAfterUnits_nestedMessage :
    NamesInUnit "foo" "Holder" "FooHolder_Inner" ∧ NamesInUnit "foo" "HolderOuterClass"
      "FooHolderOuterClass" ∧
    '.' ∉ "B".toList ∧ '.' ∉ "C".toList ∧ '.' ∉ holderFile.outerClass.toList ∧
    (({} : HeaderMap).put (qualifiedName "a" "B") "x.h").headerFor "a" "B" = "x.h" ∧
    (({} : HeaderMap).put (qualifiedName "a" "B") "x.h").headerFor "a.B" "C" = "a/B/C.h" ∧
    (Generator.record {} [⟨holderFile, [], {}⟩]).headerFor "a.B" "C" = "a/B/C.h" := by
  have hb : '.' ∉ "B".toList := by decide
  have hc : '.' ∉ "C".toList := by decide
  have houter : '.' ∉ holderFile.outerClass.toList := by decide +kernel
  obtain ⟨htypes, hscopes, hheaders⟩ := classes_namedAfterUnits
  refine ⟨htypes ⟨holderFile, ["Holder", "Inner"]⟩, hscopes (.file holderFile), hb, hc, houter,
    ?_, ?_, ?_⟩
  · rw [(hheaders "B" hb {} "a").1 "a" "B" "x.h" hb]
    exact if_pos ⟨rfl, rfl⟩
  · rw [(hheaders "C" hc {} "a.B").1 "a" "B" "x.h" hb]
    decide +kernel
  · rw [(hheaders "C" hc {} "a.B").2 [⟨holderFile, [], {}⟩] (by simpa using houter)]
    decide +kernel

end ProtoExtensions
