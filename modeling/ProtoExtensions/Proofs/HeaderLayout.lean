import Mathlib.Data.List.Nodup
import ProtoExtensions.Proofs.SourceLayout
import ProtoExtensions.Text.Utf8

/-!
The lines of a header. A header is its banner, a guard, one line for each class that it introduces,
the interface of the outer class, the declarations of the extensions, and the end of the guard
(`OuterClass.adds_header`). The classes that it introduces are those that the declarations use, and
the registry that the interface uses: each has one line, in front of all declarations, and the lines
are sorted by the names of the classes (`OuterClass.headerText_introducesUsed`). Two things keep the
lines from a simpler rule. Where there is no extension, nothing uses the class of extensions, and no
line introduces it; and a line has a semicolon behind the name, which is greater than a digit, so of
two lines the lesser one may come later (`introducedClasses_exceptions`).
-/

namespace ProtoExtensions

open Printer

/-! ## Texts of whole lines -/

/-- The text that has some lines. -/
def textOfLines (lines : List String) : String :=
  String.join (lines.map (· ++ "\n"))

theorem textOfLines_cons (line : String) (lines : List String) :
    textOfLines (line :: lines) = line ++ "\n" ++ textOfLines lines := by
  rw [textOfLines, List.map_cons, String.join_cons, textOfLines]

theorem textOfLines_append (a b : List String) :
    textOfLines (a ++ b) = textOfLines a ++ textOfLines b := by
  rw [textOfLines, List.map_append, String.join_append, textOfLines, textOfLines]

theorem textOfLines_flatMap {α : Type} (items : List α) (lines : α → List String) :
    textOfLines (items.flatMap lines) =
      String.join (items.map fun item => textOfLines (lines item)) := by
  induction items with
  | nil => rfl
  | cons item items ih =>
    rw [List.flatMap_cons, textOfLines_append, ih, List.map_cons, String.join_cons]

theorem endsLine_textOfLines {lines : List String} (h : lines ≠ []) :
    EndsLine (textOfLines lines) := by
  have hlast : textOfLines [lines.getLast h] = lines.getLast h ++ "\n" := by
    rw [textOfLines_cons]
    exact String.append_empty
  rw [← List.dropLast_concat_getLast h, textOfLines_append, hlast]
  exact (endsLine_append rfl).append_left _

/-- Lines without breaks are found again in their text, whatever stands behind it. -/
theorem split_textOfLines_append {lines : List String} (h : ∀ line ∈ lines, '\n' ∉ line.toList)
    (rest : List Char) :
    split '\n' ((textOfLines lines).toList ++ rest) =
      lines.map String.toList ++ split '\n' rest := by
  induction lines with
  | nil => rfl
  | cons line lines ih =>
    rw [textOfLines_cons, String.toList_append, String.toList_append, List.append_assoc,
      List.append_assoc, show "\n".toList = ['\n'] from rfl, List.singleton_append, split_append,
      split_of_not_mem (h line List.mem_cons_self),
      ih fun other hother => h other (List.mem_cons_of_mem line hother)]
    rfl

theorem split_textOfLines {lines : List String} (h : ∀ line ∈ lines, '\n' ∉ line.toList) :
    split '\n' (textOfLines lines).toList = lines.map String.toList ++ [[]] := by
  rw [← List.append_nil (textOfLines lines).toList, split_textOfLines_append h]
  rfl

/-- They are found again as well between other lines. -/
theorem infix_split_textOfLines {front lines : List String} (hfront : front ≠ [])
    (h : ∀ line ∈ lines, '\n' ∉ line.toList) (back : List String) :
    lines.map String.toList <:+: split '\n' (textOfLines (front ++ lines ++ back)).toList := by
  obtain ⟨chars, hchars⟩ := endsLine_textOfLines hfront
  rw [textOfLines_append, textOfLines_append, String.toList_append, String.toList_append, hchars,
    List.append_assoc, List.append_assoc, List.singleton_append, split_append,
    split_textOfLines_append h, ← List.append_assoc]
  exact List.infix_append _ _ _

/-! ## Kinds of lines -/

/-- What a line that introduces a class starts with. -/
def classMark : List Char := ['@', 'c', 'l', 'a', 's', 's', ' ']

/-- What a line that exports a variable starts with. -/
def exportMark : List Char :=
  ['F', 'O', 'U', 'N', 'D', 'A', 'T', 'I', 'O', 'N', '_', 'E', 'X', 'P', 'O', 'R', 'T', ' ']

/-- Whether a line introduces a class. -/
def introducesClass (line : String) : Bool :=
  classMark.isPrefixOf line.toList

/-- Whether a line exports a variable. -/
def exportsVariable (line : String) : Bool :=
  exportMark.isPrefixOf line.toList

/-- Whether a line neither introduces a class nor exports a variable. -/
def IsPlain (line : String) : Prop :=
  introducesClass line = false ∧ exportsVariable line = false

/-- A line is plain by its first characters, whatever names follow. -/
theorem isPlain_of_toList {line : String} {chars : List Char} (h : line.toList = chars)
    (hclass : classMark.isPrefixOf chars = false) (hexport : exportMark.isPrefixOf chars = false) :
    IsPlain line := by
  rw [IsPlain, introducesClass, exportsVariable, h]
  exact ⟨hclass, hexport⟩

theorem isPlain_empty : IsPlain "" :=
  isPlain_of_toList String.toList_ofList rfl rfl

theorem filter_eq_nil_of_isPlain {lines : List String} (h : ∀ line ∈ lines, IsPlain line) :
    lines.filter introducesClass = [] ∧ lines.filter exportsVariable = [] := by
  rw [List.filter_eq_nil_iff, List.filter_eq_nil_iff]
  exact ⟨fun line hline => by simp [(h line hline).1], fun line hline => by simp [(h line hline).2]⟩

namespace LoweredField

variable (f : LoweredField)

/-- The exported declaration of the variable, with the classes that its type mentions. -/
def exportLine : String :=
  "FOUNDATION_EXPORT CGPGeneratedExtension<" ++ f.field.extendee.className ++ " *, " ++
    (if f.field.isRepeated then "NSArray<" ++ f.valueClass ++ " *>" else f.valueClass) ++ " *> *" ++
    f.field.variableName ++ (if f.field.deprecated then " __attribute__((deprecated))" else "") ++
    ";"

/-- The comment in front of the declaration. -/
def commentLine : String :=
  "/*! extend " ++ withoutLeadingDots f.field.extendee.fullName ++ " \x7b " ++
    f.field.cardinality.protoName ++ " " ++ f.valueTypeName ++ " " ++ f.field.name ++ " = " ++
    toString f.field.number.toNat ++ "; \x7d */"

/-- The lines that declare an extension. -/
def declarationLines : List String :=
  ["", f.commentLine, f.exportLine]

theorem textOfLines_declarationLines : textOfLines f.declarationLines = f.declarationText := by
  unfold declarationText variableType declarationLines commentLine exportLine textOfLines
  cases f.field.isRepeated <;> simp [← String.toList_inj]

end LoweredField

namespace OuterClass

variable (c : OuterClass)

/-- The line that introduces a class. -/
def classLine (name : String) : String :=
  "@class " ++ name ++ ";"

/-- The banner, the guard and the include that every header has. -/
def openingLines : List String :=
  ["// Generated by pbobjc.  DO NOT EDIT!", "// source: " ++ c.file.name, "",
   "#ifndef " ++ c.className ++ "_H", "#define " ++ c.className ++ "_H", "",
   "#include \"J2ObjC_header.h\"", ""]

/-- The interface of the outer class, with one method. -/
def interfaceLines (method : String) : List String :=
  ["", "@interface " ++ c.className ++ " : NSObject", "", method ++ ";", "", "@end", "",
   "J2OBJC_STATIC_INIT(" ++ c.className ++ ")"]

/-- The end of the guard. -/
def closingLines : List String :=
  ["", "#endif // " ++ c.className ++ "_H"]

/-- The lines behind those that introduce classes. -/
def bodyLines : List String :=
  c.interfaceLines registrationMethod ++ c.extensions.flatMap LoweredField.declarationLines ++
    c.closingLines

/-- The lines of the header, without their ends. A name with a line break in it stands in one of
them as a whole. -/
def headerLines : List String :=
  c.openingLines ++ c.forwardClasses.sorted.map classLine ++ c.bodyLines

/-! ## What the parts of a header add -/

theorem textOfLines_openingLines : textOfLines c.openingLines =
    "// Generated by pbobjc.  DO NOT EDIT!\n// source: " ++ c.file.name ++ "\n" ++
      ("\n#ifndef " ++ c.className ++ "_H\n#define " ++ c.className ++
        "_H\n\n#include \"J2ObjC_header.h\"\n\n") := by
  simp [openingLines, textOfLines, ← String.toList_inj]

theorem textOfLines_interfaceLines (method : String) :
    textOfLines (c.interfaceLines method) = "\n@interface " ++ c.className ++
      (" : NSObject\n\n" ++ method ++ ";\n\n@end\n\nJ2OBJC_STATIC_INIT(") ++ c.className ++
      ")\n" := by
  simp [interfaceLines, textOfLines, ← String.toList_inj]

theorem textOfLines_closingLines :
    textOfLines c.closingLines = "\n#endif // " ++ c.className ++ "_H\n" := by
  simp [closingLines, textOfLines, ← String.toList_inj]

theorem printsLines_guard : PrintsLines (fun p => p.print
    ("\n#ifndef $class$_H\n#define $class$_H\n\n#include \"J2ObjC_header.h\"\n\n")
    [("class", c.className)]) 0 fun _ =>
    "\n#ifndef " ++ c.className ++ "_H\n#define " ++ c.className ++
      "_H\n\n#include \"J2ObjC_header.h\"\n\n" :=
  .print (endsLine_append rfl) String.toList_ofList rfl

theorem printsLines_classLine (name : String) :
    PrintsLines (fun p => p.print "@class $class$;\n" [("class", name)]) 0 fun _ =>
      textOfLines [classLine name] := by
  have hline : textOfLines [classLine name] = "@class " ++ name ++ ";\n" := by
    simp [classLine, textOfLines, ← String.toList_inj]
  rw [hline]
  exact .print (endsLine_append rfl) String.toList_ofList rfl

theorem printsLines_interface {method : String} (h : '$' ∉ method.toList) :
    PrintsLines (fun p => p.print
      ("\n@interface $class$ : NSObject\n\n" ++ method ++
        ";\n\n@end\n\nJ2OBJC_STATIC_INIT($class$)\n") [("class", c.className)]) 0 fun _ =>
      "\n@interface " ++ c.className ++
        (" : NSObject\n\n" ++ method ++ ";\n\n@end\n\nJ2OBJC_STATIC_INIT(") ++
        c.className ++ ")\n" := by
  have hmiddle : '$' ∉
      (" : NSObject\n\n" ++ method ++ ";\n\n@end\n\nJ2OBJC_STATIC_INIT(").toList := by
    simp [String.toList_append, h]
  have hchars : ("\n@interface $class$ : NSObject\n\n" ++ method ++
      ";\n\n@end\n\nJ2OBJC_STATIC_INIT($class$)\n").toList =
      "\n@interface ".toList ++ '$' :: (['c', 'l', 'a', 's', 's'] ++ '$' ::
        ((" : NSObject\n\n" ++ method ++ ";\n\n@end\n\nJ2OBJC_STATIC_INIT(").toList ++
          '$' :: (['c', 'l', 'a', 's', 's'] ++ '$' :: ")\n".toList))) := by
    simp
  refine .print (endsLine_append rfl) hchars ?_
  rw [split_append, split_append, split_append, split_append, split_of_not_mem hmiddle]
  simp [split, Template.pieces?, Template.value?, Template.literal, Template.joined,
    ← String.toList_inj]

theorem printsLines_closing :
    PrintsLines (fun p => p.print "\n#endif // $class$_H\n" [("class", c.className)]) 0 fun _ =>
      "\n#endif // " ++ c.className ++ "_H\n" :=
  .print (endsLine_append rfl) String.toList_ofList rfl

theorem adds_header : Adds c.printHeader {} {} (textOfLines c.headerLines) := by
  have hholds : IndentStyle.standard.Holds 0 := IndentStyle.holds_zero _
  have hclasses : Adds (printLines "@class $class$;\n" "class" c.forwardClasses.sorted) {} {}
      (String.join (c.forwardClasses.sorted.map fun name => textOfLines [classLine name])) :=
    Adds.foldlM (fun name => (printsLines_classLine name).adds_fresh hholds) _
  have hdeclarations : Adds (c.printEach LoweredField.printDeclaration) {} {}
      (String.join (c.extensions.map LoweredField.declarationText)) :=
    c.adds_each fun f => f.printsLines_declaration.adds_fresh hholds
  have hheader : Adds c.printHeader {} {} _ := (c.printsLines_banner.adds_fresh hholds).bind <|
    (c.printsLines_guard.adds_fresh hholds).bind <| hclasses.bind <|
    ((c.printsLines_interface registrationMethod_line.1).adds_fresh hholds).bind <|
    hdeclarations.bind (c.printsLines_closing.adds_fresh hholds)
  have hlines : textOfLines (c.forwardClasses.sorted.map classLine) =
      String.join (c.forwardClasses.sorted.map fun name => textOfLines [classLine name]) := by
    rw [← textOfLines_flatMap, List.map_eq_flatMap]
  have hparts : textOfLines (c.extensions.flatMap LoweredField.declarationLines) =
      String.join (c.extensions.map LoweredField.declarationText) := by
    rw [textOfLines_flatMap]
    exact congrArg String.join
      (List.map_congr_left fun f _ => f.textOfLines_declarationLines)
  rw [headerLines, bodyLines, textOfLines_append, textOfLines_append, textOfLines_append,
    textOfLines_append, textOfLines_openingLines, hlines, textOfLines_interfaceLines, hparts,
    textOfLines_closingLines]
  simpa only [String.append_assoc] using hheader

theorem headerText_eq_textOfLines : c.headerText = .ok (textOfLines c.headerLines) :=
  c.adds_header.rendered_eq

/-! ## The classes that a header introduces -/

/-- The classes that the header uses: the one of registries in its interface, and in the declaration
of each extension the class of extensions, the extended class, and that of the values unless it is
`NSString`. -/
inductive Uses : String → Prop
  | registry : Uses "ComGoogleProtobufExtensionRegistryLite"
  | wrapper {f : LoweredField} (hf : f ∈ c.extensions) : Uses "CGPGeneratedExtension"
  | extendee {f : LoweredField} (hf : f ∈ c.extensions) : Uses f.field.extendee.className
  | value {f : LoweredField} (hf : f ∈ c.extensions) (hvalue : f.valueClass ≠ "NSString") :
      Uses f.valueClass

theorem Uses.mono {c d : OuterClass} (h : ∀ f ∈ c.extensions, f ∈ d.extensions) {name : String}
    (huses : c.Uses name) : d.Uses name := by
  cases huses with
  | registry => exact .registry
  | wrapper hf => exact .wrapper (h _ hf)
  | extendee hf => exact .extendee (h _ hf)
  | value hf hvalue => exact .value (h _ hf) hvalue

theorem mem_forwardClasses_iff {name : String} : name ∈ c.forwardClasses.names ↔ c.Uses name := by
  unfold forwardClasses LoweredField.forwardClasses
  simp only [NameSet.mem_insertAll, NameSet.mem_insert, NameSet.empty, List.not_mem_nil, false_or,
    List.mem_flatMap, List.mem_append, List.mem_cons, or_false]
  constructor
  · rintro (rfl | ⟨f, hf, (rfl | rfl) | hvalue⟩)
    · exact .registry
    · exact .wrapper hf
    · exact .extendee hf
    · by_cases hstring : f.valueClass = "NSString"
      · simp [hstring] at hvalue
      · rw [if_neg hstring, List.mem_singleton] at hvalue
        exact hvalue ▸ .value hf hstring
  · rintro (_ | hf | hf | ⟨hf, hvalue⟩)
    · exact .inl rfl
    · exact .inr ⟨_, hf, .inl (.inl rfl)⟩
    · exact .inr ⟨_, hf, .inl (.inr rfl)⟩
    · exact .inr ⟨_, hf, .inr (by rw [if_neg hvalue]; exact List.mem_singleton_self _)⟩

theorem isPlain_openingLines : ∀ line ∈ c.openingLines, IsPlain line := by
  simp only [openingLines, List.forall_mem_cons, List.not_mem_nil, false_imp_iff, forall_const,
    and_true, String.append_assoc]
  exact ⟨isPlain_of_toList String.toList_ofList rfl rfl,
    isPlain_of_toList (toList_append_of String.toList_ofList rfl) rfl rfl, isPlain_empty,
    isPlain_of_toList (toList_append_of String.toList_ofList rfl) rfl rfl,
    isPlain_of_toList (toList_append_of String.toList_ofList rfl) rfl rfl, isPlain_empty,
    isPlain_of_toList String.toList_ofList rfl rfl, isPlain_empty⟩

theorem isPlain_interfaceLines {method : String} (h : IsPlain (method ++ ";")) :
    ∀ line ∈ c.interfaceLines method, IsPlain line := by
  simp only [interfaceLines, List.forall_mem_cons, List.not_mem_nil, false_imp_iff, forall_const,
    and_true, String.append_assoc]
  exact ⟨isPlain_empty, isPlain_of_toList (toList_append_of String.toList_ofList rfl) rfl rfl,
    isPlain_empty, h, isPlain_empty, isPlain_of_toList String.toList_ofList rfl rfl, isPlain_empty,
    isPlain_of_toList (toList_append_of String.toList_ofList rfl) rfl rfl⟩

theorem isPlain_closingLines : ∀ line ∈ c.closingLines, IsPlain line := by
  simp only [closingLines, List.forall_mem_cons, List.not_mem_nil, false_imp_iff, forall_const,
    and_true, String.append_assoc]
  exact ⟨isPlain_empty, isPlain_of_toList (toList_append_of String.toList_ofList rfl) rfl rfl⟩

theorem isPlain_registrationMethod : IsPlain (registrationMethod ++ ";") := by
  unfold registrationMethod
  rw [String.append_assoc]
  exact isPlain_of_toList (toList_append_of String.toList_ofList rfl) rfl rfl

theorem introducesClass_classLine (name : String) :
    introducesClass (classLine name) = true ∧ exportsVariable (classLine name) = false := by
  unfold classLine introducesClass exportsVariable
  rw [String.append_assoc, toList_append_of String.toList_ofList rfl]
  exact ⟨rfl, rfl⟩

theorem exportsVariable_exportLine (f : LoweredField) :
    introducesClass f.exportLine = false ∧ exportsVariable f.exportLine = true := by
  unfold LoweredField.exportLine introducesClass exportsVariable
  simp only [String.append_assoc]
  rw [toList_append_of String.toList_ofList rfl]
  exact ⟨rfl, rfl⟩

theorem isPlain_commentLine (f : LoweredField) : IsPlain f.commentLine := by
  unfold LoweredField.commentLine
  simp only [String.append_assoc]
  exact isPlain_of_toList (toList_append_of String.toList_ofList rfl) rfl rfl

theorem filter_declarationLines (f : LoweredField) :
    f.declarationLines.filter introducesClass = [] ∧
    f.declarationLines.filter exportsVariable = [f.exportLine] := by
  have hplain : ∀ line ∈ ["", f.commentLine], IsPlain line := by
    simp only [List.forall_mem_cons, List.not_mem_nil, false_imp_iff, forall_const, and_true]
    exact ⟨isPlain_empty, isPlain_commentLine f⟩
  obtain ⟨hplainClass, hplainExport⟩ := filter_eq_nil_of_isPlain hplain
  obtain ⟨hclass, hexport⟩ := exportsVariable_exportLine f
  have hlines : f.declarationLines = ["", f.commentLine] ++ [f.exportLine] := rfl
  rw [hlines, List.filter_append, List.filter_append, hplainClass, hplainExport]
  simp [hclass, hexport]

/-- Behind the interface no line introduces a class, and the extensions export their variables. -/
theorem filter_bodyLines : c.bodyLines.filter introducesClass = [] ∧
    c.bodyLines.filter exportsVariable = c.extensions.map LoweredField.exportLine := by
  have hclasses : (c.extensions.flatMap LoweredField.declarationLines).filter introducesClass =
      [] := by
    rw [List.filter_flatMap, List.flatMap_eq_nil_iff]
    exact fun f _ => (filter_declarationLines f).1
  have hexports : (c.extensions.flatMap LoweredField.declarationLines).filter exportsVariable =
      c.extensions.map LoweredField.exportLine := by
    rw [List.filter_flatMap, List.map_eq_flatMap]
    exact congrArg (List.flatMap · c.extensions)
      (funext fun f => (filter_declarationLines f).2)
  have hinterface := filter_eq_nil_of_isPlain (c.isPlain_interfaceLines isPlain_registrationMethod)
  have hclosing := filter_eq_nil_of_isPlain c.isPlain_closingLines
  simp only [bodyLines, List.filter_append, hclasses, hexports, hinterface, hclosing,
    List.nil_append, List.append_nil, and_self]

theorem filter_frontLines :
    (c.openingLines ++ c.forwardClasses.sorted.map classLine).filter introducesClass =
      c.forwardClasses.sorted.map classLine ∧
    (c.openingLines ++ c.forwardClasses.sorted.map classLine).filter exportsVariable = [] := by
  obtain ⟨hopeningClass, hopeningExport⟩ := filter_eq_nil_of_isPlain c.isPlain_openingLines
  rw [List.filter_append, List.filter_append, hopeningClass, hopeningExport, List.nil_append,
    List.nil_append, List.filter_eq_self, List.filter_eq_nil_iff]
  exact ⟨List.forall_mem_map.2 fun name _ => (introducesClass_classLine name).1,
    List.forall_mem_map.2 fun name _ => by simp [introducesClass_classLine name]⟩

theorem filter_class_headerLines :
    c.headerLines.filter introducesClass = c.forwardClasses.sorted.map classLine := by
  rw [headerLines, List.filter_append, c.filter_frontLines.1, c.filter_bodyLines.1,
    List.append_nil]

theorem classLine_injective : Function.Injective classLine := by
  intro a b h
  simpa [classLine, ← String.toList_inj, String.toList_append] using h

theorem newline_not_mem_headerLines (hfile : '\n' ∉ c.file.name.toList)
    (hclass : '\n' ∉ c.className.toList)
    (hclasses : ∀ name ∈ c.forwardClasses.sorted, '\n' ∉ name.toList)
    (hdeclarations : ∀ f ∈ c.extensions, ∀ line ∈ f.declarationLines, '\n' ∉ line.toList) :
    ∀ line ∈ c.headerLines, '\n' ∉ line.toList := by
  have hopening : ∀ line ∈ c.openingLines, '\n' ∉ line.toList := by
    simp [openingLines, String.toList_append, hfile, hclass]
  have hinterface {method : String} (hmethod : '\n' ∉ method.toList) :
      ∀ line ∈ c.interfaceLines method, '\n' ∉ line.toList := by
    simp [interfaceLines, String.toList_append, hclass, hmethod]
  have hclosing : ∀ line ∈ c.closingLines, '\n' ∉ line.toList := by
    simp [closingLines, String.toList_append, hclass]
  have hlines : ∀ line ∈ c.forwardClasses.sorted.map classLine, '\n' ∉ line.toList := by
    refine List.forall_mem_map.2 fun name hname => ?_
    simp [classLine, String.toList_append, hclasses name hname]
  simp only [headerLines, bodyLines, List.forall_mem_append, List.forall_mem_flatMap]
  exact ⟨⟨hopening, hlines⟩, ⟨hinterface registrationMethod_line.2, hdeclarations⟩, hclosing⟩

theorem count_classLine {name : String} (h : name ∈ c.forwardClasses.names) :
    c.headerLines.count (classLine name) = 1 := by
  have hcount : c.headerLines.count (classLine name) =
      (c.headerLines.filter introducesClass).count (classLine name) :=
    (List.count_filter (introducesClass_classLine name).1).symm
  have hnodup : (c.forwardClasses.sorted.map classLine).Nodup :=
    ((List.mergeSort_perm _ _).nodup_iff.2 c.forwardClasses.nodup).map classLine_injective
  rw [hcount, c.filter_class_headerLines]
  exact List.count_eq_one_of_mem hnodup (List.mem_map_of_mem (NameSet.mem_sorted.2 h))

/-- **A header introduces the classes that it uses.** Every outer class has a header of whole lines,
and these are its physical lines where no name has a line break. The lines that export a variable
are those of the extensions. Each class that the header uses is introduced by one line, in front of
all lines that export a variable; no line introduces another class; and the names of the classes
are strictly sorted by their bytes, as are the lines themselves where all characters of the names
are greater than the semicolon behind them. -/
theorem headerText_introducesUsed :
    c.headerText = .ok (textOfLines c.headerLines) ∧
    ((∀ line ∈ c.headerLines, '\n' ∉ line.toList) →
      split '\n' (textOfLines c.headerLines).toList = c.headerLines.map String.toList ++ [[]]) ∧
    c.headerLines.filter exportsVariable =
      c.extensions.map LoweredField.exportLine ∧
    (∀ name, c.Uses name → c.headerLines.count (classLine name) = 1) ∧
    (∃ front back, c.headerLines = front ++ back ∧
      front.filter exportsVariable = [] ∧
      back.filter introducesClass = []) ∧
    ∃ classes : List String, c.headerLines.filter introducesClass = classes.map classLine ∧
      (∀ name ∈ classes, c.Uses name) ∧ classes.Pairwise BytesLt ∧
      ((∀ name ∈ classes, ∀ char ∈ name.toList, ';' < char) →
        (classes.map classLine).Pairwise BytesLt) := by
  have hexports : c.headerLines.filter exportsVariable =
      c.extensions.map LoweredField.exportLine := by
    rw [headerLines, List.filter_append, c.filter_frontLines.2, c.filter_bodyLines.2,
      List.nil_append]
  have hsorted : c.forwardClasses.sorted.Pairwise BytesLt :=
    c.forwardClasses.sorted_increasing.imp bytesLt_iff.2
  refine ⟨c.headerText_eq_textOfLines, split_textOfLines, hexports,
    fun name hname => c.count_classLine (c.mem_forwardClasses_iff.2 hname),
    ⟨_, _, rfl, c.filter_frontLines.2, c.filter_bodyLines.1⟩,
    c.forwardClasses.sorted, c.filter_class_headerLines,
    fun name hname => c.mem_forwardClasses_iff.1 (NameSet.mem_sorted.1 hname), hsorted,
    fun hchars => ?_⟩
  refine List.pairwise_map.2 (hsorted.imp_of_mem fun _ hb hlt => ?_)
  exact hlt.between "@class " rfl (hchars _ hb)

end OuterClass

/-- The outer class of a file without extensions. -/
def bareClass : OuterClass :=
  ⟨{ name := "x.proto", package := "" }, [], {}⟩

/-- A file with two messages, one of whose names starts with the other one. -/
def numberedFile : ProtoFile where
  name := "x.proto"
  package := ""
  topLevelTypes := ["M", "M1"]

/-- An extension of one message with values of the other. -/
def numberedField : LoweredField where
  field := {
    name := "e"
    number := 100
    type := .message
    value := .message ⟨numberedFile, ["M1"]⟩
    extendee := ⟨numberedFile, ["M"]⟩
    scope := .file numberedFile }
  sound := by decide

/-- The outer class of that file. -/
def numberedClass : OuterClass :=
  ⟨numberedFile, [numberedField], {}⟩

theorem sorted_bareClass :
    bareClass.forwardClasses.sorted = ["ComGoogleProtobufExtensionRegistryLite"] := by
  have hnames : bareClass.forwardClasses.names = ["ComGoogleProtobufExtensionRegistryLite"] := by
    decide +kernel
  exact NameSet.sorted_eq (List.pairwise_singleton _ _) fun name => by rw [hnames]

theorem sorted_numberedClass : numberedClass.forwardClasses.sorted =
    ["CGPGeneratedExtension", "ComGoogleProtobufExtensionRegistryLite", "X_M", "X_M1"] := by
  have hnames : numberedClass.forwardClasses.names =
      ["ComGoogleProtobufExtensionRegistryLite", "CGPGeneratedExtension", "X_M", "X_M1"] := by
    decide +kernel
  refine NameSet.sorted_eq (by decide +kernel) fun name => ?_
  rw [hnames]
  simp only [List.mem_cons, List.not_mem_nil, or_false]
  exact or_left_comm

/-- Without extensions nothing introduces the class of extensions; and the line of a class can be
followed by a lesser one. -/
theorem introducedClasses_exceptions :
    (∃ header, bareClass.headerText = .ok header ∧
      "@class CGPGeneratedExtension;".toList ∉ split '\n' header.toList) ∧
    ∃ header, numberedClass.headerText = .ok header ∧
      ["@class X_M;".toList, "@class X_M1;".toList] <:+: split '\n' header.toList ∧
      BytesLt "@class X_M1;" "@class X_M;" := by
  constructor
  · refine ⟨_, bareClass.headerText_eq_textOfLines, ?_⟩
    have hbreaks : ∀ line ∈ bareClass.headerLines, '\n' ∉ line.toList := by
      refine bareClass.newline_not_mem_headerLines (by decide +kernel) (by decide +kernel) ?_
        (List.forall_mem_nil _)
      rw [sorted_bareClass]
      decide +kernel
    rw [split_textOfLines hbreaks]
    simp only [List.mem_append, List.mem_map, List.mem_singleton, String.toList_inj,
      exists_eq_right]
    rintro (hmem | hempty)
    · have hclass : "@class CGPGeneratedExtension;" ∈
          bareClass.headerLines.filter introducesClass :=
        List.mem_filter.2 ⟨hmem, (OuterClass.introducesClass_classLine "CGPGeneratedExtension").1⟩
      rw [OuterClass.filter_class_headerLines, sorted_bareClass] at hclass
      revert hclass
      decide +kernel
    · simp at hempty
  · have hlines : numberedClass.headerLines = (numberedClass.openingLines ++
        ["CGPGeneratedExtension", "ComGoogleProtobufExtensionRegistryLite"].map
          OuterClass.classLine) ++ ["@class X_M;", "@class X_M1;"] ++ numberedClass.bodyLines := by
      rw [OuterClass.headerLines, sorted_numberedClass]
      rfl
    refine ⟨_, numberedClass.headerText_eq_textOfLines, ?_, bytesLt_iff.2 (by decide +kernel)⟩
    have hbreaks : ∀ line ∈ ["@class X_M;", "@class X_M1;"], '\n' ∉ line.toList := by
      decide +kernel
    rw [hlines]
    exact infix_split_textOfLines (List.append_ne_nil_of_left_ne_nil (List.cons_ne_nil _ _) _)
      hbreaks numberedClass.bodyLines

end ProtoExtensions
