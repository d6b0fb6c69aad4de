import ProtoExtensions.Proofs.Artifacts

/-!
How the source of an outer class is put together. The loops over its extensions share one printer,
whose level and place in the line they hand on to one another; yet the source is a concatenation of
the texts that the pieces have on fresh printers (`OuterClass.sourceText_layout`): first the
definitions, then the records, then the statements that build the extensions, and after the call
that runs these the statements that register them. Each loop adds one piece for each extension, in
the order of the list.
-/

namespace ProtoExtensions

open Printer

namespace OuterClass

variable (c : OuterClass)

/-! ## The fixed parts of a source -/

/-- The comment that names the file, and the headers that the source includes. -/
def preamble : String :=
  "// Generated by pbobjc.  DO NOT EDIT!\n// source: " ++ c.file.name ++ "\n" ++
    ("\n#include \"J2ObjC_source.h\"\n#include \"" ++ c.headerPath ++ "\"\n#include \"" ++
      runtimeHeader ++ "\"\n") ++
    String.join (c.sourceImports.sorted.map fun header => "#include \"" ++ header ++ "\"\n") ++
    (if c.extensions.isEmpty then "" else "\n")

/-- The start of the class and of the method that builds the extensions. -/
def initializeStart : String :=
  "\nJ2OBJC_INITIALIZED_DEFN(" ++ c.className ++ ")\n\n@implementation " ++ c.className ++
    "\n\n+ (void)initialize \x7b\n  if (self == [" ++ c.className ++ " class]) \x7b\n"

/-- The line that marks the class as initialized. -/
def initializedMark : String :=
  "J2OBJC_SET_INITIALIZED(" ++ c.className ++ ")\n"

/-- The end of the first method and the start of the one that registers the extensions. -/
def registrationStart : String :=
  "  \x7d\n" ++ ("\x7d\n\n" ++ registrationMethod ++ " \x7b\n")

/-- The call that runs the first method. -/
def initializeCall : String :=
  c.className ++ "_initialize();\n"

/-- The end of the source. -/
def sourceEnd : String := "\x7d\n\n@end\n"

/-- The source: fixed parts, and between them one piece for each extension in the order of the
list. -/
def sourceLayout : String :=
  c.preamble ++
    String.join (c.extensions.map LoweredField.definitionText) ++
    String.join (c.extensions.map fun f => f.recordText .standard) ++
    c.initializeStart ++
    String.join (c.extensions.map fun f => indented (List.replicate 4 ' ') f.initializerText) ++
    (indented (List.replicate 4 ' ') c.initializedMark ++ registrationStart ++
      indented (List.replicate 2 ' ') c.initializeCall) ++
    String.join (c.extensions.map fun f => indented (List.replicate 2 ' ') f.registrationText) ++
    sourceEnd

/-! ## What the fixed parts add -/

theorem printsLines_banner : PrintsLines c.printBanner 0 fun _ =>
    "// Generated by pbobjc.  DO NOT EDIT!\n// source: " ++ c.file.name ++ "\n" :=
  .print (endsLine_append rfl) String.toList_ofList rfl

theorem printsLines_includes : PrintsLines (fun p => p.print
    "\n#include \"J2ObjC_source.h\"\n#include \"$own$\"\n#include \"$runtime$\"\n"
    [("own", c.headerPath), ("runtime", runtimeHeader)]) 0 fun _ =>
    "\n#include \"J2ObjC_source.h\"\n#include \"" ++ c.headerPath ++ "\"\n#include \"" ++
      runtimeHeader ++ "\"\n" :=
  .print (endsLine_append rfl) String.toList_ofList rfl

theorem printsLines_import (header : String) :
    PrintsLines (fun p => p.print "#include \"$header$\"\n" [("header", header)]) 0 fun _ =>
      "#include \"" ++ header ++ "\"\n" :=
  .print (endsLine_append rfl) String.toList_ofList rfl

theorem printsLines_initializeStart : PrintsLines (fun p => p.print
    ("\nJ2OBJC_INITIALIZED_DEFN($class$)\n\n@implementation $class$\n\n" ++
      "+ (void)initialize \x7b\n  if (self == [$class$ class]) \x7b\n") [("class", c.className)])
    0 fun _ => c.initializeStart :=
  .print (endsLine_append rfl) (toList_append_of String.toList_ofList String.toList_ofList) rfl

theorem printsLines_initializedMark :
    PrintsLines (fun p => p.print "J2OBJC_SET_INITIALIZED($class$)\n" [("class", c.className)])
      0 fun _ => c.initializedMark :=
  .print (endsLine_append rfl) String.toList_ofList rfl

theorem printsLines_initializeCall :
    PrintsLines (fun p => p.print "$class$_initialize();\n" [("class", c.className)])
      0 fun _ => c.initializeCall :=
  .print (endsLine_append rfl) String.toList_ofList rfl

theorem registrationMethod_line :
    '$' ∉ registrationMethod.toList ∧ '\n' ∉ registrationMethod.toList := by
  have hchars : registrationMethod.toList = _ :=
    toList_append_of String.toList_ofList String.toList_ofList
  rw [hchars]
  decide +kernel

theorem printsLines_registrationMethod :
    PrintsLines (fun p => p.print ("\x7d\n\n" ++ registrationMethod ++ " \x7b\n"))
      0 fun _ => "\x7d\n\n" ++ registrationMethod ++ " \x7b\n" := by
  have hline {method : String} (h : '$' ∉ method.toList) :
      '$' ∉ ("\x7d\n\n" ++ method ++ " \x7b\n").toList := by
    simp [String.toList_append, h]
  exact .print_of_not_mem (endsLine_append rfl) (hline registrationMethod_line.1)

/-! ## The whole source -/

theorem adds_each {piece : LoweredField → Printer → Except Stopped Printer}
    {text : LoweredField → String} {printer : Printer}
    (h : ∀ f, Adds (piece f) printer printer (text f)) :
    Adds (c.printEach piece) printer printer (String.join (c.extensions.map text)) :=
  Adds.foldlM h c.extensions

/-- A fresh printer gets the whole layout and is back on the outermost level. -/
theorem adds_source : Adds c.printSource {} {} c.sourceLayout := by
  have hzero : IndentStyle.standard.Holds 0 := IndentStyle.holds_zero _
  have houter : ({} : Printer).level.toNat < maxWord := by decide
  have hinner : ({} : Printer).deeper.level.toNat < maxWord := by decide
  have hone : IndentStyle.standard.Holds (({} : Printer).deeper.level.toNat + 0) := by decide
  have htwo : IndentStyle.standard.Holds (({} : Printer).deeper.deeper.level.toNat + 0) := by decide
  have hunit : ({} : Printer).deeper.indentation = List.replicate 2 ' ' := by decide
  have hunits : ({} : Printer).deeper.deeper.indentation = List.replicate 4 ' ' := by decide
  have hblank : Adds (fun p => p.print "\n") {} {} "\n" :=
    (PrintsLines.print_of_not_mem (endsLine_of_getLast? rfl) (by decide +kernel)).adds_fresh hzero
  have himports : Adds (printLines "#include \"$header$\"\n" "header" c.sourceImports.sorted) {} {}
      (String.join (c.sourceImports.sorted.map fun header => "#include \"" ++ header ++ "\"\n")) :=
    Adds.foldlM (fun header => (printsLines_import header).adds_fresh hzero) _
  have hdefinitions : Adds (c.printEach LoweredField.printDefinition) {} {}
      (String.join (c.extensions.map LoweredField.definitionText)) :=
    c.adds_each fun f => f.printsLines_definition.adds_fresh hzero
  have hrecords : Adds (c.printEach LoweredField.printRecord) {} {}
      (String.join (c.extensions.map fun f => f.recordText .standard)) :=
    c.adds_each fun f => f.printsLines_record.adds_fresh (by decide)
  -- the first method is entered and left one level at a time
  have hinitializers : Adds (c.printEach LoweredField.printInitializer)
      ({} : Printer).deeper.deeper ({} : Printer).deeper.deeper
      (String.join (c.extensions.map fun f =>
        indented (List.replicate 4 ' ') f.initializerText)) := by
    rw [← hunits]
    exact c.adds_each fun f => f.printsLines_initializer ({} : Printer).deeper.deeper htwo
  have hmark : Adds (fun p => p.print "J2OBJC_SET_INITIALIZED($class$)\n" [("class", c.className)])
      ({} : Printer).deeper.deeper ({} : Printer).deeper.deeper
      (indented (List.replicate 4 ' ') c.initializedMark) := by
    rw [← hunits]
    exact c.printsLines_initializedMark ({} : Printer).deeper.deeper htwo
  have hbrace : Adds (fun p => p.outdent.print "\x7d\n") ({} : Printer).deeper.deeper
      ({} : Printer).deeper "  \x7d\n" := by
    have hline : indented ({} : Printer).deeper.indentation "\x7d\n" = "  \x7d\n" := by
      rw [hunit]
      decide +kernel
    have hclosing : PrintsLines (fun p => p.print "\x7d\n") 0 fun _ => "\x7d\n" :=
      .print_of_not_mem (endsLine_of_getLast? rfl) (by decide +kernel)
    have hadds := hclosing ({} : Printer).deeper hone
    rw [hline] at hadds
    exact hadds.after_outdent hinner
  have hmethod : Adds (fun p => p.outdent.print ("\x7d\n\n" ++ registrationMethod ++ " \x7b\n"))
      ({} : Printer).deeper {} ("\x7d\n\n" ++ registrationMethod ++ " \x7b\n") :=
    (printsLines_registrationMethod.adds_fresh hzero).after_outdent houter
  have hcall : Adds (fun p => p.print "$class$_initialize();\n" [("class", c.className)])
      ({} : Printer).deeper ({} : Printer).deeper
      (indented (List.replicate 2 ' ') c.initializeCall) := by
    rw [← hunit]
    exact c.printsLines_initializeCall ({} : Printer).deeper hone
  have hregistrations : Adds (c.printEach LoweredField.printRegistration)
      ({} : Printer).deeper ({} : Printer).deeper (String.join (c.extensions.map fun f =>
        indented (List.replicate 2 ' ') f.registrationText)) := by
    rw [← hunit]
    exact c.adds_each fun f => f.printsLines_registration ({} : Printer).deeper hone
  have hend : Adds (fun p => p.outdent.print "\x7d\n\n@end\n") ({} : Printer).deeper {}
      sourceEnd :=
    ((PrintsLines.print_of_not_mem (endsLine_of_getLast? rfl)
      (by decide +kernel)).adds_fresh hzero).after_outdent houter
  -- the second method is entered from outside
  have hregister := (hcall.bind (hregistrations.bind hend)).after_indent houter
  have hinitialize := (((hinitializers.bind <| hmark.bind <| hbrace.bind <|
    hmethod.bind hregister).after_indent hinner).after_indent houter)
  have hsource : Adds c.printSource {} {} _ := (c.printsLines_banner.adds_fresh hzero).bind <|
    (c.printsLines_includes.adds_fresh hzero).bind <| himports.bind <|
    Adds.ite_bind (.ok {}) hblank <| hdefinitions.bind <| hrecords.bind <|
    (c.printsLines_initializeStart.adds_fresh hzero).bind hinitialize
  unfold sourceLayout preamble registrationStart
  simpa only [String.append_assoc] using hsource

theorem sourceText_eq_sourceLayout : c.sourceText = .ok c.sourceLayout :=
  c.adds_source.rendered_eq

end OuterClass

/-! ## Order -/

/-- Whether a text can be cut so that one piece is part of what is before the cut, and another part
of what is behind it. -/
def StandsBefore (first second text : String) : Prop :=
  ∃ front back, text = front ++ back ∧ StandsIn first front ∧ StandsIn second back

theorem StandsBefore.append_right {first second text : String} (h : StandsBefore first second text)
    (more : String) : StandsBefore first second (text ++ more) := by
  obtain ⟨front, back, rfl, hfirst, hsecond⟩ := h
  exact ⟨front, back ++ more, String.append_assoc, hfirst, hsecond.append_right more⟩

/-- **The layout of a source.** Every outer class has a source, and it is a concatenation: the
preamble, the definitions, the records, the start of the class, the initializers behind four spaces,
the line that marks the class as initialized and all up to the call that runs the initializers, the
registrations behind two spaces, and the end; each group has one piece for each extension, in their
order, and each piece is what a fresh printer shows. So every initializer stands before the mark,
and every registration behind the call. -/
theorem OuterClass.sourceText_layout (c : OuterClass) :
    (∀ f ∈ c.extensions,
      rendered f.printDefinition = .ok f.definitionText ∧
      rendered f.printRecord = .ok (f.recordText .standard) ∧
      rendered f.printInitializer = .ok f.initializerText ∧
      rendered f.printRegistration = .ok f.registrationText) ∧
    ∃ source, c.sourceText = .ok source ∧
      source = c.preamble ++
        String.join (c.extensions.map LoweredField.definitionText) ++
        String.join (c.extensions.map fun f => f.recordText .standard) ++
        c.initializeStart ++
        String.join (c.extensions.map fun f =>
          indented (List.replicate 4 ' ') f.initializerText) ++
        (indented (List.replicate 4 ' ') c.initializedMark ++ registrationStart ++
          indented (List.replicate 2 ' ') c.initializeCall) ++
        String.join (c.extensions.map fun f =>
          indented (List.replicate 2 ' ') f.registrationText) ++
        sourceEnd ∧
      ∀ f ∈ c.extensions,
        StandsBefore (indented (List.replicate 4 ' ') f.initializerText)
          (indented (List.replicate 4 ' ') c.initializedMark) source ∧
        StandsBefore (indented (List.replicate 2 ' ') c.initializeCall)
          (indented (List.replicate 2 ' ') f.registrationText) source := by
  have hzero : IndentStyle.standard.Holds 0 := IndentStyle.holds_zero _
  refine ⟨fun f _ => ⟨f.printsLines_definition.rendered_eq hzero,
    f.printsLines_record.rendered_eq (by decide), f.printsLines_initializer.rendered_eq hzero,
    f.printsLines_registration.rendered_eq hzero⟩,
    c.sourceLayout, c.sourceText_eq_sourceLayout, rfl, fun f hf => ⟨?_, ?_⟩⟩
  · have hinitializer := standsIn_join_map hf fun f =>
      indented (List.replicate 4 ' ') f.initializerText
    have hmark := ((StandsIn.refl (indented (List.replicate 4 ' ') c.initializedMark)).append_right
      registrationStart).append_right (indented (List.replicate 2 ' ') c.initializeCall)
    exact .append_right (.append_right ⟨_, _, rfl, hinitializer.append_left _, hmark⟩ _) _
  · have hcall := (StandsIn.refl (indented (List.replicate 2 ' ') c.initializeCall)).append_left
      (indented (List.replicate 4 ' ') c.initializedMark ++ registrationStart)
    have hregistration := standsIn_join_map hf fun f =>
      indented (List.replicate 2 ' ') f.registrationText
    exact .append_right ⟨_, _, rfl, hcall.append_left _, hregistration⟩ _

/-- A file whose outer class has a line break in its name. -/
def twoLineFile : ProtoFile where
  name := "x.proto"
  package := ""
  outerClassname := some "A\nB"
  topLevelTypes := ["M"]

/-- A repeated extension in that file. -/
def twoLineField : LoweredField where
  field := {
    name := "tide"
    number := 7
    type := .sint32
    value := .scalar
    extendee := ⟨twoLineFile, ["M"]⟩
    scope := .file twoLineFile
    cardinality := .repeated
    packed := true }
  sound := by decide

/-- The outer class of that file. -/
def twoLineClass : OuterClass :=
  ⟨twoLineFile, [twoLineField], {}⟩

/-- The second line of the class name is indented as well. -/
theorem OuterClass.sourceText_layout_twoLineClass :
    twoLineField ∈ twoLineClass.extensions ∧
    rendered twoLineField.printInitializer =
      .ok "A\nB_tide = CGPNewGeneratedExtension(&A\nB_tide_FieldData);\n" ∧
    ∃ source, twoLineClass.sourceText = .ok source ∧
      StandsBefore "    A\n    B_tide = CGPNewGeneratedExtension(&A\n    B_tide_FieldData);\n"
        "    J2OBJC_SET_INITIALIZED(A\n    B)\n" source := by
  have hmem : twoLineField ∈ twoLineClass.extensions := List.mem_singleton.2 rfl
  have htext : twoLineField.initializerText =
      "A\nB_tide = CGPNewGeneratedExtension(&A\nB_tide_FieldData);\n" := by decide +kernel
  have hindented : indented (List.replicate 4 ' ') twoLineField.initializerText =
      "    A\n    B_tide = CGPNewGeneratedExtension(&A\n    B_tide_FieldData);\n" := by
    rw [htext]
    decide +kernel
  have hmark : indented (List.replicate 4 ' ') twoLineClass.initializedMark =
      "    J2OBJC_SET_INITIALIZED(A\n    B)\n" := by decide +kernel
  obtain ⟨hrendered, source, hsource, -, horder⟩ := twoLineClass.sourceText_layout
  obtain ⟨-, -, hinitializer, -⟩ := hrendered twoLineField hmem
  obtain ⟨hbefore, -⟩ := horder twoLineField hmem
  rw [htext] at hinitializer
  rw [hindented, hmark] at hbefore
  exact ⟨hmem, hinitializer, source, hsource, hbefore⟩

end ProtoExtensions
