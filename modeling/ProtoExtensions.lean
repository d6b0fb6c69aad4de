import ProtoExtensions.Text.Blank
import ProtoExtensions.Text.Capital
import ProtoExtensions.Text.Lines
import ProtoExtensions.Text.Quoted
import ProtoExtensions.Text.Utf8
import ProtoExtensions.Float.Notation
import ProtoExtensions.Float.Reading
import ProtoExtensions.HeaderMap
import ProtoExtensions.NameSet
import ProtoExtensions.Printer
import ProtoExtensions.Default
import ProtoExtensions.Lowering.Contract
import ProtoExtensions.OuterClass
import ProtoExtensions.FileTree
import ProtoExtensions.HeaderMap.Properties
import ProtoExtensions.Diagnostic
import ProtoExtensions.Json
import ProtoExtensions.Json.Shape
import ProtoExtensions.Json.Text
import ProtoExtensions.Json.Number
import ProtoExtensions.Json.Bracket
import ProtoExtensions.Json.Ignored
import ProtoExtensions.Json.Document
import ProtoExtensions.Spec.Reading
import ProtoExtensions.Resolution
import ProtoExtensions.DescriptorSet
import ProtoExtensions.Generator
import ProtoExtensions.CommandLine
import ProtoExtensions.Main
import ProtoExtensions.Proofs.Emission
import ProtoExtensions.Proofs.Generation
import ProtoExtensions.Proofs.Accounting
import ProtoExtensions.Proofs.DefaultLiterals
import ProtoExtensions.Proofs.OutputFiles
import ProtoExtensions.Proofs.IntegerDefaults
import ProtoExtensions.Proofs.SymbolTable
import ProtoExtensions.Proofs.Identities
import ProtoExtensions.Proofs.FileOrder
import ProtoExtensions.Proofs.AddedFiles
import ProtoExtensions.Proofs.Layout
import ProtoExtensions.Proofs.SourceLayout
import ProtoExtensions.Proofs.Violations
import ProtoExtensions.Proofs.Includes
import ProtoExtensions.Proofs.Confinement
import ProtoExtensions.Proofs.MappingText
import ProtoExtensions.Proofs.OutputPaths
import ProtoExtensions.Proofs.VariableNames
import ProtoExtensions.Proofs.GenerationResult
import ProtoExtensions.Proofs.RepeatedGeneration
import ProtoExtensions.Proofs.GenerateRun
import ProtoExtensions.Proofs.TreeWalk
import ProtoExtensions.Proofs.Loading
import ProtoExtensions.Proofs.NameLookup
import ProtoExtensions.Proofs.ExtensionRules
import ProtoExtensions.Proofs.DescriptorJson
import ProtoExtensions.Proofs.MappingEntries
import ProtoExtensions.Proofs.EscapeGrammar
import ProtoExtensions.Proofs.DeclarationPaths
import ProtoExtensions.Proofs.IntegerGrammar
import ProtoExtensions.Proofs.Substitution
import ProtoExtensions.Proofs.Indentation
import ProtoExtensions.Proofs.FloatLiterals
import ProtoExtensions.Proofs.HeaderLayout
import ProtoExtensions.Proofs.IncludeBlock
import ProtoExtensions.Proofs.HeaderPaths
import ProtoExtensions.Proofs.ClassUnits
import ProtoExtensions.Proofs.EmissionLevels
