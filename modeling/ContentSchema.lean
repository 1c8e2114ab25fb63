import ContentSchema.Text.Case
import ContentSchema.Text.Digit
import ContentSchema.Text.Printable
import ContentSchema.Text.Word
import ContentSchema.Text.Blank
import ContentSchema.Text.Quoted
import ContentSchema.Number.Decimal
import ContentSchema.Value
import ContentSchema.Value.Display
import ContentSchema.Json.Reader
import ContentSchema.Definition.Basic
import ContentSchema.Reading.Checked
import ContentSchema.Reading.Record
import ContentSchema.Definition.Dump
import ContentSchema.Definition.Reading
import ContentSchema.Definition.Check
import ContentSchema.Naming.Case
import ContentSchema.Naming.Table
import ContentSchema.Schema.Basic
import ContentSchema.Schema.Reading
import ContentSchema.Schema.Printer
import ContentSchema.Schema.Size
import ContentSchema.Schema.Attribute
import ContentSchema.Schema.Parser
import ContentSchema.Compilation.Component
import ContentSchema.Compilation.Junction
import ContentSchema.Compilation.Model
import ContentSchema.Compilation.Merge
import ContentSchema.Compilation.Warning
import ContentSchema.Compilation.Whole
import ContentSchema.Files.Environment
import ContentSchema.Files.Path
import ContentSchema.Files.System
import ContentSchema.Yaml.Cursor
import ContentSchema.Yaml.Lexeme
import ContentSchema.Yaml.Token
import ContentSchema.Yaml.Node
import ContentSchema.Yaml.Reader
import ContentSchema.Yaml.Writer
import ContentSchema.External.Load
import ContentSchema.Failure
import ContentSchema.Hook.Basic
import ContentSchema.Hook.Library
import ContentSchema.Config.Basic
import ContentSchema.Config.Dump
import ContentSchema.Config.Reading
import ContentSchema.Source.Rows
import ContentSchema.Source.Table
import ContentSchema.Source.Address
import ContentSchema.Source.Database
import ContentSchema.Run.Definitions
import ContentSchema.Run.Generation
import ContentSchema.Command.Arguments
import ContentSchema.Command.Questions
import ContentSchema.Command.Report
import ContentSchema.Command.Run
import ContentSchema.Main
import ContentSchema.Proofs.Schema.RoundTrip
import ContentSchema.Proofs.Compilation.Indexes
import ContentSchema.Proofs.Run.RoundTrip
import ContentSchema.Proofs.Run.References
import ContentSchema.Proofs.Compilation.Junctions
import ContentSchema.Proofs.Compilation.Translation
import ContentSchema.Proofs.Compilation.Success
import ContentSchema.Proofs.Run.Stability
import ContentSchema.Proofs.Compilation.Embeddings
import ContentSchema.Proofs.Compilation.Distinct
import ContentSchema.Proofs.Run.Agreement
import ContentSchema.Proofs.Definition.Rules
import ContentSchema.Proofs.Naming.Labels
import ContentSchema.Proofs.Compilation.Names
import ContentSchema.Proofs.Compilation.Overriding
import ContentSchema.Proofs.Run.Indifference
import ContentSchema.Proofs.Compilation.Untranslated
import ContentSchema.Proofs.Run.Sources
import ContentSchema.Proofs.Run.Warnings
import ContentSchema.Proofs.Run.Degradation
import ContentSchema.Proofs.Run.Stages
import ContentSchema.Proofs.Run.Order
import ContentSchema.Proofs.Run.Slips
import ContentSchema.Proofs.Run.Shadowing
import ContentSchema.Proofs.Definition.Raised
import ContentSchema.Proofs.Definition.FieldKeys
import ContentSchema.Proofs.Definition.SlugRepetitions
import ContentSchema.Proofs.Definition.Respelling
import ContentSchema.Proofs.Definition.SpellingIndifference
import ContentSchema.Proofs.Command.Analysis
import ContentSchema.Proofs.Command.Questions
import ContentSchema.Proofs.Files.Access
import ContentSchema.Proofs.Command.Ending
import ContentSchema.Proofs.Naming.Conventions
import ContentSchema.Proofs.Compilation.Identifiers
import ContentSchema.Proofs.Compilation.Instances
import ContentSchema.Proofs.Compilation.Reserved
import ContentSchema.Proofs.Compilation.Shapes
import ContentSchema.Proofs.Compilation.Wiring
import ContentSchema.Proofs.Compilation.Joins
import ContentSchema.Proofs.Definition.Once
import ContentSchema.Proofs.Schema.LineCount
import ContentSchema.Proofs.Text.Escapes
import ContentSchema.Proofs.Schema.ScanSteps
import ContentSchema.Proofs.Schema.Spelling
import ContentSchema.Proofs.Schema.QuotedTexts
import ContentSchema.Proofs.Number.Shortest
import ContentSchema.Proofs.Schema.NumberLiterals
import ContentSchema.Proofs.Compilation.Defaults
import ContentSchema.Proofs.Files.Writing
import ContentSchema.Proofs.Run.DerivedFields
import ContentSchema.Proofs.Schema.Refusals
import ContentSchema.Proofs.External.Loading
import ContentSchema.Proofs.Text.Utf8
import ContentSchema.Proofs.Yaml.Written
import ContentSchema.Proofs.Command.Initialization
import ContentSchema.Proofs.External.Filters
import ContentSchema.Proofs.Schema.ColumnMarks
import ContentSchema.Proofs.Schema.Remarks
import ContentSchema.Proofs.Schema.Arguments
import ContentSchema.Proofs.Source.Lookup
import ContentSchema.Proofs.Naming.Patterns
