import RpcBindings.Text.Trim
import RpcBindings.Alphabet.Digit
import RpcBindings.Alphabet.Fold
import RpcBindings.Alphabet.Letter
import RpcBindings.Alphabet.Lower
import RpcBindings.Alphabet.Printable
import RpcBindings.Alphabet.Raise
import RpcBindings.Alphabet.Stretch
import RpcBindings.Alphabet.Upper
import RpcBindings.Binding.Context
import RpcBindings.Binding.Dependencies
import RpcBindings.Binding.Outline
import RpcBindings.Binding.Partition
import RpcBindings.Binding.Resolve
import RpcBindings.Check.Metadata
import RpcBindings.Check.Run
import RpcBindings.Command.Action
import RpcBindings.Command.Console
import RpcBindings.Command.Duration
import RpcBindings.Command.Flag
import RpcBindings.Command.Generation
import RpcBindings.Command.Information
import RpcBindings.Command.Run
import RpcBindings.Command.Verb
import RpcBindings.Dict
import RpcBindings.Diff.Match
import RpcBindings.Diff.Unified
import RpcBindings.Fault
import RpcBindings.Files.Glob
import RpcBindings.Files.System
import RpcBindings.Files.Tree
import RpcBindings.Format.Choice
import RpcBindings.Format.Json
import RpcBindings.Format.Toml
import RpcBindings.Format.Tree
import RpcBindings.Format.Yaml
import RpcBindings.Format.YamlScalar
import RpcBindings.Generate.Generator
import RpcBindings.Generate.Inputs
import RpcBindings.Generate.Plan
import RpcBindings.Generate.Report
import RpcBindings.Generate.Run
import RpcBindings.Generate.Write
import RpcBindings.Json.Form
import RpcBindings.Json.Key
import RpcBindings.Json.Piece
import RpcBindings.Json.Reader
import RpcBindings.Json.Skip
import RpcBindings.Log.Console
import RpcBindings.Log.Entry
import RpcBindings.Log.Verbosity
import RpcBindings.Main
import RpcBindings.Naming
import RpcBindings.Number.Binary
import RpcBindings.Toml.Moment
import RpcBindings.Number.Integer
import RpcBindings.Number.Literal
import RpcBindings.Number.Notation
import RpcBindings.Path.Lexical
import RpcBindings.Path.Pattern
import RpcBindings.Proofs.Agreement
import RpcBindings.Proofs.Basic
import RpcBindings.Proofs.Composition
import RpcBindings.Proofs.Confinement
import RpcBindings.Proofs.Declarations
import RpcBindings.Proofs.Dependencies
import RpcBindings.Proofs.Dict
import RpcBindings.Proofs.Difference
import RpcBindings.Proofs.Documents
import RpcBindings.Proofs.Execution
import RpcBindings.Proofs.Files
import RpcBindings.Proofs.Identifiers
import RpcBindings.Proofs.Isolation
import RpcBindings.Proofs.Layout
import RpcBindings.Proofs.Modules
import RpcBindings.Proofs.Naming
import RpcBindings.Proofs.Nearest
import RpcBindings.Proofs.Order
import RpcBindings.Proofs.Partition
import RpcBindings.Proofs.Path
import RpcBindings.Proofs.Readability
import RpcBindings.Proofs.Resolve
import RpcBindings.Proofs.Shadow
import RpcBindings.Proofs.Stamp
import RpcBindings.Proofs.Success
import RpcBindings.Proofs.Text
import RpcBindings.Proofs.Verdict
import RpcBindings.Proofs.Ways
import RpcBindings.Proofs.Write
import RpcBindings.Render.Directory
import RpcBindings.Render.Embedded
import RpcBindings.Render.Renderer
import RpcBindings.Schema.Code
import RpcBindings.Schema.DataType
import RpcBindings.Schema.Decode
import RpcBindings.Schema.Service
import RpcBindings.Schema.Wire
import RpcBindings.Settings.Basic
import RpcBindings.Settings.Effective
import RpcBindings.Settings.Layers
import RpcBindings.Settings.Load
import RpcBindings.Settings.Save
import RpcBindings.Settings.Unknown
import RpcBindings.Template.Compare
import RpcBindings.Template.Escape
import RpcBindings.Template.Execute
import RpcBindings.Template.Filter
import RpcBindings.Template.FormatString
import RpcBindings.Template.Literal
import RpcBindings.Template.Node
import RpcBindings.Template.Parse
import RpcBindings.Template.Shape
import RpcBindings.Template.Token
import RpcBindings.Template.Value
import RpcBindings.Template.Verb
import RpcBindings.Text.Basic
import RpcBindings.Text.Case
import RpcBindings.Text.Guarded
import RpcBindings.Text.Quoted
import RpcBindings.Text.Utf8
import RpcBindings.Toml.Document
import RpcBindings.Toml.Reader
import RpcBindings.Toml.Scalar
import RpcBindings.Toml.Survey
import RpcBindings.Toml.Value
import RpcBindings.Version
import RpcBindings.Watch.Relevance
import RpcBindings.Watch.State
import RpcBindings.Proofs.Ownership
import RpcBindings.Proofs.Glyphs
import RpcBindings.Proofs.Remarks
import RpcBindings.Proofs.Brackets
import RpcBindings.Proofs.Categories
import RpcBindings.Proofs.Accounting
import RpcBindings.Proofs.Provenance
import RpcBindings.Proofs.Decoding
import RpcBindings.Proofs.Resolution
import RpcBindings.Proofs.Acceptance
import RpcBindings.Proofs.TypeGrammar
import RpcBindings.Proofs.Reading
import RpcBindings.Proofs.Reordering
import RpcBindings.Proofs.Interchange
import RpcBindings.Proofs.Invariance
import RpcBindings.Proofs.Alphabet
import RpcBindings.Proofs.Snake
import RpcBindings.Proofs.Scopes
import RpcBindings.Proofs.Compound
import RpcBindings.Proofs.WorkList
import RpcBindings.Proofs.Orphans
import RpcBindings.Proofs.Restoration
import RpcBindings.Proofs.Placement
import RpcBindings.Proofs.Index
import RpcBindings.Proofs.Positions
import RpcBindings.Proofs.Taxonomy
import RpcBindings.Proofs.Mishaps
import RpcBindings.Proofs.WireValues
import RpcBindings.Proofs.Beside
import RpcBindings.Proofs.Rotation
import RpcBindings.Proofs.History
import RpcBindings.Proofs.Unsaved
import RpcBindings.Proofs.Layers
import RpcBindings.Proofs.Precedence
import RpcBindings.Proofs.Quoting
import RpcBindings.Proofs.Recovery
import RpcBindings.Proofs.Saved
import RpcBindings.Proofs.OneLine
import RpcBindings.Proofs.Manifest
import RpcBindings.Proofs.Relevance
import RpcBindings.Proofs.Watching
import RpcBindings.Proofs.Batches
