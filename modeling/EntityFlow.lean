import EntityFlow.Command.Directory
import EntityFlow.Command.Invocation
import EntityFlow.Command.Log
import EntityFlow.Command.Reply
import EntityFlow.Data.OrderedMap
import EntityFlow.Document.Compile
import EntityFlow.Document.Diagnostic
import EntityFlow.Document.EntityBuilder
import EntityFlow.Document.FlowBuilder
import EntityFlow.Document.Model
import EntityFlow.Document.Scope
import EntityFlow.Grammar.Basic
import EntityFlow.Grammar.Cursor
import EntityFlow.Grammar.Entity
import EntityFlow.Grammar.Flow
import EntityFlow.Grammar.Parse
import EntityFlow.Grammar.Run
import EntityFlow.Grammar.Shared
import EntityFlow.Json.Basic
import EntityFlow.Language
import EntityFlow.Main
import EntityFlow.Name.Inflection
import EntityFlow.Name.Words
import EntityFlow.Number.Approximation
import EntityFlow.Number.Binary64
import EntityFlow.Number.Decimal
import EntityFlow.Number.Integer
import EntityFlow.Record.Crud
import EntityFlow.Record.Entity
import EntityFlow.Record.Flow
import EntityFlow.Source.Span
import EntityFlow.Text.Documentation
import EntityFlow.Text.LetterCase
import EntityFlow.Text.Line
import EntityFlow.Text.Property
import EntityFlow.Text.Quoted
import EntityFlow.Text.Table
import EntityFlow.Token.Basic
import EntityFlow.Token.Lexer
import EntityFlow.Tree.Basic
import EntityFlow.Value.Basic
import EntityFlow.Value.Json
import EntityFlow.Value.Literal
import EntityFlow.Proofs.Command.Replies
import EntityFlow.Proofs.Command.Settings
import EntityFlow.Proofs.Data.OrderedMap
import EntityFlow.Proofs.Document.Addresses
import EntityFlow.Proofs.Document.Arrangement
import EntityFlow.Proofs.Document.Balance
import EntityFlow.Proofs.Document.Branches
import EntityFlow.Proofs.Document.Coverage
import EntityFlow.Proofs.Document.Declarations
import EntityFlow.Proofs.Document.Explanations
import EntityFlow.Proofs.Document.FlowRecords
import EntityFlow.Proofs.Document.FlowReports
import EntityFlow.Proofs.Document.FlowSites
import EntityFlow.Proofs.Document.FlowSteps
import EntityFlow.Proofs.Document.ImpliedMethods
import EntityFlow.Proofs.Document.Lookups
import EntityFlow.Proofs.Document.NamePlaces
import EntityFlow.Proofs.Document.Omissions
import EntityFlow.Proofs.Document.OptionViews
import EntityFlow.Proofs.Document.Origins
import EntityFlow.Proofs.Document.Places
import EntityFlow.Proofs.Document.RelationshipKeys
import EntityFlow.Proofs.Document.Reports
import EntityFlow.Proofs.Document.Resolution
import EntityFlow.Proofs.Document.RuleRecords
import EntityFlow.Proofs.Document.Rules
import EntityFlow.Proofs.Document.Sections
import EntityFlow.Proofs.Document.Shadowing
import EntityFlow.Proofs.Document.SiteNames
import EntityFlow.Proofs.Document.Sites
import EntityFlow.Proofs.Document.Spacing
import EntityFlow.Proofs.Document.Standing
import EntityFlow.Proofs.Document.Strictness
import EntityFlow.Proofs.Grammar.Acceptance
import EntityFlow.Proofs.Grammar.Blocks
import EntityFlow.Proofs.Grammar.Boundaries
import EntityFlow.Proofs.Grammar.BrokenLine
import EntityFlow.Proofs.Grammar.Causes
import EntityFlow.Proofs.Grammar.Concatenation
import EntityFlow.Proofs.Grammar.Cover
import EntityFlow.Proofs.Grammar.Depth
import EntityFlow.Proofs.Grammar.Derivation
import EntityFlow.Proofs.Grammar.Errors
import EntityFlow.Proofs.Grammar.Foresight
import EntityFlow.Proofs.Grammar.Forks
import EntityFlow.Proofs.Grammar.Intrusion
import EntityFlow.Proofs.Grammar.Inversion
import EntityFlow.Proofs.Grammar.Layout
import EntityFlow.Proofs.Grammar.Limits
import EntityFlow.Proofs.Grammar.Movement
import EntityFlow.Proofs.Grammar.Names
import EntityFlow.Proofs.Grammar.Placement
import EntityFlow.Proofs.Grammar.Progress
import EntityFlow.Proofs.Grammar.Restarts
import EntityFlow.Proofs.Grammar.Seams
import EntityFlow.Proofs.Grammar.Shapes
import EntityFlow.Proofs.Grammar.Substance
import EntityFlow.Proofs.Grammar.Termination
import EntityFlow.Proofs.Grammar.Tiling
import EntityFlow.Proofs.Json.Documents
import EntityFlow.Proofs.Json.Numbers
import EntityFlow.Proofs.Json.Reader
import EntityFlow.Proofs.Json.Strings
import EntityFlow.Proofs.Name.Casing
import EntityFlow.Proofs.Name.Instances
import EntityFlow.Proofs.Name.Plurals
import EntityFlow.Proofs.Name.Ranges
import EntityFlow.Proofs.Name.Words
import EntityFlow.Proofs.Number.Ties
import EntityFlow.Proofs.Printing.Entities
import EntityFlow.Proofs.Printing.Pieces
import EntityFlow.Proofs.Printing.Readback
import EntityFlow.Proofs.Printing.Rules
import EntityFlow.Proofs.Source.Hulls
import EntityFlow.Proofs.Text.Ascii
import EntityFlow.Proofs.Text.Bytes
import EntityFlow.Proofs.Text.Documentation
import EntityFlow.Proofs.Text.Lines
import EntityFlow.Proofs.Token.Extents
import EntityFlow.Proofs.Token.Faults
import EntityFlow.Proofs.Token.Joining
import EntityFlow.Proofs.Token.Lexicon
import EntityFlow.Proofs.Token.Lines
import EntityFlow.Proofs.Token.Literals
import EntityFlow.Proofs.Token.Matching
import EntityFlow.Proofs.Token.Order
import EntityFlow.Proofs.Token.Quoting
import EntityFlow.Proofs.Token.Respacing
import EntityFlow.Proofs.Token.Scanning
import EntityFlow.Proofs.Token.Spelling
import EntityFlow.Proofs.Tree.Spans
import EntityFlow.Proofs.Tree.Subtrees
import EntityFlow.Proofs.Value.KeyOrder
import EntityFlow.Proofs.Value.Paths
import EntityFlow.Proofs.Value.Reading
import EntityFlow.Proofs.Value.RoundTrip
import EntityFlow.Proofs.Value.Serialized
import EntityFlow.Proofs.Value.Written
