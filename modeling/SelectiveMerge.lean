import SelectiveMerge.Declaration.Derivation
import SelectiveMerge.Declaration.Grammar.Attribute
import SelectiveMerge.Declaration.Grammar.Basic
import SelectiveMerge.Declaration.Grammar.Body
import SelectiveMerge.Declaration.Grammar.Bound
import SelectiveMerge.Declaration.Grammar.Definition
import SelectiveMerge.Declaration.Grammar.Depth
import SelectiveMerge.Declaration.Grammar.Expression
import SelectiveMerge.Declaration.Grammar.Member
import SelectiveMerge.Declaration.Grammar.Path
import SelectiveMerge.Declaration.Grammar.Pattern
import SelectiveMerge.Declaration.Grammar.Statement
import SelectiveMerge.Declaration.Grammar.Type
import SelectiveMerge.Declaration.Item
import SelectiveMerge.Declaration.Lexer
import SelectiveMerge.Declaration.Literal
import SelectiveMerge.Declaration.Naming
import SelectiveMerge.Declaration.Reader
import SelectiveMerge.Declaration.Settings
import SelectiveMerge.Declaration.Shape
import SelectiveMerge.Declaration.SyntaxFault
import SelectiveMerge.Declaration.Token
import SelectiveMerge.Declaration.TypeExpr
import SelectiveMerge.Error
import SelectiveMerge.Graph.Collection
import SelectiveMerge.Graph.Document
import SelectiveMerge.Graph.Schema
import SelectiveMerge.Graph.Slot
import SelectiveMerge.Json.Basic
import SelectiveMerge.Json.Parser
import SelectiveMerge.Json.Printer
import SelectiveMerge.Leaf.Codec
import SelectiveMerge.Leaf.Coercion
import SelectiveMerge.Leaf.Document
import SelectiveMerge.Leaf.Type
import SelectiveMerge.Merge.Assignment
import SelectiveMerge.Merge.Configuration
import SelectiveMerge.Merge.Description
import SelectiveMerge.Merge.Directive
import SelectiveMerge.Merge.Navigation
import SelectiveMerge.Merge.Outcome
import SelectiveMerge.Merge.Payload
import SelectiveMerge.Merge.Reconciliation
import SelectiveMerge.Merge.Session
import SelectiveMerge.Number.Binary64
import SelectiveMerge.Number.Numeral
import SelectiveMerge.Number.Shortest
import SelectiveMerge.Options
import SelectiveMerge.Path
import SelectiveMerge.Proofs.Acceptance
import SelectiveMerge.Proofs.Addressing
import SelectiveMerge.Proofs.Blocked
import SelectiveMerge.Proofs.ByIdentity
import SelectiveMerge.Proofs.CaseRule
import SelectiveMerge.Proofs.Causes
import SelectiveMerge.Proofs.CollectionOrder
import SelectiveMerge.Proofs.Comparison
import SelectiveMerge.Proofs.Completeness
import SelectiveMerge.Proofs.Declared
import SelectiveMerge.Proofs.Described
import SelectiveMerge.Proofs.DottedText
import SelectiveMerge.Proofs.EffectRuns
import SelectiveMerge.Proofs.Effects
import SelectiveMerge.Proofs.ElementMerge
import SelectiveMerge.Proofs.ElementOrder
import SelectiveMerge.Proofs.Evolution
import SelectiveMerge.Proofs.Exchange
import SelectiveMerge.Proofs.Failing
import SelectiveMerge.Proofs.Fates
import SelectiveMerge.Proofs.Frame
import SelectiveMerge.Proofs.Heeded
import SelectiveMerge.Proofs.Identity
import SelectiveMerge.Proofs.InertKeys
import SelectiveMerge.Proofs.Kept
import SelectiveMerge.Proofs.KeyOrder
import SelectiveMerge.Proofs.LevelOrder
import SelectiveMerge.Proofs.Locations
import SelectiveMerge.Proofs.Lookup
import SelectiveMerge.Proofs.Narrowing
import SelectiveMerge.Proofs.Numerals
import SelectiveMerge.Proofs.Overrides
import SelectiveMerge.Proofs.PatchOrder
import SelectiveMerge.Proofs.PatchValues
import SelectiveMerge.Proofs.Patterns
import SelectiveMerge.Proofs.Payload
import SelectiveMerge.Proofs.PayloadValues
import SelectiveMerge.Proofs.Reach
import SelectiveMerge.Proofs.Refusal
import SelectiveMerge.Proofs.Renaming
import SelectiveMerge.Proofs.Reordering
import SelectiveMerge.Proofs.Replacement
import SelectiveMerge.Proofs.Requests
import SelectiveMerge.Proofs.Retry
import SelectiveMerge.Proofs.Run
import SelectiveMerge.Proofs.Settled
import SelectiveMerge.Proofs.Shapes
import SelectiveMerge.Proofs.Silent
import SelectiveMerge.Proofs.Slices
import SelectiveMerge.Proofs.Stability
import SelectiveMerge.Proofs.Step
import SelectiveMerge.Proofs.Stops
import SelectiveMerge.Proofs.Table
import SelectiveMerge.Proofs.Taken
import SelectiveMerge.Proofs.TextReadings
import SelectiveMerge.Proofs.Turns
import SelectiveMerge.Proofs.Typing
import SelectiveMerge.Proofs.Unambiguous
import SelectiveMerge.Proofs.UnmentionedValues
import SelectiveMerge.Proofs.Usable
import SelectiveMerge.Proofs.UuidText
import SelectiveMerge.Proofs.Writes
import SelectiveMerge.Report
import SelectiveMerge.Sample.Basic
import SelectiveMerge.Sample.Catalogue
import SelectiveMerge.Sample.Cell
import SelectiveMerge.Sample.Override
import SelectiveMerge.Text.Ascii
import SelectiveMerge.Text.Blank
import SelectiveMerge.Text.CaseTable
import SelectiveMerge.Text.Casing
import SelectiveMerge.Text.Identifier
import SelectiveMerge.Text.Printable
import SelectiveMerge.Text.Quoted
import SelectiveMerge.Text.Similarity
import SelectiveMerge.Uuid
