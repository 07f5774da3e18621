import BugPatterns.Ast.Basic
import BugPatterns.Ast.Labels
import BugPatterns.Ast.Node
import BugPatterns.Ast.NodeTree
import BugPatterns.Ast.Reader
import BugPatterns.Ast.Span
import BugPatterns.Ast.Visit
import BugPatterns.Ast.Vocabulary
import BugPatterns.Ast.Writer
import BugPatterns.Catalog.Basic
import BugPatterns.Catalog.Builtin
import BugPatterns.Catalog.Document
import BugPatterns.Catalog.InPlace
import BugPatterns.Check.Basic
import BugPatterns.Check.Pass
import BugPatterns.Check.Registry
import BugPatterns.Constancy.Definitions
import BugPatterns.Constancy.InPlace
import BugPatterns.Constancy.Trace
import BugPatterns.Constancy.Verdict
import BugPatterns.Engine.Basic
import BugPatterns.Engine.Options
import BugPatterns.InsertionOrder
import BugPatterns.Json.Basic
import BugPatterns.Json.Number
import BugPatterns.Json.Parser
import BugPatterns.Json.Printer
import BugPatterns.Json.Record
import BugPatterns.Json.Token
import BugPatterns.Model.Basic
import BugPatterns.Model.Document
import BugPatterns.Model.InPlace
import BugPatterns.Model.Load
import BugPatterns.Model.Query
import BugPatterns.Model.TypeName
import BugPatterns.Proofs.Ancestors
import BugPatterns.Proofs.Ast.AsParens
import BugPatterns.Proofs.Ast.Parts
import BugPatterns.Proofs.Ast.Plain
import BugPatterns.Proofs.Ast.Relabel
import BugPatterns.Proofs.Ast.Renumber
import BugPatterns.Proofs.Ast.Restored
import BugPatterns.Proofs.Ast.RoundTrip
import BugPatterns.Proofs.Ast.Unwrap
import BugPatterns.Proofs.BoundedWalk
import BugPatterns.Proofs.Callback
import BugPatterns.Proofs.Catalog.AllOrNothing
import BugPatterns.Proofs.Catalog.Extension
import BugPatterns.Proofs.Catalog.Growth
import BugPatterns.Proofs.Check.Acceptance
import BugPatterns.Proofs.Check.Dispatch
import BugPatterns.Proofs.Check.Enclosing
import BugPatterns.Proofs.Check.Isolation
import BugPatterns.Proofs.Check.Pass
import BugPatterns.Proofs.Check.Regional
import BugPatterns.Proofs.Check.Registry
import BugPatterns.Proofs.Constancy.Alike
import BugPatterns.Proofs.Constancy.Assigned
import BugPatterns.Proofs.Constancy.Budget
import BugPatterns.Proofs.Constancy.Captured
import BugPatterns.Proofs.Constancy.CastDefinitions
import BugPatterns.Proofs.Constancy.CastTrace
import BugPatterns.Proofs.Constancy.Casts
import BugPatterns.Proofs.Constancy.Depth
import BugPatterns.Proofs.Constancy.Fields
import BugPatterns.Proofs.Constancy.Forward
import BugPatterns.Proofs.Constancy.InPlace
import BugPatterns.Proofs.Constancy.Judge
import BugPatterns.Proofs.Constancy.Leaves
import BugPatterns.Proofs.Constancy.Parts
import BugPatterns.Proofs.Constancy.Reaching
import BugPatterns.Proofs.Constancy.Reentry
import BugPatterns.Proofs.Constancy.Reference
import BugPatterns.Proofs.Constancy.Respan
import BugPatterns.Proofs.Constancy.Scan
import BugPatterns.Proofs.Constancy.Steps
import BugPatterns.Proofs.Constancy.Tour
import BugPatterns.Proofs.Constancy.UnwrappedDefinitions
import BugPatterns.Proofs.Constancy.UnwrappedTrace
import BugPatterns.Proofs.Constancy.Verdict
import BugPatterns.Proofs.Constancy.Walk
import BugPatterns.Proofs.Constancy.Watch
import BugPatterns.Proofs.Engine.Constructors
import BugPatterns.Proofs.Engine.Depth
import BugPatterns.Proofs.Engine.Flagged
import BugPatterns.Proofs.Engine.Order
import BugPatterns.Proofs.Engine.Parentheses
import BugPatterns.Proofs.Engine.Retracing
import BugPatterns.Proofs.Engine.Selection
import BugPatterns.Proofs.Engine.Sinks
import BugPatterns.Proofs.Engine.Spans
import BugPatterns.Proofs.Except
import BugPatterns.Proofs.FailingWalk
import BugPatterns.Proofs.InsertionOrder
import BugPatterns.Proofs.Json.Plain
import BugPatterns.Proofs.Json.Record
import BugPatterns.Proofs.Json.Scan
import BugPatterns.Proofs.Json.Text
import BugPatterns.Proofs.Model.Acceptance
import BugPatterns.Proofs.Model.Agreement
import BugPatterns.Proofs.Model.Arena
import BugPatterns.Proofs.Model.Building
import BugPatterns.Proofs.Model.Closed
import BugPatterns.Proofs.Model.Described
import BugPatterns.Proofs.Model.Grammar
import BugPatterns.Proofs.Model.Growth
import BugPatterns.Proofs.Model.Histories
import BugPatterns.Proofs.Model.Interfaces
import BugPatterns.Proofs.Model.Interning
import BugPatterns.Proofs.Model.Keys
import BugPatterns.Proofs.Model.Loaded
import BugPatterns.Proofs.Model.Loading
import BugPatterns.Proofs.Model.Locality
import BugPatterns.Proofs.Model.Members
import BugPatterns.Proofs.Model.Names
import BugPatterns.Proofs.Model.Operations
import BugPatterns.Proofs.Model.Outline
import BugPatterns.Proofs.Model.OwnerChain
import BugPatterns.Proofs.Model.Ownership
import BugPatterns.Proofs.Model.PlainHierarchy
import BugPatterns.Proofs.Model.Prelude
import BugPatterns.Proofs.Model.Reached
import BugPatterns.Proofs.Model.Reordering
import BugPatterns.Proofs.Model.Shape
import BugPatterns.Proofs.Model.Sound
import BugPatterns.Proofs.Model.Subtyping
import BugPatterns.Proofs.Model.Tags
import BugPatterns.Proofs.Model.Transitivity
import BugPatterns.Proofs.Model.UniqueKeys
import BugPatterns.Proofs.Model.Unknown
import BugPatterns.Proofs.NodeTree
import BugPatterns.Proofs.Numbering
import BugPatterns.Proofs.Reach
import BugPatterns.Proofs.Regions
import BugPatterns.Proofs.Rule.Equality
import BugPatterns.Proofs.Rule.Finalizer
import BugPatterns.Proofs.Rule.InnerCall
import BugPatterns.Proofs.Rule.Respan
import BugPatterns.Proofs.Tree
import BugPatterns.Proofs.Unit.AddedCasts
import BugPatterns.Proofs.Unit.Coherence
import BugPatterns.Proofs.Unit.Declared
import BugPatterns.Proofs.Unit.Mentioned
import BugPatterns.Proofs.Unit.Nesting
import BugPatterns.Proofs.Unit.Respan
import BugPatterns.Proofs.Unit.RoundTrip
import BugPatterns.Proofs.Unit.Scopes
import BugPatterns.Proofs.Unit.Unwrap
import BugPatterns.Reach
import BugPatterns.Rule.Equality
import BugPatterns.Rule.Finalizer
import BugPatterns.Rule.Injection
import BugPatterns.Rule.InnerCall
import BugPatterns.Text.Blank
import BugPatterns.Tree
import BugPatterns.Unit.Declarations
import BugPatterns.Unit.Document
import BugPatterns.Unit.Load
