import ConfGraph.Cli.Arguments
import ConfGraph.Cli.Program
import ConfGraph.Config
import ConfGraph.Console.Basic
import ConfGraph.Console.Exhibit
import ConfGraph.Console.Grid
import ConfGraph.Decimal.Arithmetic
import ConfGraph.Decimal.Double
import ConfGraph.Decimal.Notation
import ConfGraph.Decimal.Numeral
import ConfGraph.Decimal.Reading
import ConfGraph.Decimal.Shortest
import ConfGraph.Digest
import ConfGraph.Disk
import ConfGraph.Dsl.Basic
import ConfGraph.Dsl.Builtin
import ConfGraph.Dsl.Samples
import ConfGraph.Engine.Basic
import ConfGraph.Engine.Build
import ConfGraph.Engine.Import
import ConfGraph.Fault
import ConfGraph.Graph.Basic
import ConfGraph.Graph.Batch
import ConfGraph.Graph.Fingerprint
import ConfGraph.Graph.Query
import ConfGraph.Graph.Revision
import ConfGraph.Graph.Schema
import ConfGraph.Graph.Transaction
import ConfGraph.Host.Run
import ConfGraph.Host.Step
import ConfGraph.Initializer
import ConfGraph.Likeness.Basic
import ConfGraph.Likeness.Query
import ConfGraph.Likeness.Revision
import ConfGraph.Likeness.Transaction
import ConfGraph.Log.Basic
import ConfGraph.Log.Event
import ConfGraph.Main
import ConfGraph.Module.Directive
import ConfGraph.Module.Discovery
import ConfGraph.Module.Ident
import ConfGraph.Module.Loader
import ConfGraph.Module.Plain
import ConfGraph.Module.State
import ConfGraph.Path
import ConfGraph.Proofs.Decimal.Interval
import ConfGraph.Proofs.Decimal.Notation
import ConfGraph.Proofs.Decimal.Text
import ConfGraph.Proofs.Decimal.Whole
import ConfGraph.Proofs.Graph.Alike
import ConfGraph.Proofs.Graph.Create
import ConfGraph.Proofs.Graph.Entity
import ConfGraph.Proofs.Graph.Journal
import ConfGraph.Proofs.Graph.Naming
import ConfGraph.Proofs.Graph.OneByOne
import ConfGraph.Proofs.Graph.Reload
import ConfGraph.Proofs.Graph.Renaming
import ConfGraph.Proofs.Graph.Schema
import ConfGraph.Proofs.Graph.Searching
import ConfGraph.Proofs.Graph.Step
import ConfGraph.Proofs.Graph.Texts
import ConfGraph.Proofs.Graph.Written
import ConfGraph.Proofs.Scope.Act
import ConfGraph.Proofs.Scope.Confined
import ConfGraph.Proofs.Scope.Effect
import ConfGraph.Proofs.Scope.Resolving
import ConfGraph.Proofs.Scope.Strand
import ConfGraph.Proofs.Shape.Reading
import ConfGraph.Proofs.Text.Quoted
import ConfGraph.Proofs.Value.Alike
import ConfGraph.Proofs.Value.Canonical
import ConfGraph.Proofs.Value.Fields
import ConfGraph.Provenance.Annotation
import ConfGraph.Provenance.Frame
import ConfGraph.Scope.Act
import ConfGraph.Scope.Basic
import ConfGraph.Scope.Strand
import ConfGraph.Script.Family
import ConfGraph.Script.Field
import ConfGraph.Script.Global
import ConfGraph.Script.Graphs
import ConfGraph.Script.Heap
import ConfGraph.Script.Layout
import ConfGraph.Script.Lexer
import ConfGraph.Script.Library
import ConfGraph.Script.Offer
import ConfGraph.Script.Operation
import ConfGraph.Script.Program
import ConfGraph.Script.Reader
import ConfGraph.Script.Reserved
import ConfGraph.Script.Run
import ConfGraph.Script.Showing
import ConfGraph.Script.Spot
import ConfGraph.Script.Standard
import ConfGraph.Script.Token
import ConfGraph.Shape.Basic
import ConfGraph.Shape.Issue
import ConfGraph.Text.Blank
import ConfGraph.Text.Identifier
import ConfGraph.Text.Quoted
import ConfGraph.Text.Similar
import ConfGraph.Text.Units
import ConfGraph.Value.Basic
import ConfGraph.Value.Canonical
import ConfGraph.Value.Fields
import ConfGraph.Value.Printer
import ConfGraph.Value.Reader
import ConfGraph.Proofs.Dsl.Builtin
import ConfGraph.Proofs.Host.Failing
import ConfGraph.Proofs.Script.Composed
import ConfGraph.Proofs.Script.Standard
import ConfGraph.Proofs.Dsl.Orderly
import ConfGraph.Proofs.Dsl.Attribution
import ConfGraph.Proofs.Engine.Applying
import ConfGraph.Proofs.Engine.Fresh
import ConfGraph.Proofs.Engine.Refinement
import ConfGraph.Proofs.Engine.Routes
import ConfGraph.Proofs.Module.Sharing
import ConfGraph.Proofs.Module.History
import ConfGraph.Proofs.Scope.Isolation
import ConfGraph.Proofs.Graph.Passes
import ConfGraph.Proofs.Graph.Allocation
import ConfGraph.Proofs.Graph.LastWriter
import ConfGraph.Proofs.Graph.Upserting
import ConfGraph.Proofs.Graph.Arrangement
import ConfGraph.Proofs.Dsl.Entity
import ConfGraph.Proofs.Graph.Refusals
import ConfGraph.Proofs.Engine.Projection
import ConfGraph.Proofs.Module.Directive
import ConfGraph.Proofs.Log.Line
import ConfGraph.Proofs.Module.Depth
import ConfGraph.Proofs.Module.Discovery
import ConfGraph.Proofs.Module.Ident
import ConfGraph.Proofs.Provenance.Stack
import ConfGraph.Proofs.Text.Splitting
