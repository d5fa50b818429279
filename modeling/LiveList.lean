import LiveList.Document.Basic
import LiveList.Document.Edit
import LiveList.Document.Graft
import LiveList.Error
import LiveList.Event.Bus
import LiveList.Event.Hub
import LiveList.Event.Kind
import LiveList.Event.Script
import LiveList.Json.Basic
import LiveList.Json.Numeral
import LiveList.Json.Parser
import LiveList.Json.Path
import LiveList.Json.Printer
import LiveList.Markup.Entity
import LiveList.Markup.Forest
import LiveList.Markup.Lexer
import LiveList.Markup.Tokens
import LiveList.Markup.Tree
import LiveList.Number.Binary64
import LiveList.Number.Power
import LiveList.Number.Shortest
import LiveList.OrderedMap
import LiveList.Page.Basic
import LiveList.Page.Run
import LiveList.Proofs.Document.Containment
import LiveList.Proofs.Document.Growth
import LiveList.Proofs.Document.Layout
import LiveList.Proofs.Document.Locality
import LiveList.Proofs.Document.Moving
import LiveList.Proofs.Document.Operations
import LiveList.Proofs.Document.Permanence
import LiveList.Proofs.Document.Plant
import LiveList.Proofs.Document.RawText
import LiveList.Proofs.Document.Reparsing
import LiveList.Proofs.Document.Serialization
import LiveList.Proofs.Document.Slots
import LiveList.Proofs.Document.WellFormed
import LiveList.Proofs.Event.Delivery
import LiveList.Proofs.Json.Path
import LiveList.Proofs.Markup.Attributes
import LiveList.Proofs.Markup.Decoding
import LiveList.Proofs.Markup.Entity
import LiveList.Proofs.Markup.Inert
import LiveList.Proofs.Markup.Merging
import LiveList.Proofs.Markup.Printed
import LiveList.Proofs.Markup.Progress
import LiveList.Proofs.Markup.Read
import LiveList.Proofs.Markup.Reading
import LiveList.Proofs.Markup.Trees
import LiveList.Proofs.Markup.Verbatim
import LiveList.Proofs.OrderedMap
import LiveList.Proofs.Outcome
import LiveList.Proofs.Page.Alone
import LiveList.Proofs.Page.Auditing
import LiveList.Proofs.Page.Batch
import LiveList.Proofs.Page.Calls
import LiveList.Proofs.Page.Changes
import LiveList.Proofs.Page.Comparing
import LiveList.Proofs.Page.Coupling
import LiveList.Proofs.Page.Course
import LiveList.Proofs.Page.Deed
import LiveList.Proofs.Page.Effects
import LiveList.Proofs.Page.Failure
import LiveList.Proofs.Page.Guard
import LiveList.Proofs.Page.Hiding
import LiveList.Proofs.Page.History
import LiveList.Proofs.Page.Hosting
import LiveList.Proofs.Page.Interleaving
import LiveList.Proofs.Page.Joined
import LiveList.Proofs.Page.Journal
import LiveList.Proofs.Page.Lockstep
import LiveList.Proofs.Page.Neighbours
import LiveList.Proofs.Page.Observer
import LiveList.Proofs.Page.Ownership
import LiveList.Proofs.Page.Reached
import LiveList.Proofs.Page.Replay
import LiveList.Proofs.Page.Report
import LiveList.Proofs.Page.Restore
import LiveList.Proofs.Page.Runs
import LiveList.Proofs.Page.Shown
import LiveList.Proofs.Page.Silence
import LiveList.Proofs.Page.Sorting
import LiveList.Proofs.Page.Sparing
import LiveList.Proofs.Page.Stages
import LiveList.Proofs.Page.Standing
import LiveList.Proofs.Page.Stroke
import LiveList.Proofs.Page.Sweeping
import LiveList.Proofs.Page.Told
import LiveList.Proofs.Page.Trace
import LiveList.Proofs.Page.Unfiltered
import LiveList.Proofs.Page.Views
import LiveList.Proofs.Page.Whole
import LiveList.Proofs.Record.Collection
import LiveList.Proofs.Record.Creation
import LiveList.Proofs.Record.Indices
import LiveList.Proofs.Record.Reordering
import LiveList.Proofs.Record.Reserved
import LiveList.Proofs.Record.Restoring
import LiveList.Proofs.Template.Alike
import LiveList.Proofs.Template.Classes
import LiveList.Proofs.Template.Declarations
import LiveList.Proofs.Template.Directing
import LiveList.Proofs.Template.Directives
import LiveList.Proofs.Template.Entries
import LiveList.Proofs.Template.Items
import LiveList.Proofs.Template.Markers
import LiveList.Proofs.Template.Plain
import LiveList.Proofs.Template.Rendering
import LiveList.Proofs.Template.Resolving
import LiveList.Proofs.Template.Roots
import LiveList.Proofs.Template.Segments
import LiveList.Proofs.Template.Static
import LiveList.Proofs.Template.Steps
import LiveList.Proofs.Template.Transaction
import LiveList.Proofs.Template.Unescaped
import LiveList.Proofs.Template.Unquoted
import LiveList.Proofs.Template.Unrolling
import LiveList.Proofs.Text.Pieces
import LiveList.Proofs.Text.Scan
import LiveList.Proofs.View.Apart
import LiveList.Proofs.View.Arranging
import LiveList.Proofs.View.Drawing
import LiveList.Proofs.View.Effects
import LiveList.Proofs.View.Failure
import LiveList.Proofs.View.Items
import LiveList.Proofs.View.Redraw
import LiveList.Proofs.View.Removal
import LiveList.Proofs.View.Runs
import LiveList.Proofs.View.Showing
import LiveList.Proofs.View.Sketch
import LiveList.Proofs.View.Standing
import LiveList.Proofs.View.Tending
import LiveList.Record.Collection
import LiveList.Record.Model
import LiveList.Store
import LiveList.Template.Basic
import LiveList.Template.Directive
import LiveList.Template.Error
import LiveList.Template.Evaluation
import LiveList.Template.Expr
import LiveList.Template.Filter
import LiveList.Template.Render
import LiveList.Text.CaseTable
import LiveList.Text.Casing
import LiveList.Text.Quoted
import LiveList.Text.Scan
import LiveList.Text.VisibleTable
import LiveList.Toml.Parser
import LiveList.Toml.Scalar
import LiveList.Toml.Table
import LiveList.Toml.Writer
import LiveList.View.Basic
import LiveList.View.Builder
import LiveList.View.Change
import LiveList.View.Settings
