import Folio.Batch
import Folio.CommandLine
import Folio.Config.Basic
import Folio.Config.Load
import Folio.Config.Text
import Folio.Content
import Folio.Decimal.Basic
import Folio.Decimal.Binary
import Folio.Document
import Folio.Error
import Folio.FileSystem.Access
import Folio.FileSystem.Basic
import Folio.FileSystem.Resolve
import Folio.Format
import Folio.Glob
import Folio.Html.Escape
import Folio.Html.Writer
import Folio.Ignore
import Folio.Json
import Folio.Json.Parser
import Folio.Json.Printer
import Folio.Kind
import Folio.Latex.Escape
import Folio.Latex.Footnote
import Folio.Latex.Verbatim
import Folio.Latex.Writer
import Folio.Main
import Folio.Markdown.Block
import Folio.Markdown.Container
import Folio.Markdown.Cursor
import Folio.Markdown.Document
import Folio.Markdown.Emphasis
import Folio.Markdown.Entity
import Folio.Markdown.EntityTable
import Folio.Markdown.Event
import Folio.Markdown.Inline
import Folio.Markdown.LineMark
import Folio.Markdown.RawHtml
import Folio.Markdown.Reference
import Folio.Markdown.Table
import Folio.Notice
import Folio.Options
import Folio.Parameters
import Folio.Path
import Folio.Placeholder
import Folio.Program
import Folio.Rendering
import Folio.Target
import Folio.Template.Access
import Folio.Template.Arguments
import Folio.Template.Arithmetic
import Folio.Template.Call
import Folio.Template.Engine
import Folio.Template.Escape
import Folio.Template.Evaluation
import Folio.Template.Execution
import Folio.Template.Filter
import Folio.Template.Filter.Items
import Folio.Template.Filter.Number
import Folio.Template.Filter.Text
import Folio.Template.Loader
import Folio.Template.Machine
import Folio.Template.Order
import Folio.Template.Parser
import Folio.Template.Print
import Folio.Template.Statement
import Folio.Template.Test
import Folio.Template.Token
import Folio.Template.Value
import Folio.Text.Blank
import Folio.Text.Case
import Folio.Text.CaseTable
import Folio.Text.Lines
import Folio.Text.Punctuation
import Folio.Text.Quoted
import Folio.Text.Search
import Folio.Text.Utf8
import Folio.World
import Folio.Yaml.Cursor
import Folio.Yaml.Node
import Folio.Yaml.Scalar
import Folio.Yaml.Tag
import Folio.Yaml.Token
import Folio.Proofs.Placeholder.Expansion
import Folio.Proofs.Placeholder.Rounds
import Folio.Proofs.Latex.Footnote
import Folio.Proofs.Latex.Reader
import Folio.Proofs.Latex.Neutral
import Folio.Proofs.Latex.Listing
import Folio.Proofs.Latex.WellFormed
import Folio.Proofs.FileSystem.Growth
import Folio.Proofs.FileSystem.Resolution
import Folio.Proofs.Action
import Folio.Proofs.FileSystem.Access
import Folio.Proofs.FileSystem.Canonical
import Folio.Proofs.Document
import Folio.Proofs.FileSystem.Order
import Folio.Proofs.Path
import Folio.Proofs.Target
import Folio.Proofs.FileSystem.Descent
import Folio.Proofs.FileSystem.Leads
import Folio.Proofs.FileSystem.Listing
import Folio.Proofs.Batch.Visit
import Folio.Proofs.Batch.Page
import Folio.Proofs.Batch.Run
import Folio.Proofs.Batch.Exact
import Folio.Proofs.Template.Refinement
import Folio.Proofs.Template.Evaluation
import Folio.Proofs.Template.Execution
import Folio.Proofs.Template.Engine
import Folio.Proofs.Placeholder.Order
import Folio.Proofs.Batch.Walk
import Folio.Proofs.FileSystem.Parents
import Folio.Proofs.Batch.Steps
import Folio.Proofs.Batch.Bound
import Folio.Proofs.Batch.Progress
import Folio.Proofs.Batch.Failure
import Folio.Proofs.Batch.Again
import Folio.Proofs.Batch.Sources
import Folio.Proofs.Parameters
import Folio.Proofs.Precedence
import Folio.Proofs.Notices
import Folio.Proofs.Config
import Folio.Proofs.Renderings
import Folio.Proofs.Batch.Renderings
import Folio.Proofs.EffectiveTemplate
import Folio.Proofs.Batch.Ignored
import Folio.Proofs.Title
import Folio.Proofs.Lookup
import Folio.Proofs.Errors
import Folio.Proofs.Latex.Recovery
import Folio.Proofs.Latex.Placement
import Folio.Proofs.Program
import Folio.Proofs.Latex.Escaping
import Folio.Proofs.Latex.Composition
import Folio.Proofs.Markdown.Events
import Folio.Proofs.Latex.Readable
import Folio.Proofs.Latex.Comment
import Folio.Proofs.Placeholder.Stability
import Folio.Proofs.Latex.Reference
import Folio.Proofs.Latex.Printed
import Folio.Proofs.Latex.Argument
import Folio.Proofs.Heading
import Folio.Proofs.Mirror
import Folio.Proofs.Batch.Stems
import Folio.Proofs.Latex.Depth
import Folio.Proofs.Latex.Inline
import Folio.Proofs.Latex.Outside
import Folio.Proofs.Latex.Table
import Folio.Proofs.Lines
import Folio.Proofs.IgnoreFile
import Folio.Proofs.Template.Search
import Folio.Proofs.Overwrites
import Folio.Proofs.SourceFlags
import Folio.Proofs.SourceParameter
import Folio.Proofs.Json
import Folio.Proofs.Insertion
import Folio.Proofs.Glob.Matching
import Folio.Proofs.Glob.Reading
import Folio.Proofs.Batch.Skipped
