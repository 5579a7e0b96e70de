import LocaleLint.Calendar.Date
import LocaleLint.CommandLine.Outcome
import LocaleLint.CommandLine.Request
import LocaleLint.CommandLine.Similar
import LocaleLint.CommandLine.Usage
import LocaleLint.Config.Load
import LocaleLint.Entries
import LocaleLint.Files.Basic
import LocaleLint.Files.OfStore
import LocaleLint.Journal
import LocaleLint.Lint.File
import LocaleLint.Lint.Resolve
import LocaleLint.Lint.Run
import LocaleLint.Locale.Parse
import LocaleLint.Logging.Entry
import LocaleLint.Logging.Field
import LocaleLint.Logging.Lines
import LocaleLint.Logging.Settings
import LocaleLint.Logging.Stamp
import LocaleLint.Logging.Template
import LocaleLint.Main
import LocaleLint.Number.Binary64
import LocaleLint.Number.Numeral
import LocaleLint.Number.Shortest
import LocaleLint.Number.Style
import LocaleLint.Pattern.Basic
import LocaleLint.Pattern.Bracket
import LocaleLint.Pattern.Find
import LocaleLint.Proofs.Rule.Violation
import LocaleLint.Proofs.Tree.Nodes
import LocaleLint.Report.Basic
import LocaleLint.Report.Buckets
import LocaleLint.Report.Printed
import LocaleLint.Report.Session
import LocaleLint.Report.Validator
import LocaleLint.Rule.Basic
import LocaleLint.Rule.Condition
import LocaleLint.Rule.Search
import LocaleLint.Store.Basic
import LocaleLint.Store.Path
import LocaleLint.Store.Update
import LocaleLint.Text.Ansi
import LocaleLint.Text.Blank
import LocaleLint.Text.Blocks
import LocaleLint.Text.Digit
import LocaleLint.Text.Newline
import LocaleLint.Text.Order
import LocaleLint.Text.Printable
import LocaleLint.Text.Quoted
import LocaleLint.Text.Search
import LocaleLint.Text.Surrogate
import LocaleLint.Text.Utf8
import LocaleLint.Text.Word
import LocaleLint.Tree.Basic
import LocaleLint.Tree.Build
import LocaleLint.Tree.Key
import LocaleLint.Tree.Walk
import LocaleLint.Value.Basic
import LocaleLint.Value.Printed
import LocaleLint.Value.Scalar
import LocaleLint.Value.SetOrder
import LocaleLint.Yaml.Cursor
import LocaleLint.Yaml.Document
import LocaleLint.Yaml.Document.Unfold
import LocaleLint.Yaml.Error
import LocaleLint.Yaml.Graph
import LocaleLint.Yaml.Graph.OfTokens
import LocaleLint.Yaml.Load
import LocaleLint.Yaml.Scalar
import LocaleLint.Yaml.Tag
import LocaleLint.Yaml.Token
import LocaleLint.Yaml.Token.BlockScalar
import LocaleLint.Yaml.Token.FlowScalar
import LocaleLint.Yaml.Token.Plain
import LocaleLint.Yaml.Token.Property
import LocaleLint.Yaml.Token.Stream
import LocaleLint.Proofs.Report.Check
import LocaleLint.Proofs.Journal
import LocaleLint.Proofs.Logging.Messages
import LocaleLint.Proofs.Lint.File
import LocaleLint.Proofs.Lint.Resolve
import LocaleLint.Proofs.Lint.Run
import LocaleLint.Proofs.Tree.Slots
import LocaleLint.Proofs.Locale.Escape
import LocaleLint.Proofs.Entries
import LocaleLint.Proofs.Yaml.Steps
import LocaleLint.Proofs.Yaml.Merge
import LocaleLint.Proofs.Yaml.Filling
import LocaleLint.Proofs.Yaml.Built
import LocaleLint.Proofs.Yaml.Reading
import LocaleLint.Proofs.Locale.Spelling
import LocaleLint.Proofs.Report.Session
import LocaleLint.Proofs.Tree.Paths
import LocaleLint.Proofs.Tree.Segments
import LocaleLint.Proofs.Report.Addresses
import LocaleLint.Proofs.Report.Counts
import LocaleLint.Proofs.Tree.Builds
import LocaleLint.Proofs.Tree.Reordered
import LocaleLint.Proofs.Report.Order
import LocaleLint.Proofs.Value.Within
import LocaleLint.Proofs.Tree.Build
import LocaleLint.Proofs.Report.Decoding
import LocaleLint.Proofs.Lint.Printed
import LocaleLint.Proofs.Logging.Usable
import LocaleLint.Proofs.CommandLine.Configuration
import LocaleLint.Proofs.CommandLine.ExitCode
import LocaleLint.Proofs.Rule.Search
import LocaleLint.Proofs.Report.OneClause
import LocaleLint.Proofs.Tree.Preorder
import LocaleLint.Proofs.Tree.Edited
import LocaleLint.Proofs.Report.Locality
import LocaleLint.Proofs.Tree.Texts
import LocaleLint.Proofs.Lint.Order
import LocaleLint.Proofs.Report.Lists
import LocaleLint.Proofs.Locale.FirstFault
import LocaleLint.Proofs.Text.Separator
import LocaleLint.Proofs.Rule.KeyTests
import LocaleLint.Proofs.Text.Utf8
import LocaleLint.Proofs.Lint.LineEnds
import LocaleLint.Proofs.Value.Endless
import LocaleLint.Proofs.Tree.Endless
import LocaleLint.Proofs.Yaml.Unrolling
import LocaleLint.Proofs.Yaml.Fitting
import LocaleLint.Proofs.Yaml.Depth
import LocaleLint.Proofs.Locale.SelfContaining
