import WebAudit.Analysis.Catalogue
import WebAudit.Analysis.Outcome
import WebAudit.Analysis.Parsed
import WebAudit.Archive.Bits
import WebAudit.Archive.CodeTable
import WebAudit.Archive.Entry
import WebAudit.Archive.Inflate
import WebAudit.Archive.Session
import WebAudit.Archive.Stream
import WebAudit.Classify
import WebAudit.Collect.Collector
import WebAudit.Collect.Entries
import WebAudit.Collect.Folder
import WebAudit.Collect.Ledger
import WebAudit.Collect.Page
import WebAudit.Collect.Skip
import WebAudit.Concern
import WebAudit.Config.Invalid
import WebAudit.Config.Source
import WebAudit.Config.Toggles
import WebAudit.Digest.Crc32
import WebAudit.Digest.Sha256
import WebAudit.Disk.Tree
import WebAudit.Disk.Walk
import WebAudit.Finding.Basic
import WebAudit.Finding.Detector
import WebAudit.Finding.Order
import WebAudit.Finding.Snippet
import WebAudit.Finding.Summary
import WebAudit.Imports.Cycle
import WebAudit.Imports.Findings
import WebAudit.Imports.Graph
import WebAudit.Issue
import WebAudit.Journal.Entry
import WebAudit.Journal.Event
import WebAudit.Journal.Message
import WebAudit.Journal.Summary
import WebAudit.Journal.Timestamp
import WebAudit.Journal.Wording
import WebAudit.Json.Decode
import WebAudit.Json.Encode
import WebAudit.Json.Value
import WebAudit.LineRules
import WebAudit.Markup.Checks
import WebAudit.Markup.Detectors
import WebAudit.Markup.Document
import WebAudit.Markup.Event
import WebAudit.Markup.NamedCharacter
import WebAudit.Markup.Reference
import WebAudit.Markup.Rules
import WebAudit.Markup.Tree
import WebAudit.Number.Double
import WebAudit.Number.Magnitude
import WebAudit.Number.Notation
import WebAudit.Number.Rounding
import WebAudit.Path.Normal
import WebAudit.Record
import WebAudit.Run.Audit
import WebAudit.Run.Progress
import WebAudit.Run.Schedule
import WebAudit.Run.Tally
import WebAudit.Run.Work
import WebAudit.Script.Detectors
import WebAudit.Script.Grammar.Definition
import WebAudit.Script.Grammar.Element
import WebAudit.Script.Grammar.Expression
import WebAudit.Script.Grammar.Goal
import WebAudit.Script.Grammar.Name
import WebAudit.Script.Grammar.Pattern
import WebAudit.Script.Grammar.Statement
import WebAudit.Script.Grammar.TypeSyntax
import WebAudit.Script.Kind
import WebAudit.Script.Lexeme
import WebAudit.Script.Node
import WebAudit.Script.Parse
import WebAudit.Script.Performance
import WebAudit.Script.Point
import WebAudit.Script.Quality
import WebAudit.Script.Query
import WebAudit.Script.Reader
import WebAudit.Script.Repair
import WebAudit.Script.Rules
import WebAudit.Script.Security
import WebAudit.Script.Source
import WebAudit.Script.Sql
import WebAudit.Stylesheet.Brightness
import WebAudit.Stylesheet.Checks
import WebAudit.Stylesheet.Comments
import WebAudit.Stylesheet.Construct
import WebAudit.Stylesheet.Detectors
import WebAudit.Stylesheet.Document
import WebAudit.Stylesheet.Grammar
import WebAudit.Stylesheet.Locator
import WebAudit.Stylesheet.Media
import WebAudit.Stylesheet.Notes
import WebAudit.Stylesheet.Property
import WebAudit.Stylesheet.Rules
import WebAudit.Stylesheet.Selector
import WebAudit.Stylesheet.Setting
import WebAudit.Stylesheet.Sheet
import WebAudit.Stylesheet.Spelling
import WebAudit.Stylesheet.Statement
import WebAudit.Stylesheet.Term
import WebAudit.Stylesheet.Token
import WebAudit.Stylesheet.TopLevel
import WebAudit.Stylesheet.Unknown
import WebAudit.Stylesheet.Value
import WebAudit.Table
import WebAudit.Text.Blank
import WebAudit.Text.Charset
import WebAudit.Text.CodePage437
import WebAudit.Text.Digit
import WebAudit.Text.Edges
import WebAudit.Text.FileName
import WebAudit.Text.Glob
import WebAudit.Text.Lines
import WebAudit.Text.Lowercase
import WebAudit.Text.Printable
import WebAudit.Text.Quoted
import WebAudit.Text.Slice
import WebAudit.Text.Utf8
import WebAudit.Text.WordChar
import WebAudit.Url.Basic
import WebAudit.Url.Host
import WebAudit.Url.Join
import WebAudit.Web.Address
import WebAudit.Web.Fetch
import WebAudit.Proofs.Finding.Order
import WebAudit.Proofs.Imports.Graph
import WebAudit.Proofs.Imports.Search
import WebAudit.Proofs.Imports.Soundness
import WebAudit.Proofs.Imports.Completeness
import WebAudit.Proofs.Imports.DeadFiles
import WebAudit.Proofs.Collect.Agreement
import WebAudit.Proofs.Analysis.Rules
import WebAudit.Proofs.Analysis.Selection
import WebAudit.Proofs.Run.Selection
import WebAudit.Proofs.Finding.Ids
import WebAudit.Proofs.Finding.Outline
import WebAudit.Proofs.Run.Tally
import WebAudit.Proofs.Run.MergeOrder
import WebAudit.Proofs.Analysis.Embedded
import WebAudit.Proofs.Collect.Whole
import WebAudit.Proofs.Run.Collected
import WebAudit.Proofs.Run.Conservation
import WebAudit.Proofs.Path.Plain
import WebAudit.Proofs.Disk.Walk
import WebAudit.Proofs.Collect.SameFiles
import WebAudit.Proofs.Text.Pieces
import WebAudit.Proofs.Path.Contained
import WebAudit.Proofs.Collect.Judgement
import WebAudit.Proofs.Collect.Contained
import WebAudit.Proofs.Archive.Faults
import WebAudit.Proofs.Collect.Isolation
import WebAudit.Proofs.Collect.Reasons
import WebAudit.Proofs.Collect.Requests
import WebAudit.Proofs.Markup.Steps
import WebAudit.Proofs.Markup.Verbatim
import WebAudit.Proofs.Markup.BlockLines
import WebAudit.Script.Splitting
import WebAudit.Proofs.Script.Places
import WebAudit.Proofs.Text.Newlines
import WebAudit.Proofs.Analysis.MarkedLine
import WebAudit.Proofs.Url.Accepted
import WebAudit.Proofs.Analysis.FollowedAssets
import WebAudit.Proofs.Run.ImportFindings
import WebAudit.Proofs.Archive.Declared
import WebAudit.Proofs.Archive.Ceilings
import WebAudit.Proofs.Disk.WalkOrder
import WebAudit.Proofs.Collect.ExactFolder
import WebAudit.Proofs.Run.Progress
import WebAudit.Proofs.Analysis.Hits
import WebAudit.Proofs.Run.WellFormed
import WebAudit.Proofs.Run.Cancellation
import WebAudit.Proofs.Json.Numerals
import WebAudit.Proofs.Journal.Statistics
import WebAudit.Proofs.Finding.Finalize
import WebAudit.Proofs.Text.Utf8
import WebAudit.Proofs.Collect.Origins
import WebAudit.Proofs.Analysis.Failures
import WebAudit.Proofs.Stylesheet.Canonical
import WebAudit.Proofs.Stylesheet.Lookups
import WebAudit.Proofs.Stylesheet.Places
import WebAudit.Proofs.Stylesheet.Selectors
import WebAudit.Proofs.Script.Trees
import WebAudit.Proofs.Script.Enclosing
import WebAudit.Proofs.Script.Concatenations
import WebAudit.Proofs.Script.Templates
import WebAudit.Proofs.Markup.ScriptTags
import WebAudit.Proofs.Script.Quality
import WebAudit.Proofs.Imports.Targets
