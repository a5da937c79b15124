import FormOntology.Text.Blank
import FormOntology.Text.Offset
import FormOntology.Digest
import FormOntology.Turtle.Inert
import FormOntology.Turtle.Comment
import FormOntology.Turtle.Escape
import FormOntology.Vocabulary
import FormOntology.Source.Basic
import FormOntology.FileTree
import FormOntology.Source.Load
import FormOntology.Span
import FormOntology.Unicode.Category
import FormOntology.Unicode.Script
import FormOntology.Unicode.Property
import FormOntology.Unicode.Folding
import FormOntology.Declaration.Header
import FormOntology.Declaration.Block
import FormOntology.Declaration.Iterator
import FormOntology.Turtle.Literal
import FormOntology.Declaration.Enumeration
import FormOntology.Declaration.Attributes
import FormOntology.Declaration.Range
import FormOntology.Pattern.Basic
import FormOntology.Pattern.Atom
import FormOntology.Pattern.Bracket
import FormOntology.Pattern.Reader
import FormOntology.Decimal.Dyadic
import FormOntology.Decimal.Number
import FormOntology.Json.Basic
import FormOntology.Json.Tree
import FormOntology.Json.Value
import FormOntology.Diagnostic
import FormOntology.Declaration.Basic
import FormOntology.Schema.Control
import FormOntology.Schema.Section
import FormOntology.Schema.Basic
import FormOntology.Schema.Classification
import FormOntology.Schema.Assembly
import FormOntology.Schema.Compiler
import FormOntology.Calendar
import FormOntology.Submission.Basic
import FormOntology.Submission.Report
import FormOntology.Submission.Check
import FormOntology.Settings.Address
import FormOntology.Settings.Basic
import FormOntology.Settings.Resolve
import FormOntology.Publisher
import FormOntology.Publisher.Run
import FormOntology.Server
import FormOntology.Command.Arguments
import FormOntology.Command.Basic
import FormOntology.Command.Run
import FormOntology.Main
import FormOntology.Proofs.Text.Blank
import FormOntology.Proofs.Text.Offset
import FormOntology.Proofs.Unicode.Words
import FormOntology.Proofs.Turtle.Runs
import FormOntology.Proofs.Turtle.Segments
import FormOntology.Proofs.Turtle.Closed
import FormOntology.Proofs.Turtle.Marks
import FormOntology.Proofs.Turtle.Masking
import FormOntology.Proofs.Turtle.Bodies
import FormOntology.Proofs.Turtle.Literals
import FormOntology.Proofs.Declaration.Tokens
import FormOntology.Proofs.Declaration.Header
import FormOntology.Proofs.Declaration.Anchors
import FormOntology.Proofs.Declaration.Terminator
import FormOntology.Proofs.Declaration.Blocks
import FormOntology.Proofs.Declaration.Borders
import FormOntology.Proofs.Declaration.Enclosed
import FormOntology.Proofs.Declaration.Search
import FormOntology.Proofs.Declaration.Objects
import FormOntology.Proofs.Declaration.Live
import FormOntology.Proofs.Declaration.Masked
import FormOntology.Proofs.Declaration.Comments
import FormOntology.Proofs.Declaration.Spans
import FormOntology.Proofs.Declaration.Literals
import FormOntology.Proofs.Schema.Assembly
import FormOntology.Proofs.Submission.Options
import FormOntology.Proofs.Source.Documents
import FormOntology.Proofs.Except
import FormOntology.Proofs.Source.Loading
import FormOntology.Proofs.Publisher.History
import FormOntology.Proofs.Pattern.Matching
import FormOntology.Proofs.Pattern.Space
import FormOntology.Proofs.Pattern.Atoms
import FormOntology.Proofs.Pattern.Brackets
import FormOntology.Proofs.Pattern.Bodies
import FormOntology.Proofs.Pattern.Anchored
import FormOntology.Proofs.Schema.Classification
import FormOntology.Proofs.Schema.Placement
import FormOntology.Proofs.Schema.Diagnostics
import FormOntology.Proofs.Text.Bytes
import FormOntology.Proofs.Submission.Patterns
import FormOntology.Proofs.Submission.Reports
import FormOntology.Proofs.Source.SelfContained
import FormOntology.Proofs.Turtle.Written
import FormOntology.Proofs.Declaration.Passing
import FormOntology.Proofs.Declaration.Writing
import FormOntology.Proofs.Declaration.RoundTrip
import FormOntology.Server.Run
import FormOntology.Proofs.Json.Members
import FormOntology.Proofs.Json.Reading
import FormOntology.Proofs.Schema.Fingerprint
import FormOntology.Proofs.Server.History
import FormOntology.Proofs.Json.Appending
import FormOntology.Proofs.Submission.Wrapping
import FormOntology.Proofs.Command.Judging
import FormOntology.Proofs.Schema.FailClosed
import FormOntology.Proofs.Declaration.Lines
import FormOntology.Proofs.Declaration.Clauses
import FormOntology.Proofs.Declaration.ForeignClauses
import FormOntology.Proofs.Turtle.LongLiterals
import FormOntology.Proofs.Declaration.LongLiterals
import FormOntology.Proofs.Calendar.Spelling
import FormOntology.Proofs.Submission.Dates
import FormOntology.Proofs.Json.Printed
import FormOntology.Proofs.Submission.Respelling
import FormOntology.Proofs.Source.Recovery
import FormOntology.Proofs.Turtle.Erasing
import FormOntology.Proofs.Declaration.Entries
import FormOntology.Proofs.Declaration.Headerless
import FormOntology.Proofs.Declaration.Enumerations
import FormOntology.Proofs.Digest.Edits
import FormOntology.Proofs.Publisher.Edits
import FormOntology.Proofs.FileTree.Writing
import FormOntology.Proofs.Command.Strictness
import FormOntology.Proofs.Turtle.Bytewise
import FormOntology.Proofs.Declaration.Slices
import FormOntology.Proofs.Vocabulary
import FormOntology.Proofs.Settings.Layers
