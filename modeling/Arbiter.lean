import Arbiter.Json.Decode
import Arbiter.Json.Reader
import Arbiter.Json.Writer
import Arbiter.Text.Blank
import Arbiter.Text.Letter
import Arbiter.Text.Lowercase
import Arbiter.Text.Quoted
import Arbiter.Syntax.Stmt
import Arbiter.Syntax.Token.Lexer
import Arbiter.Syntax.Parser.Operator
import Arbiter.Syntax.Parser
import Arbiter.Syntax.Stmt.Printer
import Arbiter.Syntax.Equality
import Arbiter.Syntax.Occurrence
import Arbiter.Canon.Numbering
import Arbiter.Flow.Graph
import Arbiter.Dependence.OfFlow
import Arbiter.Similarity.Report
import Arbiter.Record.Job
import Arbiter.Record.Language
import Arbiter.Record.Problem
import Arbiter.Record.Submission
import Arbiter.Record.Task
import Arbiter.Registry
import Arbiter.Sandbox.Container
import Arbiter.Settings
import Arbiter.Work.Core
import Arbiter.Proofs.Flow.Links
import Arbiter.Proofs.Flow.WellFormed
import Arbiter.Proofs.Flow.Sweep
import Arbiter.Proofs.Dependence.Control
import Arbiter.Proofs.Dependence.Data
import Arbiter.Proofs.Canon.Renaming
import Arbiter.Proofs.Syntax.Occurrence
import Arbiter.Proofs.Flow.Relabel
import Arbiter.Proofs.Dependence.Renaming
import Arbiter.Proofs.Similarity.Matching
import Arbiter.Proofs.Similarity.Extraction
import Arbiter.Proofs.Similarity.Pairing
import Arbiter.Proofs.Similarity.Renaming
import Arbiter.Proofs.Similarity.MatchedEdges
import Arbiter.Proofs.Similarity.Picture
import Arbiter.Proofs.Judging.Record
import Arbiter.Proofs.Parsing.Kinds
import Arbiter.Proofs.Parsing.Level
import Arbiter.Proofs.Parsing.Numeral
import Arbiter.Proofs.Parsing.Spelling
import Arbiter.Proofs.Parsing.Sound
import Arbiter.Proofs.Parsing.Rendering
import Arbiter.Proofs.Parsing.Readable
import Arbiter.Proofs.Parsing.Displays
import Arbiter.Proofs.Parsing.Clauses
import Arbiter.Proofs.Parsing.Operators
import Arbiter.Proofs.Parsing.Loose
import Arbiter.Proofs.Parsing.RoundTrip
import Arbiter.Proofs.Parsing.Layout
import Arbiter.Proofs.Plagiarism.Ranking
import Arbiter.Proofs.Store.Frame
import Arbiter.Proofs.Work.System
import Arbiter.Proofs.Plagiarism.Findings
import Arbiter.Proofs.Judging.Usage
import Arbiter.Proofs.Work.History
import Arbiter.Proofs.Judging.Answers
import Arbiter.Proofs.Judging.Tally
import Arbiter.Proofs.Work.Crowd
import Arbiter.Proofs.Work.Life
import Arbiter.Proofs.Judging.Bench
import Arbiter.Proofs.Judging.Apart
import Arbiter.Proofs.Judging.Settle
import Arbiter.Proofs.Judging.Afresh
import Arbiter.Proofs.Judging.Discipline
import Arbiter.Proofs.Plagiarism.Completion
import Arbiter.Proofs.Plagiarism.Caching
import Arbiter.Proofs.Work.Shutdown
import Arbiter.Proofs.Canon.Cut
import Arbiter.Proofs.Canon.CutPattern
import Arbiter.Proofs.Canon.Relabel
import Arbiter.Proofs.Canon.Lines
import Arbiter.Proofs.Canon.RelabelStmt
import Arbiter.Proofs.Flow.Contents
import Arbiter.Proofs.Parsing.BlankLine
import Arbiter.Proofs.Command.Gate
import Arbiter.Proofs.Record.RoundTrip
import Arbiter.Proofs.Canon.Faithful
import Arbiter.Proofs.Flow.Collect
import Arbiter.Proofs.Parsing.Contexts
import Arbiter.Proofs.Judging.Score
import Arbiter.Proofs.Judging.Trial
import Arbiter.Proofs.Judging.Stored
import Arbiter.Proofs.Judging.Grade
import Arbiter.Proofs.Judging.Final
import Arbiter.Proofs.Parsing.Bodies
import Arbiter.Proofs.Canon.Names
import Arbiter.Proofs.Dependence.Formats
import Arbiter.Proofs.Parsing.Pieces
import Arbiter.Proofs.Parsing.Termination
import Arbiter.Proofs.Parsing.StmtEcho
