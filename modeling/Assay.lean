import Assay.Calendar
import Assay.Category
import Assay.CommandLine
import Assay.CommandLine.Arguments
import Assay.CommandLine.Commands
import Assay.CommandLine.Console
import Assay.CommandLine.Grammar
import Assay.CommandLine.Reader
import Assay.Comparison
import Assay.Corpus
import Assay.Corpus.Annotation
import Assay.Corpus.Coverage
import Assay.Corpus.Load
import Assay.CorpusPath
import Assay.Crosswalk
import Assay.Crosswalk.File
import Assay.Defect
import Assay.Diagnostics
import Assay.Digest
import Assay.Environment
import Assay.Evaluation
import Assay.Fault
import Assay.Files.Disk
import Assay.Files.Document
import Assay.Files.Path
import Assay.Finding
import Assay.Invocation
import Assay.Invocation.Template
import Assay.Json.Reader
import Assay.Json.Writer
import Assay.Main
import Assay.MatchResult
import Assay.Matching
import Assay.Matching.Assignment
import Assay.Matching.Component
import Assay.Matching.Forest
import Assay.Matching.Settings
import Assay.Matching.Weight
import Assay.Metrics
import Assay.Normalize
import Assay.Number.Binary64
import Assay.Number.Decimal
import Assay.Number.Numeral
import Assay.Number.Power
import Assay.Number.Rounding
import Assay.Number.Shortest
import Assay.Proofs.AcceptedSettings
import Assay.Proofs.Accounting
import Assay.Proofs.AnnotationFaults
import Assay.Proofs.Assignment.Matrices
import Assay.Proofs.Assignment.Optimum
import Assay.Proofs.Assignment.Passes
import Assay.Proofs.Assignment.Placement
import Assay.Proofs.Assignment.Problems
import Assay.Proofs.Assignment.Search
import Assay.Proofs.BlockComparison
import Assay.Proofs.BlurredRatios
import Assay.Proofs.BuiltReports
import Assay.Proofs.CandidateRule
import Assay.Proofs.Candidates
import Assay.Proofs.Chosen
import Assay.Proofs.CollapsedPaths
import Assay.Proofs.CompilerLines
import Assay.Proofs.Component
import Assay.Proofs.ConcurrentRuns
import Assay.Proofs.Confidences
import Assay.Proofs.CorpusDigests
import Assay.Proofs.CorpusFaults
import Assay.Proofs.CorruptRuns
import Assay.Proofs.CrosswalkBuilder
import Assay.Proofs.DayCapacity
import Assay.Proofs.Decoding
import Assay.Proofs.DiagnosticHistories
import Assay.Proofs.DiskPlaces
import Assay.Proofs.DocumentText
import Assay.Proofs.DoubleValues
import Assay.Proofs.Doubles
import Assay.Proofs.EnvironmentFile
import Assay.Proofs.ExactRatios
import Assay.Proofs.Faultless
import Assay.Proofs.FileResults
import Assay.Proofs.FileText
import Assay.Proofs.Forest
import Assay.Proofs.FrozenCrosswalks
import Assay.Proofs.Heaviest
import Assay.Proofs.InputOrder
import Assay.Proofs.JsonDocuments
import Assay.Proofs.JsonTokens
import Assay.Proofs.LoadedCorpus
import Assay.Proofs.MalformedResults
import Assay.Proofs.Monotonicity
import Assay.Proofs.Normalization
import Assay.Proofs.OneToOne
import Assay.Proofs.Optimality
import Assay.Proofs.PathAgreement
import Assay.Proofs.PathSpellings
import Assay.Proofs.Preference
import Assay.Proofs.Ranking
import Assay.Proofs.RecordRecovery
import Assay.Proofs.Refusals
import Assay.Proofs.RegisteredRows
import Assay.Proofs.RegressionVerdict
import Assay.Proofs.Reordering
import Assay.Proofs.ReportNumbers
import Assay.Proofs.ReportStorage
import Assay.Proofs.ReportedDifferences
import Assay.Proofs.Results
import Assay.Proofs.RoundedDoubles
import Assay.Proofs.RunIds
import Assay.Proofs.RunListing
import Assay.Proofs.RunOrder
import Assay.Proofs.Scores
import Assay.Proofs.SettingsPrecedence
import Assay.Proofs.SharedSpots
import Assay.Proofs.ShortestDecimals
import Assay.Proofs.StoreHistory
import Assay.Proofs.StoredRuns
import Assay.Proofs.SuccessiveRuns
import Assay.Proofs.Tallies
import Assay.Proofs.TextParts
import Assay.Proofs.WellFormedCorpus
import Assay.Report
import Assay.RunStore
import Assay.RunStore.Allocation
import Assay.Settings
import Assay.Severity
import Assay.Shell
import Assay.Shell.Machine
import Assay.Shell.Program
import Assay.Shell.Script
import Assay.Shell.Words
import Assay.Sorting
import Assay.Text.Alphanumeric
import Assay.Text.Blank
import Assay.Text.Case
import Assay.Text.CaseTable
import Assay.Text.Cased
import Assay.Text.Digit
import Assay.Text.Hex
import Assay.Text.Line
import Assay.Text.Printable
import Assay.Text.Quoted
import Assay.Text.Ranges
import Assay.Text.Surrogate
import Assay.Text.Utf8
import Assay.Timestamp
import Assay.Tool
import Assay.Tool.Compiler
import Assay.Tool.Cppcheck
import Assay.Tool.Format
import Assay.Tool.JsonLines
import Assay.Tool.Record
import Assay.Tool.Sarif
import Assay.Tool.Semgrep
import Assay.Value
import Assay.Value.Convert
import Assay.Value.Display
import Assay.Xml.Element
import Assay.Xml.Name
import Assay.Xml.Prolog
import Assay.Xml.Reader
import Assay.Xml.Scan
import Assay.Yaml.Cursor
import Assay.Yaml.Document
import Assay.Yaml.Node
import Assay.Yaml.Scalar
import Assay.Yaml.Token
import Assay.Yaml.Word
