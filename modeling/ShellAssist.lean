import ShellAssist.Candidate
import ShellAssist.Cli.Arguments
import ShellAssist.Cli.Command
import ShellAssist.Cli.Session
import ShellAssist.Completion.Backend
import ShellAssist.Completion.Cache
import ShellAssist.Completion.Completer
import ShellAssist.Completion.Help
import ShellAssist.Completion.Hosts
import ShellAssist.Completion.Listing
import ShellAssist.Completion.Query
import ShellAssist.Config
import ShellAssist.Failure
import ShellAssist.History.Archive
import ShellAssist.History.Dialect.Bash
import ShellAssist.History.Dialect.Fish
import ShellAssist.History.Dialect.Journal
import ShellAssist.History.Dialect.Zsh
import ShellAssist.History.Entry
import ShellAssist.History.Merge
import ShellAssist.History.Provider
import ShellAssist.History.Search
import ShellAssist.History.ShellLog
import ShellAssist.History.Stats
import ShellAssist.History.Store
import ShellAssist.Host.Disk
import ShellAssist.Host.Environment
import ShellAssist.Host.Path
import ShellAssist.Host.Shell
import ShellAssist.Host.World
import ShellAssist.Json.Basic
import ShellAssist.Json.Fault
import ShellAssist.Json.Printer
import ShellAssist.Json.Value
import ShellAssist.Json.Reader
import ShellAssist.Line.Context
import ShellAssist.Line.Token
import ShellAssist.Log
import ShellAssist.Main
import ShellAssist.Number.Arithmetic
import ShellAssist.Number.Decimal
import ShellAssist.Number.Double
import ShellAssist.Number.Numeral
import ShellAssist.Number.Rounding
import ShellAssist.Proofs.Failure
import ShellAssist.Proofs.FirstOccurrences
import ShellAssist.Proofs.Sorting
import ShellAssist.Proofs.Number.Digits
import ShellAssist.Proofs.Number.Nearest
import ShellAssist.Proofs.Number.Shortest
import ShellAssist.Proofs.Number.Order
import ShellAssist.Proofs.Number.Monotone
import ShellAssist.Proofs.Number.Range
import ShellAssist.Proofs.Number.FloatBounds
import ShellAssist.Proofs.Time.Range
import ShellAssist.Proofs.Json.Strings
import ShellAssist.Proofs.Json.Values
import ShellAssist.Proofs.Json.Members
import ShellAssist.Proofs.Json.Plain
import ShellAssist.Proofs.Json.RoundTrip
import ShellAssist.Proofs.Text.Basic
import ShellAssist.Proofs.Text.Lines
import ShellAssist.Proofs.Text.Strip
import ShellAssist.Proofs.Text.Sort
import ShellAssist.Proofs.Host.Disk
import ShellAssist.Proofs.Host.Entries
import ShellAssist.Proofs.Host.Frame
import ShellAssist.Proofs.History.Journal
import ShellAssist.Proofs.History.Replacement
import ShellAssist.Proofs.History.Saving
import ShellAssist.Proofs.History.Runs
import ShellAssist.Proofs.History.Durability
import ShellAssist.Proofs.History.Confinement
import ShellAssist.Proofs.History.ArchiveRuns
import ShellAssist.Proofs.History.WriteFailures
import ShellAssist.Proofs.History.ReadFailures
import ShellAssist.Proofs.History.Merge
import ShellAssist.Proofs.History.Truncation
import ShellAssist.Proofs.History.Recency
import ShellAssist.Proofs.History.Finding
import ShellAssist.Proofs.History.Pipeline
import ShellAssist.Proofs.History.Tally
import ShellAssist.Proofs.History.Combined
import ShellAssist.Proofs.History.Frequency
import ShellAssist.Proofs.Host.Action
import ShellAssist.Proofs.Host.InStep
import ShellAssist.Proofs.Host.Alongside
import ShellAssist.Proofs.Host.Ambient
import ShellAssist.Proofs.History.Snapshot
import ShellAssist.Proofs.History.Refusals
import ShellAssist.Proofs.History.Import
import ShellAssist.Proofs.History.Chronology
import ShellAssist.Proofs.History.BashCommands
import ShellAssist.Proofs.History.StoreLines
import ShellAssist.Proofs.History.FishRecords
import ShellAssist.Proofs.History.ZshRecords
import ShellAssist.Proofs.History.ZshWriting
import ShellAssist.Proofs.History.ZshUntimed
import ShellAssist.Proofs.History.ZshExport
import ShellAssist.Proofs.History.ZshBytes
import ShellAssist.Proofs.History.Mirror
import ShellAssist.Proofs.Line.Words
import ShellAssist.Proofs.Line.Cuts
import ShellAssist.Proofs.Line.Quoting
import ShellAssist.Proofs.Completion.Sources
import ShellAssist.Proofs.Completion.Offers
import ShellAssist.Proofs.Completion.Contract
import ShellAssist.Proofs.Completion.Insertion
import ShellAssist.Proofs.Text.Lower
import ShellAssist.Proofs.Text.FinalSigma
import ShellAssist.Proofs.Text.Folded
import ShellAssist.Proofs.Score.Edits
import ShellAssist.Proofs.Score.Places
import ShellAssist.Proofs.Score.Matching
import ShellAssist.Proofs.Score.Doubles
import ShellAssist.Proofs.Score.Highlight
import ShellAssist.Proofs.Score.Leftmost
import ShellAssist.Proofs.Score.Marks
import ShellAssist.Proofs.Score.Ranges
import ShellAssist.Proofs.Score.Typos
import ShellAssist.Proofs.Completion.Relevance
import ShellAssist.Proofs.Completion.Cache
import ShellAssist.Proofs.Completion.Asking
import ShellAssist.Proofs.Completion.Ranking
import ShellAssist.Proofs.Completion.Precedence
import ShellAssist.Proofs.Completion.Snapshot
import ShellAssist.Proofs.Completion.Unanswered
import ShellAssist.Proofs.Completion.SideBySide
import ShellAssist.Proofs.Completion.WithoutShell
import ShellAssist.Proofs.Completion.Listing
import ShellAssist.Proofs.Completion.NamedDirectories
import ShellAssist.Proofs.Completion.FilterRanking
import ShellAssist.Proofs.Completion.HelpOptions
import ShellAssist.Proofs.Completion.Programs
import ShellAssist.Score.Basic
import ShellAssist.Score.EditDistance
import ShellAssist.Score.Filter
import ShellAssist.Score.Ranker
import ShellAssist.Score.Subsequence
import ShellAssist.Screen.Markup
import ShellAssist.Screen.Plain
import ShellAssist.Screen.Show
import ShellAssist.Text.Basic
import ShellAssist.Text.Blank
import ShellAssist.Text.ControlSequence
import ShellAssist.Text.Hex
import ShellAssist.Text.Letter
import ShellAssist.Text.Lines
import ShellAssist.Text.Lower
import ShellAssist.Text.Quoted
import ShellAssist.Text.Table.Cased
import ShellAssist.Text.Table.DecimalDigit
import ShellAssist.Text.Table.LowerCase
import ShellAssist.Text.Table.Unprintable
import ShellAssist.Text.Table.UpperCase
import ShellAssist.Text.Table.WordChar
import ShellAssist.Text.Upper
import ShellAssist.Text.Utf8
import ShellAssist.Time.Age
import ShellAssist.Time.Calendar
