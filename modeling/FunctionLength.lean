import FunctionLength.Analysis.Finding
import FunctionLength.Analysis.Run
import FunctionLength.Analysis.Severity
import FunctionLength.Analysis.State
import FunctionLength.CommandLine.Command
import FunctionLength.CommandLine.Console
import FunctionLength.CommandLine.Flag
import FunctionLength.CommandLine.Help
import FunctionLength.CommandLine.Invocation
import FunctionLength.CommandLine.Program
import FunctionLength.FileSystem
import FunctionLength.FileSystem.Change
import FunctionLength.FileSystem.Difference
import FunctionLength.FileSystem.Walk
import FunctionLength.Grammar.Automaton
import FunctionLength.Grammar.Item
import FunctionLength.Grammar.Merge
import FunctionLength.Grammar.Production
import FunctionLength.Grammar.Rule
import FunctionLength.Log
import FunctionLength.Main
import FunctionLength.Parsing.Parser
import FunctionLength.Parsing.Reduction
import FunctionLength.Parsing.Repair
import FunctionLength.Parsing.Stack
import FunctionLength.Parsing.Tree
import FunctionLength.Parsing.View
import FunctionLength.Path
import FunctionLength.Python.Grammar
import FunctionLength.Python.Layout
import FunctionLength.Python.Lexer
import FunctionLength.Python.Outline
import FunctionLength.Python.Reader
import FunctionLength.Python.Tables
import FunctionLength.Python.Terminal
import FunctionLength.Settings
import FunctionLength.Settings.Project
import FunctionLength.Syntax.Declaration
import FunctionLength.Syntax.Node
import FunctionLength.Syntax.Parser
import FunctionLength.Text.Extent
import FunctionLength.Text.Fold
import FunctionLength.Text.Glyph
import FunctionLength.Text.Identifier
import FunctionLength.Text.Integer
import FunctionLength.Text.Pattern
import FunctionLength.Text.Printable
import FunctionLength.Text.Quoted
import FunctionLength.Toml.Document
import FunctionLength.Toml.Expression
import FunctionLength.Toml.Moment
import FunctionLength.Toml.Number
import FunctionLength.Toml.Statement
import FunctionLength.Toml.Text
import FunctionLength.Toml.Value
import FunctionLength.Watch.Notice
import FunctionLength.Watch.Root
import FunctionLength.Watch.Session
import FunctionLength.Watch.Watcher
import FunctionLength.Proofs.Runs
import FunctionLength.Proofs.Consistency
import FunctionLength.Proofs.Attribution
import FunctionLength.Proofs.Independence
import FunctionLength.Proofs.ExitStatus
import FunctionLength.Proofs.Lifecycle
import FunctionLength.Proofs.Spans
import FunctionLength.Proofs.Paths
import FunctionLength.Proofs.Agreement
import FunctionLength.Proofs.Contents
import FunctionLength.Proofs.Coverage
import FunctionLength.Proofs.Limits
import FunctionLength.Proofs.Transcript
import FunctionLength.Proofs.TestFiles
import FunctionLength.Proofs.Changes
import FunctionLength.Proofs.Notices
import FunctionLength.Proofs.WatchedPaths
import FunctionLength.Proofs.LastStatements
import FunctionLength.Proofs.Definitions
import FunctionLength.Proofs.Selection
import FunctionLength.Proofs.Completeness
import FunctionLength.Proofs.Repetition
import FunctionLength.Proofs.Validity
import FunctionLength.Proofs.Arguments
import FunctionLength.Proofs.Levels
import FunctionLength.Proofs.Precedence
import FunctionLength.Proofs.Pauses
