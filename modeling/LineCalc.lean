import LineCalc.Answer
import LineCalc.Arithmetic
import LineCalc.Outcome
import LineCalc.CommandLine.Arguments
import LineCalc.CommandLine.Health
import LineCalc.CommandLine.Help
import LineCalc.CommandLine.Request
import LineCalc.CommandLine.Run
import LineCalc.Decimal.Basic
import LineCalc.Decimal.Layout
import LineCalc.Decimal.Numeral
import LineCalc.Desk
import LineCalc.Double
import LineCalc.Editor.Basic
import LineCalc.Editor.Edit
import LineCalc.Editor.Key
import LineCalc.Editor.Modes
import LineCalc.Editor.Motion
import LineCalc.Entries
import LineCalc.Environment
import LineCalc.Error
import LineCalc.SavedState
import LineCalc.Json.Basic
import LineCalc.Json.Display
import LineCalc.Json.Reader
import LineCalc.Json.Writer
import LineCalc.Log
import LineCalc.Main
import LineCalc.Plot.Domain
import LineCalc.Power
import LineCalc.Proofs.Grammar
import LineCalc.Proofs.Reckoner.Feed
import LineCalc.Proofs.Reckoner.Grammar
import LineCalc.Proofs.Reckoner.Scan
import LineCalc.Proofs.Token.Kind
import LineCalc.Reckoner
import LineCalc.Repl
import LineCalc.Report
import LineCalc.Screen.Basic
import LineCalc.Screen.Key
import LineCalc.Session
import LineCalc.Settings
import LineCalc.Store.Basic
import LineCalc.Store.Error
import LineCalc.Store.Path
import LineCalc.Text.CharClass
import LineCalc.Text.Blank
import LineCalc.Text.DecimalDigit
import LineCalc.Text.Surrogate
import LineCalc.Text.Utf8
import LineCalc.Token.Basic
import LineCalc.Token.Lexer
import LineCalc.Proofs.Token.Lexer
import LineCalc.Proofs.Token.Substitution
import LineCalc.Proofs.Reckoner.Substitution
import LineCalc.Proofs.Unknowns
import LineCalc.Proofs.Outcome.Substitution
import LineCalc.Proofs.Reckoner.Form
import LineCalc.Proofs.Assignment
import LineCalc.Proofs.Outcome.Dispatch
import LineCalc.Proofs.Double.Bits
import LineCalc.Proofs.Editor.WellFormed
import LineCalc.Proofs.Text.Utf8
import LineCalc.Proofs.Token.Lexeme
import LineCalc.Proofs.Double.Nearest
import LineCalc.Proofs.Decimal.Shortest
import LineCalc.Proofs.Json.Number
import LineCalc.Proofs.Json.RoundTrip
import LineCalc.Proofs.SavedState
import LineCalc.Proofs.Store
import LineCalc.Proofs.Json.Strings
import LineCalc.Proofs.Text.Characters
import LineCalc.Proofs.Editor.Characters
import LineCalc.Proofs.Outcome.Messages
import LineCalc.Proofs.Session
import LineCalc.Proofs.Desk
import LineCalc.Proofs.Restart
import LineCalc.Proofs.Outcome.Accepted
import LineCalc.Proofs.Change
import LineCalc.Proofs.Recall
import LineCalc.Proofs.Screen.Conversation
import LineCalc.Proofs.Typing
import LineCalc.Proofs.Json.Integers
import LineCalc.Proofs.Damage
import LineCalc.Proofs.Reckoner.Refusal
import LineCalc.Proofs.Reckoner.Spacing
import LineCalc.Proofs.Outcome.Names
import LineCalc.Proofs.Invariant
import LineCalc.Proofs.Selection
import LineCalc.Proofs.Results
import LineCalc.Proofs.Token.Settled
import LineCalc.Proofs.Outcome.Points
import LineCalc.Proofs.History
import LineCalc.Proofs.Saving
import LineCalc.Proofs.Json.Reading
import LineCalc.Proofs.Json.Display
import LineCalc.Proofs.Json.Stable
import LineCalc.Proofs.Samples
import LineCalc.Proofs.Label
import LineCalc.Proofs.OneLine
import LineCalc.Proofs.Resaving
import LineCalc.Proofs.Editor.Words
import LineCalc.Proofs.Editor.Register
import LineCalc.Proofs.Outcome.Unknowns
import LineCalc.Proofs.Editor.Keys
import LineCalc.Proofs.Editor.Visual
import LineCalc.Proofs.Editor.PutBack
import LineCalc.Proofs.Editor.Sides
import LineCalc.Proofs.Writing
import LineCalc.Proofs.SaveCommand
import LineCalc.Proofs.Answer
import LineCalc.Proofs.Screen.Strokes
import LineCalc.Proofs.Token.Numeral
import LineCalc.Proofs.Lines
import LineCalc.Proofs.Screen.Picture
import LineCalc.Proofs.Json.Room
import LineCalc.Proofs.Screen.Terminal
