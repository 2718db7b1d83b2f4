import AchievementLang.Achievement
import AchievementLang.Bindings
import AchievementLang.CommandLine.Commands
import AchievementLang.CommandLine.Compare
import AchievementLang.CommandLine.Console
import AchievementLang.CommandLine.Options
import AchievementLang.CommandLine.Show
import AchievementLang.Compilation
import AchievementLang.Compile.Comparison
import AchievementLang.Compile.Condition
import AchievementLang.Compile.Normal
import AchievementLang.Compile.Operand
import AchievementLang.Compile.Trigger
import AchievementLang.Compile.Value
import AchievementLang.Diff.Achievement
import AchievementLang.Diff.Alignment
import AchievementLang.Document.Basic
import AchievementLang.Document.Check
import AchievementLang.Error
import AchievementLang.Eval.Arithmetic
import AchievementLang.Eval.Binding
import AchievementLang.Eval.Language
import AchievementLang.Eval.Reduce
import AchievementLang.Eval.Scope
import AchievementLang.Eval.State
import AchievementLang.Expr.Basic
import AchievementLang.Expr.Printer
import AchievementLang.Function
import AchievementLang.Golden
import AchievementLang.Grammar.Automaton
import AchievementLang.Grammar.Lexer
import AchievementLang.Grammar.Parser
import AchievementLang.Grammar.Symbol
import AchievementLang.Grammar.Tree
import AchievementLang.Json.Basic
import AchievementLang.Json.Display
import AchievementLang.Json.Reader
import AchievementLang.Json.Writer
import AchievementLang.Main
import AchievementLang.Numeric.Binary64
import AchievementLang.Numeric.Shortest
import AchievementLang.Proofs.CommandLine.Compare
import AchievementLang.Proofs.CommandLine.Matching
import AchievementLang.Proofs.Compilation.CallDepth
import AchievementLang.Proofs.Compilation.Displayed
import AchievementLang.Proofs.Compilation.Groups
import AchievementLang.Proofs.Compilation.Readback
import AchievementLang.Proofs.Compilation.Report
import AchievementLang.Proofs.Compilation.Sessions
import AchievementLang.Proofs.Compile.Breakdown
import AchievementLang.Proofs.Compile.Expressible
import AchievementLang.Proofs.Compile.LinearForm
import AchievementLang.Proofs.Compile.Places
import AchievementLang.Proofs.Compile.Rows
import AchievementLang.Proofs.Compile.Writing
import AchievementLang.Proofs.Condition.Comparison
import AchievementLang.Proofs.Condition.Meaning
import AchievementLang.Proofs.Condition.Memory
import AchievementLang.Proofs.Condition.Modifiers
import AchievementLang.Proofs.Condition.NormalForm
import AchievementLang.Proofs.Condition.OneGroup
import AchievementLang.Proofs.Condition.Shape
import AchievementLang.Proofs.Condition.Truth
import AchievementLang.Proofs.Diff.Modified
import AchievementLang.Proofs.Diff.Pairs
import AchievementLang.Proofs.Diff.Unchanged
import AchievementLang.Proofs.Document.Roundtrip
import AchievementLang.Proofs.Eval.Arithmetic
import AchievementLang.Proofs.Eval.Binding
import AchievementLang.Proofs.Eval.BitsKept
import AchievementLang.Proofs.Eval.Callers
import AchievementLang.Proofs.Eval.Concurrence
import AchievementLang.Proofs.Eval.ConcurringEngines
import AchievementLang.Proofs.Eval.Connectives
import AchievementLang.Proofs.Eval.Contract
import AchievementLang.Proofs.Eval.Effects
import AchievementLang.Proofs.Eval.Engine
import AchievementLang.Proofs.Eval.Frame
import AchievementLang.Proofs.Eval.FunctionsKept
import AchievementLang.Proofs.Eval.InPlace
import AchievementLang.Proofs.Eval.Inlining
import AchievementLang.Proofs.Eval.LanguageKept
import AchievementLang.Proofs.Eval.Machine
import AchievementLang.Proofs.Eval.Parameters
import AchievementLang.Proofs.Eval.Reduced
import AchievementLang.Proofs.Eval.Registered
import AchievementLang.Proofs.Eval.Registration
import AchievementLang.Proofs.Eval.Replacing
import AchievementLang.Proofs.Eval.Run
import AchievementLang.Proofs.Eval.SameValues
import AchievementLang.Proofs.Eval.Simulation
import AchievementLang.Proofs.Eval.Store
import AchievementLang.Proofs.Eval.StoreSimulation
import AchievementLang.Proofs.Eval.Substitution
import AchievementLang.Proofs.Eval.Table
import AchievementLang.Proofs.Eval.Termination
import AchievementLang.Proofs.Eval.Triple
import AchievementLang.Proofs.Eval.Values
import AchievementLang.Proofs.Eval.Variables
import AchievementLang.Proofs.Grammar.Connectives
import AchievementLang.Proofs.Grammar.Literals
import AchievementLang.Proofs.Grammar.Malformed
import AchievementLang.Proofs.Grammar.Phrases
import AchievementLang.Proofs.Grammar.Roundtrip
import AchievementLang.Proofs.Grammar.Series
import AchievementLang.Proofs.Grammar.Settling
import AchievementLang.Proofs.Grammar.Twins
import AchievementLang.Proofs.Grammar.Words
import AchievementLang.Proofs.Json.Roundtrip
import AchievementLang.Proofs.Json.Scalar
import AchievementLang.Proofs.Numeric.Rounding
import AchievementLang.Proofs.Numeric.Shortest
import AchievementLang.Proofs.Text.Case
import AchievementLang.Proofs.Text.Lines
import AchievementLang.Proofs.Text.Numeral
import AchievementLang.Proofs.Text.PlaceValue
import AchievementLang.Proofs.Wire.Abreast
import AchievementLang.Proofs.Wire.Combinators
import AchievementLang.Proofs.Wire.Definition
import AchievementLang.Proofs.Wire.Field
import AchievementLang.Proofs.Wire.Grammar
import AchievementLang.Proofs.Wire.IntegralValue
import AchievementLang.Proofs.Wire.Leaderboard
import AchievementLang.Proofs.Wire.Notes
import AchievementLang.Proofs.Wire.Reading
import AchievementLang.Proofs.Wire.Sections
import AchievementLang.Proofs.Wire.Spelling
import AchievementLang.Proofs.Wire.Stumbling
import AchievementLang.Proofs.Wire.Trigger
import AchievementLang.Proofs.Wire.Value
import AchievementLang.Relation
import AchievementLang.Script
import AchievementLang.Settings
import AchievementLang.Text.Blank
import AchievementLang.Text.Case
import AchievementLang.Text.CodeRange
import AchievementLang.Text.ControlSequence
import AchievementLang.Text.Digit
import AchievementLang.Text.Hex
import AchievementLang.Text.IntLiteral
import AchievementLang.Text.Printable
import AchievementLang.Text.Quoted
import AchievementLang.Wire.Field
import AchievementLang.Wire.Leaderboard
import AchievementLang.Wire.Reader
import AchievementLang.Wire.Reading
import AchievementLang.Wire.Requirement
import AchievementLang.Wire.Trigger
import AchievementLang.Wire.Value
