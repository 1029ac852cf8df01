import ModuleLint.Bytes
import ModuleLint.Bytes.Utf8
import ModuleLint.Check.Bindings
import ModuleLint.Check.Collector
import ModuleLint.Check.Finding
import ModuleLint.Check.Rules
import ModuleLint.Check.Run
import ModuleLint.Command.Config
import ModuleLint.Command.Discovery
import ModuleLint.Command.Run
import ModuleLint.Command.Session
import ModuleLint.Command.Settings
import ModuleLint.Diagnostic.Basic
import ModuleLint.Diagnostic.Emitter
import ModuleLint.Diagnostic.Json
import ModuleLint.Diagnostic.Text
import ModuleLint.FileTree
import ModuleLint.Grammar.Access
import ModuleLint.Grammar.Class
import ModuleLint.Grammar.Error
import ModuleLint.Grammar.Expression
import ModuleLint.Grammar.Function
import ModuleLint.Grammar.Literal
import ModuleLint.Grammar.Nonterminal
import ModuleLint.Grammar.Pattern
import ModuleLint.Grammar.Reader
import ModuleLint.Grammar.Script
import ModuleLint.Grammar.Statement
import ModuleLint.Log.Filter
import ModuleLint.Log.Level
import ModuleLint.Log.Logger
import ModuleLint.Log.Options
import ModuleLint.Log.Record
import ModuleLint.Main
import ModuleLint.Source
import ModuleLint.Suggestion
import ModuleLint.Syntax.Kind
import ModuleLint.Syntax.Node
import ModuleLint.Syntax.Path
import ModuleLint.Syntax.Walk
import ModuleLint.Token.Basic
import ModuleLint.Token.Gap
import ModuleLint.Token.Kind
import ModuleLint.Token.Lexeme
import ModuleLint.Token.List
import ModuleLint.Token.Number
import ModuleLint.Token.Quoted
import ModuleLint.Proofs.Grammar.Yield
import ModuleLint.Proofs.Grammar.PatternShape
import ModuleLint.Proofs.Grammar.ExpressionShape
import ModuleLint.Proofs.Grammar.StatementShape
import ModuleLint.Proofs.Syntax.Arrangement
import ModuleLint.Proofs.Grammar.ScriptShape
import ModuleLint.Proofs.Grammar.Progress
import ModuleLint.Proofs.Grammar.LiteralProgress
import ModuleLint.Proofs.Grammar.ExpressionProgress
import ModuleLint.Proofs.Grammar.StatementProgress
import ModuleLint.Proofs.Grammar.ScriptProgress
import ModuleLint.Proofs.Syntax.Postorder
import ModuleLint.Proofs.Check.Expected
import ModuleLint.Proofs.Check.Reports
import ModuleLint.Proofs.Grammar.ExpressionRespan
import ModuleLint.Proofs.Grammar.ScriptRespan
import ModuleLint.Proofs.Check.Origin
import ModuleLint.Proofs.Check.SortedReport
import ModuleLint.Proofs.Token.Reading
import ModuleLint.Proofs.Token.Tiling
import ModuleLint.Proofs.Command.Loading
import ModuleLint.Proofs.Command.Display
import ModuleLint.Proofs.Command.ExitStatus
import ModuleLint.Proofs.Grammar.Print
import ModuleLint.Proofs.Grammar.Reads
import ModuleLint.Proofs.Grammar.ExpressionReads
import ModuleLint.Proofs.Grammar.GroupReads
import ModuleLint.Proofs.Grammar.OperandReads
import ModuleLint.Proofs.Grammar.RoundTrip
import ModuleLint.Proofs.Check.Levels
import ModuleLint.Proofs.Token.Locality
import ModuleLint.Proofs.Token.Respelling
import ModuleLint.Proofs.Grammar.ExpressionSurvival
import ModuleLint.Proofs.Grammar.StatementSurvival
import ModuleLint.Proofs.Grammar.Semicolons
import ModuleLint.Proofs.Grammar.Concatenation
import ModuleLint.Proofs.Token.Spelling
import ModuleLint.Proofs.Grammar.Trace
import ModuleLint.Proofs.Grammar.ExpressionTrace
import ModuleLint.Proofs.Grammar.StatementTrace
import ModuleLint.Proofs.Grammar.ScriptTrace
import ModuleLint.Proofs.Grammar.Regular
import ModuleLint.Proofs.Grammar.Recovery
import ModuleLint.Proofs.Grammar.Narrowing
import ModuleLint.Proofs.Grammar.ExpressionNarrowing
import ModuleLint.Proofs.Grammar.ForHead
import ModuleLint.Proofs.Bytes.Utf8
import ModuleLint.Proofs.Token.Cooked
import ModuleLint.Proofs.Json.Value
import ModuleLint.Proofs.Json.Written
import ModuleLint.Proofs.Json.Diagnostics
import ModuleLint.Proofs.Json.Records
import ModuleLint.Proofs.Command.EffectiveLevels
import ModuleLint.Proofs.Check.BoundNames
import ModuleLint.Proofs.Syntax.Preorder
import ModuleLint.Proofs.Syntax.HookCalls
import ModuleLint.Proofs.Grammar.OperatorTree
import ModuleLint.Proofs.Grammar.Precedence
import ModuleLint.Proofs.Command.ConfigLine
import ModuleLint.Proofs.Command.ConfigText
import ModuleLint.Proofs.Check.History
import ModuleLint.Proofs.Token.Division
import ModuleLint.Proofs.Token.Enclosed
import ModuleLint.Proofs.Grammar.ExpressionWording
import ModuleLint.Proofs.Grammar.StatementWording
import ModuleLint.Proofs.Token.Names
import ModuleLint.Proofs.Grammar.AccessPath
import ModuleLint.Proofs.Token.LongestMatch
import ModuleLint.Proofs.Diagnostic.Carets
import ModuleLint.Proofs.Suggestion.Closest
import ModuleLint.Proofs.Command.Discovery
import ModuleLint.Proofs.Grammar.Parentheses
import ModuleLint.Proofs.Log.Levels
import ModuleLint.Proofs.Log.Shortcut
import ModuleLint.Proofs.Log.Arguments
import ModuleLint.Proofs.Grammar.StatementEntry
