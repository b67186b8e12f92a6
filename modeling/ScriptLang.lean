import ScriptLang.Builtin.Basic
import ScriptLang.Command.Arguments
import ScriptLang.Command.Run
import ScriptLang.Decimal.Binary
import ScriptLang.Decimal.Layout
import ScriptLang.Decimal.Shortest
import ScriptLang.Diagnostic.Basic
import ScriptLang.Diagnostic.Cause
import ScriptLang.Diagnostic.Fault
import ScriptLang.Files.Basic
import ScriptLang.Files.Path
import ScriptLang.Grammar.Expression
import ScriptLang.Grammar.Parser
import ScriptLang.Grammar.Program
import ScriptLang.Grammar.Statement
import ScriptLang.Machine.Config
import ScriptLang.Machine.Step
import ScriptLang.Main
import ScriptLang.Markup.Block
import ScriptLang.Markup.Cursor
import ScriptLang.Markup.Document
import ScriptLang.Markup.Folding
import ScriptLang.Markup.Node
import ScriptLang.Markup.Scalar
import ScriptLang.Markup.Written
import ScriptLang.Report.Basic
import ScriptLang.Report.Diagnostic
import ScriptLang.Session.Journal
import ScriptLang.Session.Program
import ScriptLang.Session.Prompt
import ScriptLang.Settings.Basic
import ScriptLang.Settings.Resolve
import ScriptLang.Settings.Written
import ScriptLang.Source.Span
import ScriptLang.Store.Basic
import ScriptLang.Store.Iterator
import ScriptLang.Store.World
import ScriptLang.Text.Alphabetic
import ScriptLang.Text.Blank
import ScriptLang.Text.CodePoint
import ScriptLang.Text.Lines
import ScriptLang.Text.Numeral
import ScriptLang.Text.Numeric
import ScriptLang.Text.Printable
import ScriptLang.Text.Quoted
import ScriptLang.Token.Basic
import ScriptLang.Token.Misread
import ScriptLang.Token.Number
import ScriptLang.Token.Scan
import ScriptLang.Token.StringLiteral
import ScriptLang.Token.Trivia
import ScriptLang.Tree.Basic
import ScriptLang.Tree.Node
import ScriptLang.Value.Arithmetic
import ScriptLang.Value.Basic
import ScriptLang.Value.Kind
import ScriptLang.Value.Sequence
import ScriptLang.Value.Text
import ScriptLang.Proofs.Grammar.Run
import ScriptLang.Proofs.Tree.Place
import ScriptLang.Proofs.Tree.Regular
import ScriptLang.Proofs.Grammar.Reads
import ScriptLang.Proofs.Grammar.Continue
import ScriptLang.Proofs.Grammar.Joined
import ScriptLang.Proofs.Machine.Jump
import ScriptLang.Proofs.Machine.Limit
import ScriptLang.Proofs.Session.Entry
import ScriptLang.Proofs.Grammar.Restate
import ScriptLang.Proofs.Store.Matter
import ScriptLang.Proofs.Machine.Matter
import ScriptLang.Proofs.Grammar.Drawn
import ScriptLang.Proofs.Session.Course
import ScriptLang.Proofs.Session.Range
import ScriptLang.Proofs.Session.Quote
import ScriptLang.Proofs.Machine.Beside
import ScriptLang.Proofs.Machine.Decorated
import ScriptLang.Proofs.Token.Partition
import ScriptLang.Proofs.Token.Respaced
import ScriptLang.Proofs.Session.Reserved
import ScriptLang.Proofs.Session.Dialogue
import ScriptLang.Proofs.Machine.Completion
import ScriptLang.Proofs.Session.Declared
import ScriptLang.Proofs.Session.Delivery
import ScriptLang.Proofs.Session.Nesting
import ScriptLang.Proofs.Value.Walk
import ScriptLang.Proofs.Grammar.Strata
import ScriptLang.Proofs.Session.Shown
import ScriptLang.Proofs.Session.Completed
import ScriptLang.Proofs.Value.Quotient
import ScriptLang.Proofs.Machine.Calls
import ScriptLang.Proofs.Grammar.Overlook
import ScriptLang.Proofs.Grammar.Spanned
import ScriptLang.Proofs.Token.Alone
import ScriptLang.Proofs.Token.Quoted
import ScriptLang.Proofs.Token.Numeral
import ScriptLang.Proofs.Text.Lenient
import ScriptLang.Proofs.Token.Escape
import ScriptLang.Proofs.Session.Echo
import ScriptLang.Proofs.Token.Trailing
import ScriptLang.Proofs.Store.Chain
import ScriptLang.Proofs.Settings.Origin
import ScriptLang.Proofs.Settings.Mapping
import ScriptLang.Proofs.Command.DefaultVerb
import ScriptLang.Proofs.Grammar.Progress
import ScriptLang.Proofs.Grammar.Outlined
