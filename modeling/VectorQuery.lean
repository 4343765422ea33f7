import VectorQuery.Binary64
import VectorQuery.Command
import VectorQuery.Command.Document
import VectorQuery.Command.Kind
import VectorQuery.Condition
import VectorQuery.Decimal
import VectorQuery.Diagnostic
import VectorQuery.Grammar.Clause
import VectorQuery.Grammar.Field
import VectorQuery.Grammar.Filter
import VectorQuery.Grammar.Literal
import VectorQuery.Grammar.Operand
import VectorQuery.Grammar.Rows
import VectorQuery.Grammar.Rule
import VectorQuery.Grammar.Selection
import VectorQuery.Grammar.Statement
import VectorQuery.Grammar.Structure
import VectorQuery.Hit
import VectorQuery.Keyword
import VectorQuery.Proofs.Binary64
import VectorQuery.Proofs.Binary64.Range
import VectorQuery.Proofs.Command.Fields
import VectorQuery.Proofs.Command.Finite
import VectorQuery.Proofs.Command.Hoist
import VectorQuery.Proofs.Command.Injective
import VectorQuery.Proofs.Command.Options
import VectorQuery.Proofs.Command.Regular
import VectorQuery.Proofs.Decimal
import VectorQuery.Proofs.Grammar.Agreement
import VectorQuery.Proofs.Grammar.Allowance
import VectorQuery.Proofs.Grammar.Alongside
import VectorQuery.Proofs.Grammar.Condition
import VectorQuery.Proofs.Grammar.ConditionComplete
import VectorQuery.Proofs.Grammar.ConditionTracking
import VectorQuery.Proofs.Grammar.Coupling
import VectorQuery.Proofs.Grammar.Draw
import VectorQuery.Proofs.Grammar.Height
import VectorQuery.Proofs.Grammar.Means
import VectorQuery.Proofs.Grammar.Nesting
import VectorQuery.Proofs.Grammar.Opening
import VectorQuery.Proofs.Grammar.Operand
import VectorQuery.Proofs.Grammar.Origin
import VectorQuery.Proofs.Grammar.Phrase
import VectorQuery.Proofs.Grammar.Progress
import VectorQuery.Proofs.Grammar.Range
import VectorQuery.Proofs.Grammar.Reads
import VectorQuery.Proofs.Grammar.Replay
import VectorQuery.Proofs.Grammar.Rule
import VectorQuery.Proofs.Grammar.Separated
import VectorQuery.Proofs.Grammar.Settles
import VectorQuery.Proofs.Grammar.Threshold
import VectorQuery.Proofs.Grammar.Tracking
import VectorQuery.Proofs.Grammar.Value
import VectorQuery.Proofs.Grammar.Yield
import VectorQuery.Proofs.Hit
import VectorQuery.Proofs.Predicate.Condition
import VectorQuery.Proofs.Predicate.Injective
import VectorQuery.Proofs.Predicate.Operand
import VectorQuery.Proofs.Predicate.Outline
import VectorQuery.Proofs.Predicate.Path
import VectorQuery.Proofs.Predicate.Precedence
import VectorQuery.Proofs.Predicate.Printed
import VectorQuery.Proofs.Predicate.Value
import VectorQuery.Proofs.Report
import VectorQuery.Proofs.Session.Delivery
import VectorQuery.Proofs.Statement.Agreement
import VectorQuery.Proofs.Statement.Alongside
import VectorQuery.Proofs.Statement.Clause
import VectorQuery.Proofs.Statement.Completion
import VectorQuery.Proofs.Statement.Creation
import VectorQuery.Proofs.Statement.Draft
import VectorQuery.Proofs.Statement.Field
import VectorQuery.Proofs.Statement.Hoisting
import VectorQuery.Proofs.Statement.Loosening
import VectorQuery.Proofs.Statement.Number
import VectorQuery.Proofs.Statement.Options
import VectorQuery.Proofs.Statement.Pointing
import VectorQuery.Proofs.Statement.Range
import VectorQuery.Proofs.Statement.Refusal
import VectorQuery.Proofs.Statement.Regular
import VectorQuery.Proofs.Statement.Resemblance
import VectorQuery.Proofs.Statement.Roundtrip
import VectorQuery.Proofs.Statement.Rows
import VectorQuery.Proofs.Statement.Selection
import VectorQuery.Proofs.Statement.Spelled
import VectorQuery.Proofs.Statement.Terminator
import VectorQuery.Proofs.Statement.Tracking
import VectorQuery.Proofs.Statement.Tuples
import VectorQuery.Proofs.Statement.Types
import VectorQuery.Proofs.Statement.Value
import VectorQuery.Proofs.Statement.Written
import VectorQuery.Proofs.Text
import VectorQuery.Proofs.Text.Line
import VectorQuery.Proofs.Token.Appended
import VectorQuery.Proofs.Token.Cut
import VectorQuery.Proofs.Token.Layout
import VectorQuery.Proofs.Token.Lexicon
import VectorQuery.Proofs.Token.Longest
import VectorQuery.Proofs.Token.Numeral
import VectorQuery.Proofs.Token.Place
import VectorQuery.Proofs.Token.Scan
import VectorQuery.Proofs.Token.Spelling
import VectorQuery.Proofs.Token.Word
import VectorQuery.Proofs.Value.Latest
import VectorQuery.Proofs.Value.Mapping
import VectorQuery.Proofs.Value.Printed
import VectorQuery.Proofs.Value.Sorted
import VectorQuery.Proofs.Value.Unique
import VectorQuery.Schema
import VectorQuery.Session
import VectorQuery.Session.Config
import VectorQuery.Session.Document
import VectorQuery.Session.Handler
import VectorQuery.Statement
import VectorQuery.StatementError
import VectorQuery.Text.Blank
import VectorQuery.Text.Case
import VectorQuery.Text.Line
import VectorQuery.Text.Quoted
import VectorQuery.Token
import VectorQuery.Token.Lexeme
import VectorQuery.Token.Numeral
import VectorQuery.Token.Sequence
import VectorQuery.Value
import VectorQuery.Value.Mapping
import VectorQuery.Value.Written
