import VectorQuery.Grammar.Statement
import VectorQuery.Token.Sequence

/-! Reading a statement under limits. -/
namespace VectorQuery

/-- Limits on a statement: its length in bytes, where one is set, and the levels of
brackets, lists, objects and `NOT` that may be open at once. -/
structure Limits where
  maxLength : Option Nat := none
  maxDepth : Nat := 64
deriving DecidableEq, Repr

namespace Grammar.Fault

def toError (fault : Fault) (maxDepth : Nat) : StatementError :=
  match fault with
  | .unexpected token => .unexpectedToken (some token.fragment)
  | .endOfInput => .unexpectedEnd
  | .tooDeep token => .nestingTooDeep (token.map Token.fragment) maxDepth

end Grammar.Fault

namespace Limits

def readTokens (limits : Limits) (tokens : List Token) : Except StatementError Command :=
  match Grammar.statement limits.maxDepth tokens with
  | .ok (command, _) => .ok command
  | .error fault => .error (fault.toError limits.maxDepth)

def checkLength (limits : Limits) (text : String) : Except StatementError Unit :=
  match limits.maxLength with
  | some limit =>
    if limit < text.utf8ByteSize then .error (.statementTooLong text.utf8ByteSize limit) else .ok ()
  | none => .ok ()

/-- The command that a text stands for, or the cause why it stands for none. -/
def readText (limits : Limits) (text : String) : Except StatementError Command := do
  limits.checkLength text
  limits.readTokens (← Token.sequence text)

/-- Reads one statement. A diagnostic holds the statement, so that its report can
show the offending line. -/
def read (limits : Limits) (text : String) : Except Diagnostic Command :=
  (limits.readText text).mapError fun error => error.diagnostic.withStatement text

end Limits

end VectorQuery
