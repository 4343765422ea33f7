import VectorQuery.Diagnostic
import VectorQuery.Keyword
import VectorQuery.Text.Case

/-! Tokens of a statement. -/
namespace VectorQuery

inductive LiteralForm where
  | integer
  | float
  | text
  | boolean (truth : Bool)
  | null
deriving DecidableEq, Repr

inductive Operator where
  | equal
  | notEqual
  | bangEqual
  | less
  | lessEqual
  | greater
  | greaterEqual
  | plus
  | minus
  | star
  | doubleStar
  | slash
  | percent
  | dot
  | colon
  | openParen
  | closeParen
  | openBracket
  | closeBracket
  | openBrace
  | closeBrace
deriving DecidableEq, Repr

inductive Separator where
  | comma
  | semicolon
deriving DecidableEq, Repr

inductive TokenKind where
  | keyword (keyword : Keyword)
  | identifier
  | literal (form : LiteralForm)
  | operator (operator : Operator)
  | separator (separator : Separator)
deriving DecidableEq, Repr

/-- A token with its place. Keywords are in upper case and texts without their
quotes. -/
structure Token where
  kind : TokenKind
  text : String
  line : Nat
  column : Nat
deriving DecidableEq, Repr

namespace TokenKind

/-- Identifiers and keywords both read as bare words. -/
def isWord : TokenKind → Bool
  | .keyword _ | .identifier => true
  | _ => false

end TokenKind

namespace Token

def fragment (token : Token) : Fragment :=
  ⟨token.text, token.line, token.column⟩

/-- The token is this bare word, in any letter case. -/
def isWord (token : Token) (word : String) : Bool :=
  token.kind.isWord && Text.equalIgnoringCase token.text word

end Token

end VectorQuery
