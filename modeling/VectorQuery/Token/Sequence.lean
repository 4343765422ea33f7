import VectorQuery.StatementError
import VectorQuery.Text.Blank
import VectorQuery.Token.Lexeme

/-! The tokens of a text, with their places. Every lexeme takes characters away, so
the length of the text bounds their number. -/
namespace VectorQuery

structure Position where
  line : Nat
  column : Nat
deriving DecidableEq, Repr

namespace Position

def start : Position := ⟨1, 1⟩

/-- The place behind a character. A line feed starts a new line. -/
def after (position : Position) (character : Char) : Position :=
  if character = '\n' then ⟨position.line + 1, 1⟩ else ⟨position.line, position.column + 1⟩

def afterAll (position : Position) (text : List Char) : Position :=
  text.foldl after position

end Position

namespace LexicalFault

def toError (fault : LexicalFault) (position : Position) : StatementError :=
  let fragment := some ⟨String.ofList fault.spelling, position.line, position.column⟩
  match fault with
  | .illegalCharacter character => .illegalCharacter character fragment
  | .integerOutOfRange _ => .integerOutOfRange fragment

end LexicalFault

namespace Token

def ofLexeme (lexeme : Lexeme) (position : Position) : Token :=
  ⟨lexeme.kind, lexeme.text, position.line, position.column⟩

/-- Reads tokens from a place on, behind those already read. The number bounds the
characters that are left. -/
def sequenceFrom (tokens : List Token) : Nat → Position → List Char → Except StatementError (List Token)
  | 0, _, _ | _, _, [] => .ok tokens.reverse
  | left + 1, position, character :: rest =>
    if Text.isBlank character then sequenceFrom tokens left (position.after character) rest
    else
      match Lexeme.first character rest with
      | .error fault => .error (fault.toError position)
      | .ok lexeme =>
        sequenceFrom (ofLexeme lexeme position :: tokens) left
          (position.afterAll lexeme.spelling)
          ((character :: rest).drop lexeme.spelling.length)

def sequence (text : String) : Except StatementError (List Token) :=
  sequenceFrom [] text.toList.length .start text.toList

end Token

end VectorQuery
