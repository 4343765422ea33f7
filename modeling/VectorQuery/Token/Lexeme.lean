import VectorQuery.Decimal
import VectorQuery.Token
import VectorQuery.Token.Numeral

/-! Lexemes: the characters of one token and the kind they spell. A lexeme is taken
off the front of a text whose first character is not white space. -/
namespace VectorQuery

/-- What a token is before its place is known. -/
structure Lexeme where
  kind : TokenKind
  text : String
  spelling : List Char
deriving DecidableEq, Repr

inductive LexicalFault where
  | illegalCharacter (character : Char)
  | integerOutOfRange (spelling : List Char)
deriving DecidableEq, Repr

namespace LexicalFault

def spelling : LexicalFault → List Char
  | .illegalCharacter character => [character]
  | .integerOutOfRange spelling => spelling

end LexicalFault

namespace Lexeme

def ofSymbol (kind : TokenKind) (spelling : String) : Lexeme :=
  ⟨kind, spelling, spelling.toList⟩

def isWordStart (character : Char) : Bool :=
  character.isUpper || character.isLower

def isWordPart (character : Char) : Bool :=
  isWordStart character || character.isDigit || character == '_'

/-- Words for the two truth values and for null are literals, reserved words are
keywords, and every other word is an identifier. -/
def ofWord (spelling : List Char) : Lexeme :=
  let word := String.ofList spelling
  let upper := Text.upper word
  if upper = "TRUE" then ⟨.literal (.boolean true), word, spelling⟩
  else if upper = "FALSE" then ⟨.literal (.boolean false), word, spelling⟩
  else if upper = "NULL" then ⟨.literal .null, word, spelling⟩
  else match Keyword.ofWord? upper with
    | some keyword => ⟨.keyword keyword, upper, spelling⟩
    | none => ⟨.identifier, word, spelling⟩

def isQuote (character : Char) : Bool :=
  character == '\'' || character == '"' || character == '\x60'

/-- The symbol that starts a text, the longer of two. -/
def symbol? : List Char → Option Lexeme
  | '<' :: '>' :: _ => some (ofSymbol (.operator .notEqual) "<>")
  | '<' :: '=' :: _ => some (ofSymbol (.operator .lessEqual) "<=")
  | '>' :: '=' :: _ => some (ofSymbol (.operator .greaterEqual) ">=")
  | '!' :: '=' :: _ => some (ofSymbol (.operator .bangEqual) "!=")
  | '*' :: '*' :: _ => some (ofSymbol (.operator .doubleStar) "**")
  | '<' :: _ => some (ofSymbol (.operator .less) "<")
  | '>' :: _ => some (ofSymbol (.operator .greater) ">")
  | '=' :: _ => some (ofSymbol (.operator .equal) "=")
  | '+' :: _ => some (ofSymbol (.operator .plus) "+")
  | '-' :: _ => some (ofSymbol (.operator .minus) "-")
  | '*' :: _ => some (ofSymbol (.operator .star) "*")
  | '/' :: _ => some (ofSymbol (.operator .slash) "/")
  | '%' :: _ => some (ofSymbol (.operator .percent) "%")
  | '.' :: _ => some (ofSymbol (.operator .dot) ".")
  | ':' :: _ => some (ofSymbol (.operator .colon) ":")
  | '(' :: _ => some (ofSymbol (.operator .openParen) "(")
  | ')' :: _ => some (ofSymbol (.operator .closeParen) ")")
  | '[' :: _ => some (ofSymbol (.operator .openBracket) "[")
  | ']' :: _ => some (ofSymbol (.operator .closeBracket) "]")
  | '{' :: _ => some (ofSymbol (.operator .openBrace) "\x7b")
  | '}' :: _ => some (ofSymbol (.operator .closeBrace) "\x7d")
  | ',' :: _ => some (ofSymbol (.separator .comma) ",")
  | ';' :: _ => some (ofSymbol (.separator .semicolon) ";")
  | _ => none

/-- The text up to the next quote of the same kind. -/
def quotedText? (quote : Char) (text : List Char) : Option Lexeme :=
  let body := text.takeWhile (· ≠ quote)
  if body.length < text.length then
    some ⟨.literal .text, String.ofList body, quote :: body ++ [quote]⟩
  else none

/-- The lexeme that starts a text, whose first character is given apart. -/
def first (character : Char) (rest : List Char) : Except LexicalFault Lexeme :=
  if Numeral.starts (character :: rest) then
    let scanned := Numeral.scan (character :: rest)
    if scanned.isFloat then
      .ok ⟨.literal .float, String.ofList scanned.spelling, scanned.spelling⟩
    else if (readInteger? scanned.spelling).isSome then
      .ok ⟨.literal .integer, String.ofList scanned.spelling, scanned.spelling⟩
    else .error (.integerOutOfRange scanned.spelling)
  else if isWordStart character then
    .ok (ofWord ((character :: rest).takeWhile isWordPart))
  else if isQuote character then
    match quotedText? character rest with
    | some lexeme => .ok lexeme
    | none => .error (.illegalCharacter character)
  else
    match symbol? (character :: rest) with
    | some lexeme => .ok lexeme
    | none => .error (.illegalCharacter character)

end Lexeme

end VectorQuery
