import VectorQuery.Condition
import VectorQuery.Grammar.Literal

/-! Paths and arithmetic. Operations group from the left, without precedence. A minus
sign that stands against a number belongs to it only where an operand starts. -/
namespace VectorQuery

namespace TokenKind

def arithmetic? : TokenKind → Option Arithmetic
  | .operator .plus => some .add
  | .operator .minus => some .subtract
  | .operator .star => some .multiply
  | .operator .slash => some .divide
  | .operator .percent => some .modulo
  | .operator .doubleStar => some .power
  | _ => none

def sign? : TokenKind → Option Sign
  | .operator .plus => some .plus
  | .operator .minus => some .minus
  | _ => none

end TokenKind

namespace Token

/-- A number whose minus sign stands against it. Behind an operand the sign is an
operator. -/
def isGlued (token : Token) : Bool :=
  (token.kind == .literal .integer || token.kind == .literal .float) &&
    token.text.toList.head? == some '-'

/-- The token without its first character. -/
def unsigned (token : Token) : Token :=
  { token with text := String.ofList token.text.toList.tail }

end Token

namespace Grammar

/-- What a subscript names. -/
def subscript : Rule PathSegment :=
  take fun token =>
    match token.kind with
    | .literal .text => some (.key token.text)
    | .literal .integer => (readInteger? token.text.toList).map .index
    | _ => none

def segment : Rule (Option PathSegment) := do
  if ← accept (.operator .openBracket) then
    let part ← subscript
    operator .closeBracket
    return some part
  else if ← accept (.operator .dot) then return some (.field (← identifier))
  else return none

def path : Rule Path := do
  let root ← identifier
  return ⟨root, ← many segment⟩

/-- An operand without a sign, given the rule for round brackets. -/
def primary (levels : Nat) (bracket : Rule Operand) : Rule Operand := do
  match ← peek with
  | some (.operator .openParen) => bracket
  | some (.operator .openBracket) => return .literal (.array (← list levels))
  | some (.keyword .arrayLength) =>
    keyword .arrayLength
    return .arrayLength (← bracketed path)
  | some .identifier => return .path (← path)
  | _ => return .literal (← literal)

def term (levels : Nat) (bracket : Rule Operand) : Rule Operand := do
  match (← peek).bind TokenKind.sign? with
  | some sign =>
    let _ ← token
    return .signed sign (← primary levels bracket)
  | none => primary levels bracket

/-- A number without the sign that stands against it. -/
def gluedLiteral : Rule Value :=
  take fun token => token.unsigned.literal?

/-- An operation and its right side, or a number whose sign is the operation. -/
def operation (term : Rule Operand) : Rule (Option (Arithmetic × Operand)) := do
  match ← next? with
  | none => return none
  | some following =>
    match following.kind.arithmetic? with
    | some operation =>
      let _ ← token
      return some (operation, ← term)
    | none =>
      if following.isGlued then return some (.subtract, .literal (← gluedLiteral))
      else return none

def continued (levels : Nat) (bracket : Rule Operand) (first : Operand) : Rule Operand := do
  let operations ← many (operation (term levels bracket))
  return operations.foldl (fun left (operation, right) => .binary left operation right) first

def operandWith (levels : Nat) (bracket : Rule Operand) : Rule Operand := do
  continued levels bracket (← term levels bracket)

/-- An operand between round brackets, given the rule one level further in. -/
def bracketedOperand (levels : Nat) (bracket : Rule Operand) : Rule Operand := do
  return .nested (← bracketed (operandWith levels bracket))

/-- Round brackets around an operand open one level. -/
def nestedOperand : Nat → List Token → Except Fault (Operand × List Token)
  | 0, tokens => tooDeep tokens
  | levels + 1, tokens => bracketedOperand levels (nestedOperand levels) tokens

def operand (levels : Nat) : Rule Operand :=
  operandWith levels (nestedOperand levels)

def operations (levels : Nat) (first : Operand) : Rule Operand :=
  continued levels (nestedOperand levels) first

end Grammar

end VectorQuery
