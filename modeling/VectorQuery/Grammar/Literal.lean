import VectorQuery.Grammar.Rule
import VectorQuery.Value.Mapping

/-! Literals: scalars, lists and objects. The number given to a rule says how many
levels of brackets may still open. -/
namespace VectorQuery

/-- The value that a literal token stands for. -/
def Token.literal? (token : Token) : Option Value :=
  match token.kind with
  | .literal .integer => (readInteger? token.text.toList).map .integer
  | .literal .float => (Binary64.read? token.text.toList).map .float
  | .literal .text => some (.text token.text)
  | .literal (.boolean truth) => some (.boolean truth)
  | .literal .null => some .null
  | _ => none

namespace Grammar

def literal : Rule Value :=
  take Token.literal?

/-- A value, given the rules for its brackets. -/
def valueWith (list : Rule (List Value)) (mapping : Rule Mapping) : Rule Value := do
  match ← peek with
  | some (.operator .openBracket) => return .array (← list)
  | some (.operator .openBrace) => return (← mapping).toValue
  | _ => literal

def listOf (item : Rule Value) : Rule (List Value) := do
  operator .openBracket
  if ← accept (.operator .closeBracket) then return []
  else
    let items ← separated item
    operator .closeBracket
    return items

/-- An entry with the comma that may stand before it, or the brace that ends a
mapping. -/
def entry (item : Rule Value) : Rule (Option (String × Value)) := do
  let _ ← comma
  if ← accept (.operator .closeBrace) then return none
  else
    let key ← text
    operator .colon
    return some (key, ← item)

def mappingOf (item : Rule Value) : Rule Mapping := do
  operator .openBrace
  return Mapping.ofList (← many (entry item))

def value : Nat → List Token → Except Fault (Value × List Token)
  | 0, tokens => valueWith tooDeep tooDeep tokens
  | levels + 1, tokens =>
    valueWith (listOf (value levels)) (mappingOf (value levels)) tokens

def list : Nat → Rule (List Value)
  | 0 => tooDeep
  | levels + 1 => listOf (value levels)

def mapping : Nat → Rule Mapping
  | 0 => tooDeep
  | levels + 1 => mappingOf (value levels)

end Grammar

end VectorQuery
