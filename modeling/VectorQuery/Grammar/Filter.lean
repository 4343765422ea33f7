import VectorQuery.Grammar.Operand

/-! Filter conditions. A round bracket may open a condition or an operand, and only
what follows the first operand tells which; so a rule that meets one may answer with
either. Connectives group from the left, without precedence. -/
namespace VectorQuery

namespace TokenKind

def comparator? : TokenKind → Option Comparator
  | .operator .equal => some .equal
  | .operator .notEqual | .operator .bangEqual => some .notEqual
  | .operator .less => some .less
  | .operator .greater => some .greater
  | .operator .lessEqual => some .lessEqual
  | .operator .greaterEqual => some .greaterEqual
  | _ => none

def containment? : TokenKind → Option Containment
  | .keyword .jsonContains => some .jsonContains
  | .keyword .jsonContainsAll => some .jsonContainsAll
  | .keyword .jsonContainsAny => some .jsonContainsAny
  | .keyword .arrayContains => some .arrayContains
  | .keyword .arrayContainsAll => some .arrayContainsAll
  | .keyword .arrayContainsAny => some .arrayContainsAny
  | _ => none

/-- `NOT` and a round bracket open a level where a condition may start. -/
def opensLead : TokenKind → Bool
  | .keyword .not | .operator .openParen => true
  | _ => false

end TokenKind

namespace Grammar

/-- A condition, or an operand whose condition has yet to follow. -/
inductive Lead where
  | condition (condition : Condition)
  | operand (operand : Operand)

inductive Connective where
  | conjunction
  | disjunction
deriving DecidableEq, Repr

def Connective.join (connective : Connective) (left right : Condition) : Condition :=
  match connective with
  | .conjunction => .conjunction left right
  | .disjunction => .disjunction left right

/-- What is said of an operand. -/
def predicate (levels : Nat) (target : Operand) : Rule Condition := do
  match (← peek).bind TokenKind.comparator? with
  | some comparator =>
    let _ ← token
    return .compare target comparator (← operand levels)
  | none =>
    if ← accept (.keyword .is) then
      let negated ← accept (.keyword .not)
      expect (.literal .null)
      return .isNull target negated
    else
      let negated ← accept (.keyword .not)
      if ← accept (.keyword .like) then return .like target (← text) negated
      else if ← accept (.keyword .between) then
        let low ← operand levels
        keyword .and
        return .between target low (← operand levels) negated
      else if ← accept (.keyword .in) then return .within target (← list levels) negated
      else refuse

def containment (levels : Nat) (function : Containment) : Rule Condition := do
  let _ ← token
  bracketed do
    let target ← path
    if ← comma then return .contains function target (some (← value levels))
    else return .contains function target none

/-- What a condition starts with, given the rule for `NOT` and round brackets. -/
def leadWith (levels : Nat) (nested : Rule Lead) : Rule Lead := do
  let kind ← peek
  if kind.any TokenKind.opensLead then
    match ← nested with
    | .condition condition => return .condition condition
    | .operand first => return .operand (← operations levels first)
  else
    match kind.bind TokenKind.containment? with
    | some function => return .condition (← containment levels function)
    | none => return .operand (← operand levels)

/-- A condition without connectives. -/
def unaryWith (levels : Nat) (nested : Rule Lead) : Rule Condition := do
  match ← leadWith levels nested with
  | .condition condition => return condition
  | .operand target => predicate levels target

/-- A connective and the condition on its right. -/
def connective (unary : Rule Condition) : Rule (Option (Connective × Condition)) := do
  if ← accept (.keyword .and) then return some (.conjunction, ← unary)
  else if ← accept (.keyword .or) then return some (.disjunction, ← unary)
  else return none

def connected (unary : Rule Condition) (first : Condition) : Rule Condition := do
  let connectives ← many (connective unary)
  return connectives.foldl (fun left (connective, right) => connective.join left right) first

/-- What round brackets hold: an operand if they close behind one, and otherwise a
condition. -/
def heldWith (levels : Nat) (nested : Rule Lead) : Rule Lead := do
  match ← leadWith levels nested with
  | .condition first => return .condition (← connected (unaryWith levels nested) first)
  | .operand target =>
    if (← peek) = some (.operator .closeParen) then return .operand target
    else
      let first ← predicate levels target
      return .condition (← connected (unaryWith levels nested) first)

def deniedWith (levels : Nat) (nested : Rule Lead) : Rule Lead := do
  keyword .not
  return .condition (.negation (← unaryWith levels nested))

/-- What round brackets hold, marked as bracketed. -/
def groupWith (levels : Nat) (nested : Rule Lead) : Rule Lead := do
  match ← bracketed (heldWith levels nested) with
  | .condition condition => return .condition (.nested condition)
  | .operand operand => return .operand (.nested operand)

/-- What `NOT` or round brackets open, given the rule one level further in. -/
def nestedWith (levels : Nat) (nested : Rule Lead) : Rule Lead := do
  if (← peek) = some (.keyword .not) then deniedWith levels nested
  else groupWith levels nested

/-- `NOT` and round brackets open one level. -/
def nestedLead : Nat → List Token → Except Fault (Lead × List Token)
  | 0, tokens => tooDeep tokens
  | levels + 1, tokens => nestedWith levels (nestedLead levels) tokens

def unary (levels : Nat) : Rule Condition :=
  unaryWith levels (nestedLead levels)

def conditions (levels : Nat) : Rule Condition := do
  connected (unary levels) (← unary levels)

end Grammar

end VectorQuery
