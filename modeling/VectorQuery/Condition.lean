import VectorQuery.Value.Written

/-! Filter conditions over the fields of a collection, and the predicates they
compile to. A predicate brackets every condition, so that it reads the same under
any precedence; arithmetic stays as it was written. -/
namespace VectorQuery

inductive PathSegment where
  | key (key : String)
  | index (index : Int64)
  | field (name : String)
deriving DecidableEq, Repr

/-- A field, or a part of one: `meta["tags"][0]`, `a.b`. -/
structure Path where
  root : String
  segments : List PathSegment
deriving DecidableEq, Repr

inductive Sign where
  | plus
  | minus
deriving DecidableEq, Repr

inductive Arithmetic where
  | add
  | subtract
  | multiply
  | divide
  | modulo
  | power
deriving DecidableEq, Repr

inductive Operand where
  | path (path : Path)
  | arrayLength (path : Path)
  | literal (value : Value)
  | signed (sign : Sign) (operand : Operand)
  | binary (left : Operand) (operation : Arithmetic) (right : Operand)
  | nested (operand : Operand)
deriving DecidableEq, Repr, Inhabited

inductive Comparator where
  | equal
  | notEqual
  | less
  | greater
  | lessEqual
  | greaterEqual
deriving DecidableEq, Repr

inductive Containment where
  | jsonContains
  | jsonContainsAll
  | jsonContainsAny
  | arrayContains
  | arrayContainsAll
  | arrayContainsAny
deriving DecidableEq, Repr

inductive Condition where
  | compare (left : Operand) (comparator : Comparator) (right : Operand)
  | like (target : Operand) (pattern : String) (negated : Bool)
  | between (target low high : Operand) (negated : Bool)
  | within (target : Operand) (items : List Value) (negated : Bool)
  | isNull (target : Operand) (negated : Bool)
  | contains (function : Containment) (target : Path) (value : Option Value)
  | negation (condition : Condition)
  | conjunction (left right : Condition)
  | disjunction (left right : Condition)
  | nested (condition : Condition)
deriving DecidableEq, Repr, Inhabited

def PathSegment.predicate : PathSegment → String
  | .key text => "[" ++ Text.quoted text ++ "]"
  | .index number => "[" ++ String.ofList (writeInteger number) ++ "]"
  | .field name => "." ++ name

def Path.predicate (path : Path) : String :=
  path.root ++ String.join (path.segments.map PathSegment.predicate)

def Sign.symbol : Sign → String
  | .plus => "+"
  | .minus => "-"

def Arithmetic.symbol : Arithmetic → String
  | .add => "+"
  | .subtract => "-"
  | .multiply => "*"
  | .divide => "/"
  | .modulo => "%"
  | .power => "**"

def Comparator.symbol : Comparator → String
  | .equal => "=="
  | .notEqual => "!="
  | .less => "<"
  | .greater => ">"
  | .lessEqual => "<="
  | .greaterEqual => ">="

def Containment.word : Containment → String
  | .jsonContains => "JSON_CONTAINS"
  | .jsonContainsAll => "JSON_CONTAINS_ALL"
  | .jsonContainsAny => "JSON_CONTAINS_ANY"
  | .arrayContains => "ARRAY_CONTAINS"
  | .arrayContainsAll => "ARRAY_CONTAINS_ALL"
  | .arrayContainsAny => "ARRAY_CONTAINS_ANY"

/-- Arithmetic as written. -/
def Operand.predicate : Operand → String
  | .path field => field.predicate
  | .arrayLength field => "ARRAY_LENGTH(" ++ field.predicate ++ ")"
  | .literal value => value.literal
  | .signed sign operand => sign.symbol ++ operand.predicate
  | .binary left operation right =>
    left.predicate ++ " " ++ operation.symbol ++ " " ++ right.predicate
  | .nested operand => "(" ++ operand.predicate ++ ")"

namespace Condition

/-- A bracketed predicate, denied by a word in front where it is negated. -/
def denied (negated : Bool) (word predicate : String) : String :=
  if negated then "(" ++ word ++ " " ++ predicate ++ ")" else predicate

def predicate : Condition → String
  | .compare left comparator right =>
    "(" ++ left.predicate ++ " " ++ comparator.symbol ++ " " ++ right.predicate ++ ")"
  | .like target pattern negated =>
    denied negated "NOT" ("(" ++ target.predicate ++ " LIKE " ++ Text.quoted pattern ++ ")")
  | .between target low high negated =>
    denied negated "not"
      ("(" ++ low.predicate ++ " <= " ++ target.predicate ++ " <= " ++ high.predicate ++ ")")
  | .within target items negated =>
    denied negated "NOT" ("(" ++ target.predicate ++ " IN " ++ (Value.array items).literal ++ ")")
  | .isNull target negated =>
    "(" ++ target.predicate ++ (if negated then " IS NOT NULL)" else " IS NULL)")
  | .contains function target value =>
    "(" ++ function.word ++ "(" ++ target.predicate ++
      value.elim "" (fun value => ", " ++ value.literal) ++ "))"
  | .negation condition => "NOT " ++ condition.predicate
  | .conjunction left right => "(" ++ left.predicate ++ ") AND (" ++ right.predicate ++ ")"
  | .disjunction left right => "(" ++ left.predicate ++ ") OR (" ++ right.predicate ++ ")"
  | .nested condition => "(" ++ condition.predicate ++ ")"

end Condition

end VectorQuery
