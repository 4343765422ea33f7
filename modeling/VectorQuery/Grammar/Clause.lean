import VectorQuery.Grammar.Filter

/-! Clauses that several statements share: options, filters, and the collection or
partition that is meant. -/
namespace VectorQuery

/-- The filter that options may hold: a text as it is, any other value in its literal
form. -/
def Mapping.filter? (options : Mapping) : Option String :=
  (options.get? "expr").map fun value =>
    match value with
    | .text content => content
    | _ => value.literal

/-- A filter among the options takes the place of a compiled one. -/
def Mapping.filterOr (options : Mapping) (compiled : Option String) : Option String :=
  options.filter?.or compiled

def Mapping.withoutFilter (options : Mapping) : Mapping :=
  options.erase "expr"

namespace Grammar

def options (levels : Nat) : Rule Mapping := do
  return (← announced .with (mapping levels)).getD .empty

def compiledFilter (levels : Nat) : Rule (Option String) := do
  return (← announced .where (conditions levels)).map Condition.predicate

def target : Rule (Option String × String) := do
  if ← accept (.keyword .partition) then
    let partition ← identifier
    keyword .on
    return (some partition, ← identifier)
  else return (none, ← identifier)

def partitions : Rule (List String) :=
  separated identifier

/-- The two clauses that filter, of which one may be left out: the compiled filter and
the options. -/
def clauses (levels : Nat) : Rule (Option String × Mapping) := do
  let compiled ← compiledFilter levels
  match ← announced .with (mapping levels), compiled with
  | none, none => refuse
  | given, _ => return (compiled, given.getD .empty)

end Grammar

end VectorQuery
