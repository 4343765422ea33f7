import VectorQuery.Command
import VectorQuery.Grammar.Clause

/-! Statements that write rows, from files or from values. Each rule starts behind the
verb of its statement. -/
namespace VectorQuery

namespace Grammar

/-- A file name. A comma before it may be left out. -/
def file : Rule (Option String) := do
  if ← comma then return some (← text)
  else if (← peek) = some (.literal .text) then return some (← text)
  else return none

/-- A collection named as such, or one partition of it. -/
def bulkTarget : Rule (Option String × String) := do
  if ← accept (.keyword .partition) then
    let partition ← identifier
    keyword .on
    return (some partition, ← identifier)
  else
    keyword .collection
    return (none, ← identifier)

def bulkInsert : Rule BulkInsert := do
  keyword .insert
  let (partition, collection) ← bulkTarget
  keyword .from
  return { collection, partition, files := ← many file }

/-- A row of values for the named columns. What has no partner is dropped. -/
def row (levels : Nat) (names : List String) : Rule Mapping := do
  let values ← bracketed (separated (value levels))
  return Mapping.ofList (names.zip values)

def write (levels : Nat) : Rule Write := do
  keyword .into
  let (partition, collection) ← target
  let names ← bracketed (separated identifier)
  keyword .values
  return { collection, partition, rows := ← separated (row levels names) }

end Grammar

end VectorQuery
