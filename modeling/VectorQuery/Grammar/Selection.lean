import VectorQuery.Command
import VectorQuery.Grammar.Clause

/-! Statements that select rows: to delete them, to query them, or to search for those
nearest to given vectors. Each rule starts behind the verb of its statement. -/
namespace VectorQuery

/-- One query vector written flat, or several; `none` where both are mixed. -/
def Value.vectors? (items : List Value) : Option (List (List Value)) :=
  if items.all (!·.isArray) then some [items]
  else items.mapM fun item =>
    match item with
    | .array numbers => some numbers
    | _ => none

namespace Grammar

def delete (levels : Nat) : Rule Delete := do
  keyword .from
  let (partition, collection) ← target
  let (compiled, options) ← clauses levels
  return {
    collection, partition
    filter := options.filterOr compiled
    options := options.withoutFilter }

/-- `*`, `COUNT(*)` or a field. -/
def column : Rule String := do
  if ← accept (.operator .star) then return "*"
  else if ← accept (.keyword .count) then
    bracketed (operator .star)
    return "count(*)"
  else identifier

/-- Query vectors. A mixture is the fault of the token that opens it. -/
def vectors (levels : Nat) : Rule (List (List Value)) := do
  let opening ← current
  match Value.vectors? (← list levels) with
  | some vectors => return vectors
  | none => refuseToken opening

def query (levels : Nat) (columns partitions : List String) (collection : String) :
    Rule Query := do
  let limit ← announced .limit integer
  let offset ← announced .offset integer
  let (compiled, options) ← clauses levels
  return {
    collection, columns, partitions, limit, offset
    filter := options.filterOr compiled
    options := options.withoutFilter }

def search (levels : Nat) (columns partitions : List String) (collection : String) :
    Rule Search := do
  keyword .order
  keyword .by
  let target ← identifier
  operator .less
  operator .minus
  operator .greater
  let vectors ← vectors levels
  let limit ← announced .limit integer
  let compiled ← compiledFilter levels
  keyword .with
  let options ← mapping levels
  return {
    collection, columns, partitions, target, vectors, limit
    filter := options.filterOr compiled
    options := SearchOptions.ofMapping options.withoutFilter }

def selectedPartitions : Rule (List String) := do
  if ← accept (.keyword .partition) then
    let names ← partitions
    keyword .on
    return names
  else return []

/-- A selection is a search where it is ordered, and a query elsewhere. -/
def select (levels : Nat) : Rule Command := do
  let columns ← separated column
  keyword .from
  let partitions ← selectedPartitions
  let collection ← identifier
  if (← peek) = some (.keyword .order) then
    return .search (← search levels columns partitions collection)
  else return .query (← query levels columns partitions collection)

end Grammar

end VectorQuery
