import VectorQuery.Session.Config

/-! Configurations from documents. A part is an object whose unknown keys do not
matter, or an array of its settings in order; what is missing takes its default. -/
namespace VectorQuery

namespace Value

/-- The settings that a document gives under these names. -/
def settings? (names : List String) : Value → Option (String → Option Value)
  | .object entries => some fun name => entries.lookup name
  | .array items =>
    if items.length ≤ names.length then some fun name => (names.zip items).lookup name else none
  | _ => none

/-- A setting read from its value, or its default. -/
def setting {α : Type} (read : Value → Option α) (default : α) : Option Value → Option α
  | some value => read value
  | none => some default

def text? : Value → Option String
  | .text content => some content
  | _ => none

def boolean? : Value → Option Bool
  | .boolean truth => some truth
  | _ => none

def integer? : Value → Option Int64
  | .integer number => some number
  | _ => none

/-- Seconds in any form of number, or null for none. -/
def timeout? : Value → Option (Option Binary64)
  | .null => some none
  | .integer number =>
    some (some (.ofDecimal (number.toInt < 0) ⟨number.toInt.natAbs, 0⟩))
  | .float number => some (some number)
  | _ => none

end Value

open Value

namespace Connection

def ofValue? (value : Value) : Option Connection := do
  let given ← value.settings? ["alias"]
  let fallback : Connection := {}
  return { name := ← setting text? fallback.name (given "alias") }

end Connection

namespace OperationSettings

def ofValue? (value : Value) : Option OperationSettings := do
  let given ← value.settings? ["timeout"]
  return { timeout := ← setting timeout? none (given "timeout") }

end OperationSettings

namespace QuerySettings

def ofValue? (value : Value) : Option QuerySettings := do
  let given ← value.settings? ["timeout", "consistency_level", "ignore_growing"]
  let fallback : QuerySettings := {}
  return {
    timeout := ← setting timeout? fallback.timeout (given "timeout")
    consistencyLevel := ← setting text? fallback.consistencyLevel (given "consistency_level")
    ignoreGrowing := ← setting boolean? fallback.ignoreGrowing (given "ignore_growing") }

end QuerySettings

namespace SearchSettings

def ofValue? (value : Value) : Option SearchSettings := do
  let given ← value.settings? ["timeout", "consistency_level", "round_decimal", "ignore_growing"]
  let fallback : SearchSettings := {}
  return {
    timeout := ← setting timeout? fallback.timeout (given "timeout")
    consistencyLevel := ← setting text? fallback.consistencyLevel (given "consistency_level")
    roundDecimal := ← setting integer? fallback.roundDecimal (given "round_decimal")
    ignoreGrowing := ← setting boolean? fallback.ignoreGrowing (given "ignore_growing") }

end SearchSettings

namespace Config

def ofValue? (value : Value) : Option Config := do
  let given ← value.settings? ["connection", "database", "collection", "partition", "index",
    "insert", "delete", "query", "search"]
  let operation (name : String) := setting OperationSettings.ofValue? {} (given name)
  return {
    connection := ← setting Connection.ofValue? {} (given "connection")
    database := ← operation "database"
    collection := ← operation "collection"
    partition := ← operation "partition"
    index := ← operation "index"
    insert := ← operation "insert"
    delete := ← operation "delete"
    query := ← setting QuerySettings.ofValue? {} (given "query")
    search := ← setting SearchSettings.ofValue? {} (given "search") }

end Config

end VectorQuery
