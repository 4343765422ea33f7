import VectorQuery.Grammar.Rows
import VectorQuery.Grammar.Selection
import VectorQuery.Grammar.Structure

/-! Statements. The first word decides what is read, and a semicolon ends it. Nothing
may follow. -/
namespace VectorQuery

namespace Grammar

def command (levels : Nat) : Rule Command := do
  if ← accept (.keyword .create) then create levels
  else if ← accept (.keyword .drop) then drop
  else if ← accept (.keyword .show) then showAll
  else if ← accept (.keyword .load) then load levels
  else if ← accept (.keyword .release) then release
  else if ← accept (.keyword .use) then return .database (.use (← identifier))
  else if ← accept (.keyword .rename) then rename
  else if ← accept (.keyword .compact) then compact
  else if ← accept (.keyword .bulk) then return .write (.bulk (← bulkInsert))
  else if ← accept (.keyword .insert) then return .write (.insert (← write levels))
  else if ← accept (.keyword .upsert) then return .write (.upsert (← write levels))
  else if ← accept (.keyword .delete) then return .delete (← delete levels)
  else if ← accept (.keyword .select) then select levels
  else refuse

def finished : Rule Unit := fun tokens =>
  match tokens with
  | [] => .ok ((), [])
  | token :: _ => .error (.unexpected token)

def statement (levels : Nat) : Rule Command := do
  let command ← command levels
  expect (.separator .semicolon)
  finished
  return command

end Grammar

end VectorQuery
