import VectorQuery.Session.Handler
import VectorQuery.Statement

/-! Sessions run statements: each is read and, if it stands for a command, handed to
the family of a handler that answers such commands. -/
namespace VectorQuery

structure Session where
  limits : Limits := {}
  config : Config := {}

/-- A statement without white space at its end, and with a semicolon there. -/
def terminated (text : String) : String :=
  let trimmed := Text.trimEnd text.toList
  if trimmed.getLast? = some ';' then String.ofList trimmed
  else String.ofList (trimmed ++ [';'])

namespace Session

/-- Runs one statement. The semicolon at its end may be missing. -/
def execute {σ output : Type} (session : Session) (handler : Handler σ output)
    (text : String) (state : σ) : Except Diagnostic output × σ :=
  match session.limits.read (terminated text) with
  | .ok command => handler.dispatch session.config command state
  | .error diagnostic => (.error diagnostic, state)

def run {σ output : Type} (session : Session) (handler : Handler σ output) :
    List String → σ → List (Except Diagnostic output) × σ
  | [], state => ([], state)
  | text :: texts, state =>
    let (answer, state) := session.execute handler text state
    let (answers, state) := session.run handler texts state
    (answer :: answers, state)

end Session

end VectorQuery
