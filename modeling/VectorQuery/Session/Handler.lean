import VectorQuery.Command.Document
import VectorQuery.Diagnostic
import VectorQuery.Session.Config

/-! Handlers: the side of a session that talks to a store. A handler answers the
commands of the families it implements, with a state of its own. -/
namespace VectorQuery

/-- How a handler answers one family of commands. -/
abbrev Answers (σ output ρ : Type) :=
  ρ → Defaults → σ → Except Diagnostic output × σ

structure Handler (σ output : Type) where
  database : Option (Answers σ output DatabaseCommand) := none
  collection : Option (Answers σ output CollectionCommand) := none
  partition : Option (Answers σ output PartitionCommand) := none
  index : Option (Answers σ output IndexCommand) := none
  write : Option (Answers σ output WriteCommand) := none
  delete : Option (Answers σ output Delete) := none
  query : Option (Answers σ output Query) := none
  search : Option (Answers σ output Search) := none

/-- Why a command reaches no handler. -/
inductive SessionError where
  | unsupported (kind : CommandKind)
deriving DecidableEq, Repr

namespace SessionError

def summary : SessionError → String
  | .unsupported kind => "no handler for `" ++ kind.tag ++ "`"

def diagnostic (error : SessionError) : Diagnostic where
  code := "SESSION_001"
  message := error.summary
  help := some "implement the matching `Handler` method"

end SessionError

namespace Handler

/-- The answer of one family, which refuses what it does not implement and leaves the
state alone. -/
def answer {σ output ρ : Type} (family : Option (Answers σ output ρ))
    (kind : CommandKind) (request : ρ) (defaults : Defaults) (state : σ) :
    Except Diagnostic output × σ :=
  match family with
  | some answers => answers request defaults state
  | none => (.error (SessionError.unsupported kind).diagnostic, state)

/-- Hands a command to its family, with the defaults of its kind. The commands about parts
of the store go by their section. -/
def dispatch {σ output : Type} (handler : Handler σ output) (config : Config)
    (command : Command) (state : σ) : Except Diagnostic output × σ :=
  let kind := command.kind
  let defaults := config.defaultsFor kind
  match command with
  | .write request => answer handler.write kind request defaults state
  | .delete request => answer handler.delete kind request defaults state
  | .query request => answer handler.query kind request defaults state
  | .search request => answer handler.search kind request defaults state
  | _ =>
    match Section.ofKind kind, command with
    | .database, .database request => answer handler.database kind request defaults state
    | .collection, .collection request => answer handler.collection kind request defaults state
    | .partition, .partition request => answer handler.partition kind request defaults state
    | .index, .index request => answer handler.index kind request defaults state
    | _, _ => (.error (SessionError.unsupported kind).diagnostic, state)

end Handler

end VectorQuery
