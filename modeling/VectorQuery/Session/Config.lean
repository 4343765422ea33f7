import VectorQuery.Command.Kind

/-! The configuration of a session: the connection, and for every section the defaults
that its commands run with. -/
namespace VectorQuery

/-- The name of the store connection that commands run against. -/
structure Connection where
  name : String := "default"
deriving BEq, DecidableEq, Repr

/-- Seconds, or the store's own timeout. -/
structure OperationSettings where
  timeout : Option Binary64 := none
deriving BEq, DecidableEq, Repr

structure QuerySettings where
  timeout : Option Binary64 := none
  consistencyLevel : String := "Bounded"
  ignoreGrowing : Bool := false
deriving BEq, DecidableEq, Repr

/-- Scores keep `roundDecimal` digits, or all of them where it is -1. -/
structure SearchSettings where
  timeout : Option Binary64 := none
  consistencyLevel : String := "Bounded"
  roundDecimal : Int64 := -1
  ignoreGrowing : Bool := false
deriving BEq, DecidableEq, Repr

structure Config where
  connection : Connection := {}
  database : OperationSettings := {}
  collection : OperationSettings := {}
  partition : OperationSettings := {}
  index : OperationSettings := {}
  insert : OperationSettings := {}
  delete : OperationSettings := {}
  query : QuerySettings := {}
  search : SearchSettings := {}
deriving BEq, DecidableEq, Repr

/-- What one command takes from the configuration. -/
structure Defaults where
  connection : String
  timeout : Option Binary64
  consistencyLevel : Option String := none
  roundDecimal : Option Int64 := none
  ignoreGrowing : Option Bool := none
deriving BEq, DecidableEq, Repr

namespace Config

def timeout (config : Config) : Section → Option Binary64
  | .database => config.database.timeout
  | .collection => config.collection.timeout
  | .partition => config.partition.timeout
  | .index => config.index.timeout
  | .insert => config.insert.timeout
  | .delete => config.delete.timeout
  | .query => config.query.timeout
  | .search => config.search.timeout

def defaultsFor (config : Config) (kind : CommandKind) : Defaults :=
  let area := Section.ofKind kind
  let common : Defaults := { connection := config.connection.name, timeout := config.timeout area }
  match area with
  | .query => { common with
      consistencyLevel := some config.query.consistencyLevel
      ignoreGrowing := some config.query.ignoreGrowing }
  | .search => { common with
      consistencyLevel := some config.search.consistencyLevel
      roundDecimal := some config.search.roundDecimal
      ignoreGrowing := some config.search.ignoreGrowing }
  | _ => common

end Config

end VectorQuery
