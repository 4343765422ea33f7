import VectorQuery.Schema
import VectorQuery.Value.Mapping

/-! Commands, one for each statement, grouped by the part of the store that answers
them. A filter is already compiled to its predicate. -/
namespace VectorQuery

inductive DatabaseCommand where
  | create (name : String)
  | drop (name : String)
  | use (name : String)
  | showAll
deriving DecidableEq, Repr

structure CreateCollection where
  name : String
  fields : List FieldDefinition
  options : Mapping
deriving BEq, DecidableEq, Repr

namespace CreateCollection

/-- The first field that breaks a rule decides. -/
def validate (collection : CreateCollection) : Except StatementError Unit :=
  collection.fields.forM FieldDefinition.validate

end CreateCollection

/-- Statements about collections and their aliases. -/
inductive CollectionCommand where
  | showAll
  | drop (name : String)
  | release (name : String)
  | compact (name : String)
  | load (name : String) (options : Mapping)
  | createAlias (name collection : String)
  | dropAlias (name collection : String)
  | showAliases (collection : String)
  | rename (old new database : String)
  | create (collection : CreateCollection)
deriving BEq, DecidableEq, Repr

inductive PartitionCommand where
  | create (partition collection : String) (options : Mapping)
  | showAll (collection : String)
  | drop (partition collection : String)
  | load (collection : String) (partitions : List String) (options : Mapping)
  | release (collection : String) (partitions : List String)
deriving BEq, DecidableEq, Repr

/-- Options of an index. Its type and its metric stand apart from the others. -/
structure IndexOptions where
  indexType : Option Value
  metricType : Option Value
  options : Mapping
deriving BEq, DecidableEq, Repr

namespace IndexOptions

def ofMapping (options : Mapping) : IndexOptions where
  indexType := options.get? "index_type"
  metricType := options.get? "metric_type"
  options := (options.erase "index_type").erase "metric_type"

end IndexOptions

inductive IndexCommand where
  | create (index collection field : String) (options : Option IndexOptions)
  | showAll (collection : String)
  | drop (index collection : String)
deriving BEq, DecidableEq, Repr

structure BulkInsert where
  collection : String
  partition : Option String
  files : List String
deriving DecidableEq, Repr

/-- Rows to insert or to upsert. -/
structure Write where
  collection : String
  partition : Option String
  rows : List Mapping
deriving BEq, DecidableEq, Repr

inductive WriteCommand where
  | bulk (insert : BulkInsert)
  | insert (write : Write)
  | upsert (write : Write)
deriving BEq, DecidableEq, Repr

structure Delete where
  collection : String
  partition : Option String
  filter : Option String
  options : Mapping
deriving BEq, DecidableEq, Repr

structure Query where
  collection : String
  columns : List String
  partitions : List String
  limit : Option Int64
  offset : Option Int64
  filter : Option String
  options : Mapping
deriving BEq, DecidableEq, Repr

/-- Options of a search. Its metric and its offset stand apart from the others. -/
structure SearchOptions where
  metricType : Option Value := none
  offset : Option Value := none
  options : Mapping := .empty
deriving BEq, DecidableEq, Repr

namespace SearchOptions

/-- Takes one option. An object under `params` is spread out among the others. -/
def add (search : SearchOptions) (key : String) (value : Value) : SearchOptions :=
  if key = "metric_type" then { search with metricType := some value }
  else if key = "offset" then { search with offset := some value }
  else
    match value with
    | .object entries =>
      if key = "params" then { search with options := search.options.insertAll entries }
      else { search with options := search.options.insert key value }
    | _ => { search with options := search.options.insert key value }

def ofMapping (options : Mapping) : SearchOptions :=
  options.entries.foldl (fun search entry => search.add entry.1 entry.2) {}

end SearchOptions

structure Search where
  collection : String
  columns : List String
  partitions : List String
  target : String
  vectors : List (List Value)
  limit : Option Int64
  filter : Option String
  options : SearchOptions
deriving BEq, DecidableEq, Repr

inductive Command where
  | database (command : DatabaseCommand)
  | collection (command : CollectionCommand)
  | partition (command : PartitionCommand)
  | index (command : IndexCommand)
  | write (command : WriteCommand)
  | delete (command : Delete)
  | query (command : Query)
  | search (command : Search)
deriving BEq, DecidableEq, Repr

end VectorQuery
