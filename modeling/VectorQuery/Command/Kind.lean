import VectorQuery.Command

/-! The kind of a command, its tag in documents and its section. -/
namespace VectorQuery

/-- The parts of a store. Configuration and handlers follow them. -/
inductive Section where
  | database
  | collection
  | partition
  | index
  | insert
  | delete
  | query
  | search
deriving DecidableEq, Repr

inductive CommandKind where
  | createDatabase
  | dropDatabase
  | useDatabase
  | showDatabases
  | showCollections
  | dropCollection
  | releaseCollection
  | compactCollection
  | loadCollection
  | createAlias
  | dropAlias
  | showAliases
  | renameCollection
  | createCollection
  | createPartition
  | showPartitions
  | dropPartition
  | loadPartitions
  | releasePartitions
  | createIndex
  | showIndexes
  | dropIndex
  | bulkInsert
  | insert
  | upsert
  | delete
  | query
  | search
deriving DecidableEq, Repr

namespace CommandKind

def all : List CommandKind :=
  [.createDatabase, .dropDatabase, .useDatabase, .showDatabases, .showCollections,
   .dropCollection, .releaseCollection, .compactCollection, .loadCollection, .createAlias,
   .dropAlias, .showAliases, .renameCollection, .createCollection, .createPartition,
   .showPartitions, .dropPartition, .loadPartitions, .releasePartitions, .createIndex,
   .showIndexes, .dropIndex, .bulkInsert, .insert, .upsert, .delete, .query, .search]

def tag : CommandKind → String
  | .createDatabase => "create_db"
  | .dropDatabase => "drop_db"
  | .useDatabase => "use_db"
  | .showDatabases => "show_db"
  | .showCollections => "show_coll"
  | .dropCollection => "drop_coll"
  | .releaseCollection => "release_coll"
  | .compactCollection => "compact_coll"
  | .loadCollection => "load_coll"
  | .createAlias => "create_alias"
  | .dropAlias => "drop_alias"
  | .showAliases => "show_alias"
  | .renameCollection => "rename_coll"
  | .createCollection => "create_coll"
  | .createPartition => "create_part"
  | .showPartitions => "show_part"
  | .dropPartition => "drop_part"
  | .loadPartitions => "load_part"
  | .releasePartitions => "release_part"
  | .createIndex => "create_idx"
  | .showIndexes => "show_idx"
  | .dropIndex => "drop_idx"
  | .bulkInsert => "bulk_insert"
  | .insert => "insert"
  | .upsert => "upsert"
  | .delete => "delete"
  | .query => "query"
  | .search => "search"

end CommandKind

def Section.ofKind : CommandKind → Section
  | .createDatabase | .dropDatabase | .useDatabase | .showDatabases => .database
  | .showCollections | .dropCollection | .releaseCollection | .compactCollection
  | .loadCollection | .createAlias | .dropAlias | .showAliases | .renameCollection
  | .createCollection => .collection
  | .createPartition | .showPartitions | .dropPartition | .loadPartitions
  | .releasePartitions => .partition
  | .createIndex | .showIndexes | .dropIndex => .index
  | .bulkInsert | .insert | .upsert => .insert
  | .delete => .delete
  | .query => .query
  | .search => .search

def DatabaseCommand.kind : DatabaseCommand → CommandKind
  | .create _ => .createDatabase
  | .drop _ => .dropDatabase
  | .use _ => .useDatabase
  | .showAll => .showDatabases

def CollectionCommand.kind : CollectionCommand → CommandKind
  | .showAll => .showCollections
  | .drop _ => .dropCollection
  | .release _ => .releaseCollection
  | .compact _ => .compactCollection
  | .load _ _ => .loadCollection
  | .createAlias _ _ => .createAlias
  | .dropAlias _ _ => .dropAlias
  | .showAliases _ => .showAliases
  | .rename _ _ _ => .renameCollection
  | .create _ => .createCollection

def PartitionCommand.kind : PartitionCommand → CommandKind
  | .create _ _ _ => .createPartition
  | .showAll _ => .showPartitions
  | .drop _ _ => .dropPartition
  | .load _ _ _ => .loadPartitions
  | .release _ _ => .releasePartitions

def IndexCommand.kind : IndexCommand → CommandKind
  | .create _ _ _ _ => .createIndex
  | .showAll _ => .showIndexes
  | .drop _ _ => .dropIndex

def WriteCommand.kind : WriteCommand → CommandKind
  | .bulk _ => .bulkInsert
  | .insert _ => .insert
  | .upsert _ => .upsert

def Command.kind : Command → CommandKind
  | .database command => command.kind
  | .collection command => command.kind
  | .partition command => command.kind
  | .index command => command.kind
  | .write command => command.kind
  | .delete _ => .delete
  | .query _ => .query
  | .search _ => .search

end VectorQuery
