import VectorQuery.Command.Kind

/-! Commands as documents. The `type` entry comes first and the command's own entries
follow; options without an entry of their own come last, next to them. Nothing keeps
such an option from repeating an earlier key. -/
namespace VectorQuery

namespace Document

/-- An entry that is left out when absent. -/
def present (key : String) (value : Option Value) : List (String × Value) :=
  value.elim [] fun value => [(key, value)]

def texts (items : List String) : Value :=
  .array (items.map .text)

def nullable (text : Option String) : Value :=
  text.elim .null .text

def nullableInteger (number : Option Int64) : Value :=
  number.elim .null .integer

end Document

open Document

namespace CreateCollection

def entries (collection : CreateCollection) : List (String × Value) :=
  [("name", .text collection.name),
   ("fields", .array (collection.fields.map FieldDefinition.toValue)),
   ("params", collection.options.toValue)]

end CreateCollection

namespace IndexOptions

def toValue (index : IndexOptions) : Value :=
  .object (present "index_type" index.indexType ++ present "metric_type" index.metricType ++
    [("params", index.options.toValue)])

end IndexOptions

namespace SearchOptions

def toValue (search : SearchOptions) : Value :=
  .object (present "metric_type" search.metricType ++ present "offset" search.offset ++
    [("params", search.options.toValue)])

end SearchOptions

namespace DatabaseCommand

def entries : DatabaseCommand → List (String × Value)
  | .create name | .drop name | .use name => [("name", .text name)]
  | .showAll => []

end DatabaseCommand

namespace CollectionCommand

def entries : CollectionCommand → List (String × Value)
  | .showAll => []
  | .drop name | .release name | .compact name => [("name", .text name)]
  | .load name options => ("name", .text name) :: options.entries
  | .createAlias name collection | .dropAlias name collection =>
    [("alias", .text name), ("coll", .text collection)]
  | .showAliases collection => [("coll", .text collection)]
  | .rename old new database =>
    [("old_coll", .text old), ("new_coll", .text new), ("new_db", .text database)]
  | .create collection => collection.entries

end CollectionCommand

namespace PartitionCommand

def entries : PartitionCommand → List (String × Value)
  | .create partition collection options =>
    [("part", .text partition), ("coll", .text collection)] ++ options.entries
  | .showAll collection => [("coll", .text collection)]
  | .drop partition collection => [("part", .text partition), ("coll", .text collection)]
  | .load collection partitions options =>
    [("coll", .text collection), ("parts", texts partitions)] ++ options.entries
  | .release collection partitions =>
    [("coll", .text collection), ("parts", texts partitions)]

end PartitionCommand

namespace IndexCommand

def entries : IndexCommand → List (String × Value)
  | .create index collection field options =>
    [("idx", .text index), ("coll", .text collection), ("field", .text field)] ++
      present "params" (options.map IndexOptions.toValue)
  | .showAll collection => [("coll", .text collection)]
  | .drop index collection => [("idx", .text index), ("coll", .text collection)]

end IndexCommand

namespace BulkInsert

def entries (insert : BulkInsert) : List (String × Value) :=
  ("coll", .text insert.collection) :: present "part" (insert.partition.map .text) ++
    [("files", texts insert.files)]

end BulkInsert

namespace Write

def entries (write : Write) : List (String × Value) :=
  ("coll_name", .text write.collection) :: present "part_name" (write.partition.map .text) ++
    [("data", .array (write.rows.map Mapping.toValue))]

end Write

namespace WriteCommand

def entries : WriteCommand → List (String × Value)
  | .bulk files => files.entries
  | .insert write | .upsert write => write.entries

end WriteCommand

namespace Delete

def entries (delete : Delete) : List (String × Value) :=
  ("coll_name", .text delete.collection) :: present "part_name" (delete.partition.map .text) ++
    ("expr", nullable delete.filter) :: delete.options.entries

end Delete

namespace Query

def entries (query : Query) : List (String × Value) :=
  [("coll_name", .text query.collection), ("fields", texts query.columns),
   ("parts", texts query.partitions), ("limit", nullableInteger query.limit),
   ("offset", nullableInteger query.offset), ("expr", nullable query.filter)] ++
    query.options.entries

end Query

namespace Search

def entries (search : Search) : List (String × Value) :=
  [("coll_name", .text search.collection), ("fields", texts search.columns),
   ("parts", texts search.partitions), ("anns", .text search.target),
   ("data", .array (search.vectors.map .array)), ("limit", nullableInteger search.limit),
   ("expr", nullable search.filter), ("param", search.options.toValue)]

end Search

namespace Command

def entries : Command → List (String × Value)
  | .database command => command.entries
  | .collection command => command.entries
  | .partition command => command.entries
  | .index command => command.entries
  | .write command => command.entries
  | .delete command => command.entries
  | .query command => command.entries
  | .search command => command.entries

def document (command : Command) : Value :=
  .object (("type", .text command.kind.tag) :: command.entries)

/-- The document with its keys in order. The last entry of a key stands for all. -/
def canonical (command : Command) : Value :=
  command.document.sorted

end Command

end VectorQuery
