/-! The reserved words. A word is reserved in any letter case. -/
namespace VectorQuery

inductive Keyword where
  | alias
  | aliases
  | alter
  | and
  | arrayContains
  | arrayContainsAll
  | arrayContainsAny
  | arrayLength
  | «as»
  | asc
  | avg
  | between
  | bool
  | bulk
  | «by»
  | collection
  | collections
  | compact
  | count
  | create
  | database
  | databases
  | delete
  | desc
  | distinct
  | drop
  | «for»
  | «from»
  | full
  | group
  | having
  | «in»
  | index
  | indexes
  | inner
  | insert
  | into
  | is
  | join
  | jsonContains
  | jsonContainsAll
  | jsonContainsAny
  | left
  | like
  | limit
  | load
  | max
  | min
  | not
  | offset
  | on
  | or
  | order
  | partition
  | partitions
  | release
  | rename
  | right
  | select
  | set
  | «show»
  | sum
  | to
  | update
  | upsert
  | use
  | values
  | «where»
  | «with»
deriving DecidableEq, Repr

namespace Keyword

def word : Keyword → String
  | .alias => "ALIAS"
  | .aliases => "ALIASES"
  | .alter => "ALTER"
  | .and => "AND"
  | .arrayContains => "ARRAY_CONTAINS"
  | .arrayContainsAll => "ARRAY_CONTAINS_ALL"
  | .arrayContainsAny => "ARRAY_CONTAINS_ANY"
  | .arrayLength => "ARRAY_LENGTH"
  | .«as» => "AS"
  | .asc => "ASC"
  | .avg => "AVG"
  | .between => "BETWEEN"
  | .bool => "BOOL"
  | .bulk => "BULK"
  | .«by» => "BY"
  | .collection => "COLLECTION"
  | .collections => "COLLECTIONS"
  | .compact => "COMPACT"
  | .count => "COUNT"
  | .create => "CREATE"
  | .database => "DATABASE"
  | .databases => "DATABASES"
  | .delete => "DELETE"
  | .desc => "DESC"
  | .distinct => "DISTINCT"
  | .drop => "DROP"
  | .«for» => "FOR"
  | .«from» => "FROM"
  | .full => "FULL"
  | .group => "GROUP"
  | .having => "HAVING"
  | .«in» => "IN"
  | .index => "INDEX"
  | .indexes => "INDEXES"
  | .inner => "INNER"
  | .insert => "INSERT"
  | .into => "INTO"
  | .is => "IS"
  | .join => "JOIN"
  | .jsonContains => "JSON_CONTAINS"
  | .jsonContainsAll => "JSON_CONTAINS_ALL"
  | .jsonContainsAny => "JSON_CONTAINS_ANY"
  | .left => "LEFT"
  | .like => "LIKE"
  | .limit => "LIMIT"
  | .load => "LOAD"
  | .max => "MAX"
  | .min => "MIN"
  | .not => "NOT"
  | .offset => "OFFSET"
  | .on => "ON"
  | .or => "OR"
  | .order => "ORDER"
  | .partition => "PARTITION"
  | .partitions => "PARTITIONS"
  | .release => "RELEASE"
  | .rename => "RENAME"
  | .right => "RIGHT"
  | .select => "SELECT"
  | .set => "SET"
  | .«show» => "SHOW"
  | .sum => "SUM"
  | .to => "TO"
  | .update => "UPDATE"
  | .upsert => "UPSERT"
  | .use => "USE"
  | .values => "VALUES"
  | .«where» => "WHERE"
  | .«with» => "WITH"

def all : List Keyword :=
  [.alias, .aliases, .alter, .and, .arrayContains, .arrayContainsAll, .arrayContainsAny,
   .arrayLength, .«as», .asc, .avg, .between, .bool, .bulk, .«by», .collection, .collections,
   .compact, .count, .create, .database, .databases, .delete, .desc, .distinct, .drop, .«for»,
   .«from», .full, .group, .having, .«in», .index, .indexes, .inner, .insert, .into, .is,
   .join, .jsonContains, .jsonContainsAll, .jsonContainsAny, .left, .like, .limit, .load, .max,
   .min, .not, .offset, .on, .or, .order, .partition, .partitions, .release, .rename, .right,
   .select, .set, .«show», .sum, .to, .update, .upsert, .use, .values, .«where», .«with»]

/-- The keyword that a word in upper case is. -/
def ofWord? (upper : String) : Option Keyword :=
  all.find? fun keyword => keyword.word == upper

end Keyword

end VectorQuery
