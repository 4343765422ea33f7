import VectorQuery.Command.Document
import VectorQuery.Grammar.Field
import VectorQuery.Proofs.Token.Spelling

/-! Commands written as statements: one way for each shape. Options are always written
in full, a filter as the option `expr`, and rows under the names of the longest. -/
namespace VectorQuery

open Lexeme Document

namespace Value

mutual
def lexemes : Value → List Lexeme
  | .null => [.null]
  | .boolean truth => [ofBoolean truth]
  | .integer number => [ofInteger number]
  | .float number => [ofFloat number]
  | .text content => [ofText content]
  | .array items => ofOperator .openBracket :: (itemLexemes [] items ++ [ofOperator .closeBracket])
  | .object entries =>
    ofOperator .openBrace :: (entryLexemes [] entries ++ [ofOperator .closeBrace])

/-- Items behind a separator, and a comma before each other. -/
def itemLexemes (separator : List Lexeme) : List Value → List Lexeme
  | [] => []
  | item :: rest => separator ++ lexemes item ++ itemLexemes [.comma] rest

def entryLexemes (separator : List Lexeme) : List (String × Value) → List Lexeme
  | [] => []
  | (key, value) :: rest =>
    separator ++ ofText key :: ofOperator .colon :: lexemes value ++ entryLexemes [.comma] rest
end

mutual
/-- Floats are finite, texts and keys lack a quote, keys are distinct, and at most this
many brackets are open at once. -/
def Writable : Value → Nat → Prop
  | .float number, _ => number.isFinite = true
  | .text content, _ => LacksQuote content
  | .array items, levels + 1 => ItemsWritable items levels
  | .object entries, levels + 1 =>
    (entries.map Prod.fst).Nodup ∧ EntriesWritable entries levels
  | .array _, 0 | .object _, 0 => False
  | _, _ => True

def ItemsWritable : List Value → Nat → Prop
  | [], _ => True
  | item :: rest, levels => Writable item levels ∧ ItemsWritable rest levels

def EntriesWritable : List (String × Value) → Nat → Prop
  | [], _ => True
  | (key, value) :: rest, levels =>
    LacksQuote key ∧ Writable value levels ∧ EntriesWritable rest levels
end

end Value

namespace Mapping

/-- The mapping can be written between braces around this many levels. -/
def Writable (mapping : Mapping) (levels : Nat) : Prop :=
  mapping.keys.Nodup ∧ Value.EntriesWritable mapping.entries levels

end Mapping

/-! Fields. -/

namespace FieldType

def sizeLexemes (number : Int64) : List Lexeme :=
  [ofOperator .openParen, ofInteger number, ofOperator .closeParen]

def lexemes : FieldType → List Lexeme
  | .scalar name => [ofWord name.toList]
  | .sized name length => ofWord name.toList :: sizeLexemes length
  | .vector element dimension =>
    ofWord element.toList :: ofWord "VECTOR".toList :: sizeLexemes dimension
  | .array element capacity none =>
    ofWord element.toList :: ofWord "ARRAY".toList :: sizeLexemes capacity
  | .array element capacity (some length) =>
    ofWord element.toList :: (sizeLexemes length ++ ofWord "ARRAY".toList :: sizeLexemes capacity)

/-- The word of the type is a type word, and only an array with a length is one of
VARCHAR. -/
def WellFormed : FieldType → Prop
  | .scalar name | .sized name _ => IsTypeWord name
  | .vector element _ => IsTypeWord element
  | .array element _ none => IsTypeWord element ∧ element ≠ "VARCHAR"
  | .array element _ (some _) => IsTypeWord element

end FieldType

namespace FieldAttribute

def lexemes : FieldAttribute → List Lexeme
  | .primaryKey => [ofWord "PRIMARY".toList, ofWord "KEY".toList]
  | .partitionKey => [ofWord "PARTITION".toList, ofWord "KEY".toList]
  | .autoId => [ofWord "AUTO".toList, ofWord "ID".toList]
  | .dynamic => [ofWord "DYNAMIC".toList]
  | .description text =>
    [ofWord "DESCRIPTION".toList, ofOperator .openParen, ofText text, ofOperator .closeParen]

end FieldAttribute

namespace FieldDefinition

def attributes (field : FieldDefinition) : List FieldAttribute :=
  (if field.isPrimary then [.primaryKey] else []) ++
    (if field.isPartitionKey then [.partitionKey] else []) ++
    (if field.autoId then [.autoId] else []) ++ (if field.isDynamic then [.dynamic] else []) ++
    field.description.elim [] fun text => [.description text]

def lexemes (field : FieldDefinition) : List Lexeme :=
  ofName field.name :: (field.type.lexemes ++ field.attributes.flatMap FieldAttribute.lexemes)

structure WellFormed (field : FieldDefinition) : Prop where
  name : IsName field.name
  type : field.type.WellFormed
  description : ∀ text ∈ field.description, LacksQuote text

end FieldDefinition

/-! Clauses. -/

namespace Lexeme

def ofOptions (entries : List (String × Value)) : List Lexeme :=
  ofKeyword .with :: (Value.object entries).lexemes

def ofFields (fields : List FieldDefinition) : List Lexeme :=
  ofOperator .openParen ::
    (separatedBy [] FieldDefinition.lexemes fields ++ [ofOperator .closeParen])

/-- A collection, or one partition of it. -/
def ofTarget (partition : Option String) (collection : String) : List Lexeme :=
  match partition with
  | some partition => [ofKeyword .partition, ofName partition, ofKeyword .on, ofName collection]
  | none => [ofName collection]

/-- A collection named as such, or one partition of it. -/
def ofBulkTarget (partition : Option String) (collection : String) : List Lexeme :=
  match partition with
  | some partition => [ofKeyword .partition, ofName partition, ofKeyword .on, ofName collection]
  | none => [ofKeyword .collection, ofName collection]

def ofNames (names : List String) : List Lexeme :=
  separatedBy [] (fun name => [ofName name]) names

def ofLimit (word : Keyword) (number : Option Int64) : List Lexeme :=
  number.elim [] fun number => [ofKeyword word, ofInteger number]

def ofColumn (column : String) : List Lexeme :=
  if column = "*" then [ofOperator .star]
  else if column = "count(*)" then
    [ofKeyword .count, ofOperator .openParen, ofOperator .star, ofOperator .closeParen]
  else [ofName column]

/-- The partitions to which a selection keeps, where there are any. -/
def ofSelected (partitions : List String) : List Lexeme :=
  if partitions.isEmpty then []
  else ofKeyword .partition :: (ofNames partitions ++ [ofKeyword .on])

/-- What is selected, and then the rest of the statement. -/
def ofSelection (columns partitions : List String) (collection : String) (rest : List Lexeme) :
    List Lexeme :=
  separatedBy [] ofColumn columns ++ ofKeyword .from ::
    (ofSelected partitions ++ ofName collection :: rest)

end Lexeme

/-- Options with a filter among them. -/
def filterEntries (filter : Option String) (options : List (String × Value)) :
    List (String × Value) :=
  present "expr" (filter.map .text) ++ options

/-! Commands. -/

namespace DatabaseCommand

def lexemes : DatabaseCommand → List Lexeme
  | .create name => [ofKeyword .create, ofKeyword .database, ofName name]
  | .drop name => [ofKeyword .drop, ofKeyword .database, ofName name]
  | .use name => [ofKeyword .use, ofName name]
  | .showAll => [ofKeyword .show, ofKeyword .databases]

def WellFormed : DatabaseCommand → Prop
  | .create name | .drop name | .use name => IsName name
  | .showAll => True

end DatabaseCommand

namespace CreateCollection

def lexemes (collection : CreateCollection) : List Lexeme :=
  ofName collection.name :: (ofFields collection.fields ++ ofOptions collection.options.entries)

structure WellFormed (collection : CreateCollection) (levels : Nat) : Prop where
  name : IsName collection.name
  fields : ∀ field ∈ collection.fields, field.WellFormed
  options : collection.options.Writable levels

end CreateCollection

namespace CollectionCommand

def lexemes : CollectionCommand → List Lexeme
  | .showAll => [ofKeyword .show, ofKeyword .collections]
  | .drop name => [ofKeyword .drop, ofKeyword .collection, ofName name]
  | .release name => [ofKeyword .release, ofKeyword .collection, ofName name]
  | .compact name => [ofKeyword .compact, ofKeyword .collection, ofName name]
  | .load name options =>
    ofKeyword .load :: ofKeyword .collection :: ofName name :: ofOptions options.entries
  | .createAlias name collection =>
    [ofKeyword .create, ofKeyword .alias, ofName name, ofKeyword .for, ofName collection]
  | .dropAlias name collection =>
    [ofKeyword .drop, ofKeyword .alias, ofName name, ofKeyword .for, ofName collection]
  | .showAliases collection =>
    [ofKeyword .show, ofKeyword .aliases, ofKeyword .for, ofName collection]
  | .rename old new database =>
    [ofKeyword .rename, ofKeyword .collection, ofName old, ofKeyword .to, ofName new,
     ofKeyword .in, ofName database]
  | .create collection => ofKeyword .create :: ofKeyword .collection :: collection.lexemes

def WellFormed : CollectionCommand → Nat → Prop
  | .showAll, _ => True
  | .drop name, _ | .release name, _ | .compact name, _ | .showAliases name, _ => IsName name
  | .load name options, levels => IsName name ∧ options.Writable levels
  | .createAlias name collection, _ | .dropAlias name collection, _ =>
    IsName name ∧ IsName collection
  | .rename old new database, _ => IsName old ∧ IsName new ∧ IsName database
  | .create collection, levels => collection.WellFormed levels

end CollectionCommand

namespace PartitionCommand

def lexemes : PartitionCommand → List Lexeme
  | .create partition collection options =>
    ofKeyword .create :: ofKeyword .partition :: ofName partition :: ofKeyword .on ::
      ofName collection :: ofOptions options.entries
  | .showAll collection =>
    [ofKeyword .show, ofKeyword .partitions, ofKeyword .on, ofName collection]
  | .drop partition collection =>
    [ofKeyword .drop, ofKeyword .partition, ofName partition, ofKeyword .on, ofName collection]
  | .load collection partitions options =>
    ofKeyword .load :: ofKeyword .partition :: (ofNames partitions ++ ofKeyword .on ::
      ofName collection :: ofOptions options.entries)
  | .release collection partitions =>
    ofKeyword .release :: ofKeyword .partition :: (ofNames partitions ++
      [ofKeyword .on, ofName collection])

def WellFormed : PartitionCommand → Nat → Prop
  | .create partition collection options, levels =>
    IsName partition ∧ IsName collection ∧ options.Writable levels
  | .showAll collection, _ => IsName collection
  | .drop partition collection, _ => IsName partition ∧ IsName collection
  | .load collection partitions options, levels =>
    IsName collection ∧ partitions ≠ [] ∧ (∀ name ∈ partitions, IsName name) ∧
      options.Writable levels
  | .release collection partitions, _ =>
    IsName collection ∧ partitions ≠ [] ∧ ∀ name ∈ partitions, IsName name

end PartitionCommand

namespace IndexOptions

def written (index : IndexOptions) : List (String × Value) :=
  present "index_type" index.indexType ++ present "metric_type" index.metricType ++
    index.options.entries

structure WellFormed (index : IndexOptions) (levels : Nat) : Prop where
  indexType : ∀ value ∈ index.indexType, value.Writable levels
  metricType : ∀ value ∈ index.metricType, value.Writable levels
  options : index.options.Writable levels
  bare : "index_type" ∉ index.options.keys ∧ "metric_type" ∉ index.options.keys

end IndexOptions

namespace IndexCommand

def lexemes : IndexCommand → List Lexeme
  | .create index collection field options =>
    ofKeyword .create :: ofKeyword .index :: ofName index :: ofKeyword .on :: ofName collection ::
      ofOperator .openParen :: ofName field :: ofOperator .closeParen ::
      options.elim [] fun options => ofOptions options.written
  | .showAll collection =>
    [ofKeyword .show, ofKeyword .indexes, ofKeyword .on, ofName collection]
  | .drop index collection =>
    [ofKeyword .drop, ofKeyword .index, ofName index, ofKeyword .on, ofName collection]

def WellFormed : IndexCommand → Nat → Prop
  | .create index collection field options, levels =>
    IsName index ∧ IsName collection ∧ IsName field ∧ ∀ given ∈ options, given.WellFormed levels
  | .showAll collection, _ => IsName collection
  | .drop index collection, _ => IsName index ∧ IsName collection

end IndexCommand

namespace BulkInsert

def lexemes (insert : BulkInsert) : List Lexeme :=
  ofKeyword .insert :: (ofBulkTarget insert.partition insert.collection ++ ofKeyword .from ::
    separatedBy [] (fun file => [ofText file]) insert.files)

structure WellFormed (insert : BulkInsert) : Prop where
  collection : IsName insert.collection
  partition : ∀ name ∈ insert.partition, IsName name
  files : ∀ file ∈ insert.files, LacksQuote file

end BulkInsert

namespace Write

/-- The keys of the longest row. -/
def longestKeys : List Mapping → List String
  | [] => []
  | row :: rows =>
    if (longestKeys rows).length < row.keys.length then row.keys else longestKeys rows

def rowLexemes (row : Mapping) : List Lexeme :=
  ofOperator .openParen ::
    (separatedBy [] Value.lexemes (row.entries.map Prod.snd) ++ [ofOperator .closeParen])

def lexemes (write : Write) : List Lexeme :=
  ofKeyword .into :: (ofTarget write.partition write.collection ++
    ((ofOperator .openParen :: (ofNames (longestKeys write.rows) ++ [ofOperator .closeParen])) ++
      ofKeyword .values :: separatedBy [] rowLexemes write.rows))

/-- No row is empty, and of two rows the keys of one start the keys of the other. -/
structure WellFormed (write : Write) (levels : Nat) : Prop where
  collection : IsName write.collection
  partition : ∀ name ∈ write.partition, IsName name
  filled : write.rows ≠ [] ∧ ∀ row ∈ write.rows, row.entries ≠ []
  keys : ∀ row ∈ write.rows, row.keys.Nodup ∧ ∀ key ∈ row.keys, IsName key
  values : ∀ row ∈ write.rows, ∀ entry ∈ row.entries, entry.2.Writable levels
  aligned : ∀ row ∈ write.rows, ∀ other ∈ write.rows,
    row.keys <+: other.keys ∨ other.keys <+: row.keys

end Write

namespace WriteCommand

def lexemes : WriteCommand → List Lexeme
  | .bulk files => ofKeyword .bulk :: files.lexemes
  | .insert write => ofKeyword .insert :: write.lexemes
  | .upsert write => ofKeyword .upsert :: write.lexemes

def WellFormed : WriteCommand → Nat → Prop
  | .bulk files, _ => files.WellFormed
  | .insert write, levels | .upsert write, levels => write.WellFormed levels

end WriteCommand

namespace Delete

def lexemes (delete : Delete) : List Lexeme :=
  ofKeyword .from :: (ofTarget delete.partition delete.collection ++
    ofOptions (filterEntries delete.filter delete.options.entries))

structure WellFormed (delete : Delete) (levels : Nat) : Prop where
  collection : IsName delete.collection
  partition : ∀ name ∈ delete.partition, IsName name
  filter : ∀ text ∈ delete.filter, LacksQuote text
  options : delete.options.Writable levels
  bare : "expr" ∉ delete.options.keys

end Delete

/-- A field, every field, or the number of rows. -/
def IsColumn (column : String) : Prop :=
  column = "*" ∨ column = "count(*)" ∨ IsName column

namespace Query

def lexemes (query : Query) : List Lexeme :=
  ofSelection query.columns query.partitions query.collection
    (ofLimit .limit query.limit ++ (ofLimit .offset query.offset ++
      ofOptions (filterEntries query.filter query.options.entries)))

structure WellFormed (query : Query) (levels : Nat) : Prop where
  collection : IsName query.collection
  columns : query.columns ≠ [] ∧ ∀ column ∈ query.columns, IsColumn column
  partitions : ∀ name ∈ query.partitions, IsName name
  filter : ∀ text ∈ query.filter, LacksQuote text
  options : query.options.Writable levels
  bare : "expr" ∉ query.options.keys

end Query

namespace SearchOptions

def written (search : SearchOptions) : List (String × Value) :=
  present "metric_type" search.metricType ++ present "offset" search.offset ++
    [("params", search.options.toValue)]

structure WellFormed (search : SearchOptions) (levels : Nat) : Prop where
  metricType : ∀ value ∈ search.metricType, value.Writable levels
  offset : ∀ value ∈ search.offset, value.Writable levels
  options : search.options.Writable levels

end SearchOptions

namespace Search

def lexemes (search : Search) : List Lexeme :=
  ofSelection search.columns search.partitions search.collection
    (ofKeyword .order :: ofKeyword .by :: ofName search.target :: ofOperator .less ::
      ofOperator .minus :: ofOperator .greater ::
      ((Value.array (search.vectors.map .array)).lexemes ++ (ofLimit .limit search.limit ++
        ofOptions (filterEntries search.filter search.options.written))))

structure WellFormed (search : Search) (levels : Nat) : Prop where
  collection : IsName search.collection
  columns : search.columns ≠ [] ∧ ∀ column ∈ search.columns, IsColumn column
  partitions : ∀ name ∈ search.partitions, IsName name
  target : IsName search.target
  vectors : search.vectors ≠ [] ∧
    ∀ vector ∈ search.vectors, ∀ value ∈ vector, value.Writable levels
  filter : ∀ text ∈ search.filter, LacksQuote text
  options : search.options.WellFormed levels

end Search

namespace Command

/-- The lexemes of the command, which a semicolon ends. -/
def lexemes : Command → List Lexeme
  | .database command => command.lexemes
  | .collection command => command.lexemes
  | .partition command => command.lexemes
  | .index command => command.lexemes
  | .write command => command.lexemes
  | .delete command => ofKeyword .delete :: command.lexemes
  | .query command => ofKeyword .select :: command.lexemes
  | .search command => ofKeyword .select :: command.lexemes

/-- The command as a statement. -/
def statement (command : Command) : String :=
  String.ofList (written (command.lexemes ++ [.semicolon]))

/-- The command can be written where this many levels of brackets may be open: options
take one, and the options of a search one more. -/
def WellFormed (command : Command) (levels : Nat) : Prop :=
  2 ≤ levels ∧ match command with
    | .database command => command.WellFormed
    | .collection command => command.WellFormed (levels - 2)
    | .partition command => command.WellFormed (levels - 2)
    | .index command => command.WellFormed (levels - 2)
    | .write command => command.WellFormed (levels - 2)
    | .delete command => command.WellFormed (levels - 2)
    | .query command => command.WellFormed (levels - 2)
    | .search command => command.WellFormed (levels - 2)

end Command

end VectorQuery
