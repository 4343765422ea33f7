import VectorQuery.Command.Document
import VectorQuery.Proofs.Grammar.Yield
import VectorQuery.Proofs.Value.Sorted

/-! The fields of a command against its canonical document. Options that stand next to
the fields can take their places, and exactly which do is decided here. -/
namespace VectorQuery

open Document

/-! The fields of each shape, and what stands under them: nothing where one is left out. -/

namespace DatabaseCommand

def fields : DatabaseCommand → List (String × Option Value)
  | .create name | .drop name | .use name => [("name", some (.text name))]
  | .showAll => []

end DatabaseCommand

namespace CollectionCommand

def fields : CollectionCommand → List (String × Option Value)
  | .showAll => []
  | .drop name | .release name | .compact name | .load name _ => [("name", some (.text name))]
  | .createAlias name collection | .dropAlias name collection =>
    [("alias", some (.text name)), ("coll", some (.text collection))]
  | .showAliases collection => [("coll", some (.text collection))]
  | .rename old new database =>
    [("old_coll", some (.text old)), ("new_coll", some (.text new)),
     ("new_db", some (.text database))]
  | .create collection =>
    [("name", some (.text collection.name)),
     ("fields", some (.array (collection.fields.map FieldDefinition.toValue))),
     ("params", some collection.options.toValue)]

def flattened : CollectionCommand → Mapping
  | .load _ options => options
  | _ => .empty

end CollectionCommand

namespace PartitionCommand

def fields : PartitionCommand → List (String × Option Value)
  | .create partition collection _ | .drop partition collection =>
    [("part", some (.text partition)), ("coll", some (.text collection))]
  | .showAll collection => [("coll", some (.text collection))]
  | .load collection partitions _ | .release collection partitions =>
    [("coll", some (.text collection)), ("parts", some (texts partitions))]

def flattened : PartitionCommand → Mapping
  | .create _ _ options | .load _ _ options => options
  | _ => .empty

end PartitionCommand

namespace IndexCommand

def fields : IndexCommand → List (String × Option Value)
  | .create index collection field options =>
    [("idx", some (.text index)), ("coll", some (.text collection)),
     ("field", some (.text field)), ("params", options.map IndexOptions.toValue)]
  | .showAll collection => [("coll", some (.text collection))]
  | .drop index collection =>
    [("idx", some (.text index)), ("coll", some (.text collection))]

end IndexCommand

namespace BulkInsert

def fields (insert : BulkInsert) : List (String × Option Value) :=
  [("coll", some (.text insert.collection)), ("part", insert.partition.map .text),
   ("files", some (texts insert.files))]

end BulkInsert

namespace Write

def fields (write : Write) : List (String × Option Value) :=
  [("coll_name", some (.text write.collection)), ("part_name", write.partition.map .text),
   ("data", some (.array (write.rows.map Mapping.toValue)))]

end Write

namespace WriteCommand

def fields : WriteCommand → List (String × Option Value)
  | .bulk files => files.fields
  | .insert write | .upsert write => write.fields

end WriteCommand

namespace Delete

def fields (delete : Delete) : List (String × Option Value) :=
  [("coll_name", some (.text delete.collection)), ("part_name", delete.partition.map .text),
   ("expr", some (nullable delete.filter))]

end Delete

namespace Query

def fields (query : Query) : List (String × Option Value) :=
  [("coll_name", some (.text query.collection)), ("fields", some (texts query.columns)),
   ("parts", some (texts query.partitions)), ("limit", some (nullableInteger query.limit)),
   ("offset", some (nullableInteger query.offset)), ("expr", some (nullable query.filter))]

end Query

namespace Search

def fields (search : Search) : List (String × Option Value) :=
  [("coll_name", some (.text search.collection)), ("fields", some (texts search.columns)),
   ("parts", some (texts search.partitions)), ("anns", some (.text search.target)),
   ("data", some (.array (search.vectors.map .array))),
   ("limit", some (nullableInteger search.limit)), ("expr", some (nullable search.filter)),
   ("param", some search.options.toValue)]

end Search

namespace Command

/-- The tag of the command's kind, and its own fields. -/
def fields (command : Command) : List (String × Option Value) :=
  ("type", some (.text command.kind.tag)) :: match command with
    | .database command => command.fields
    | .collection command => command.fields
    | .partition command => command.fields
    | .index command => command.fields
    | .write command => command.fields
    | .delete command => command.fields
    | .query command => command.fields
    | .search command => command.fields

/-- The options that stand next to the fields. -/
def flattened : Command → Mapping
  | .collection command => command.flattened
  | .partition command => command.flattened
  | .delete command => command.options
  | .query command => command.options
  | _ => .empty

/-- The command is made of names alone, and takes no options. -/
def isBare : Command → Bool
  | .database _ => true
  | .collection (.load _ _) | .collection (.create _) => false
  | .collection _ => true
  | .partition (.create _ _ _) | .partition (.load _ _ _) => false
  | .partition _ => true
  | .index (.create _ _ _ _) => false
  | .index _ => true
  | .write (.bulk _) => true
  | _ => false

/-- The canonical document shows the tag and every field as it is. -/
def Faithful (command : Command) : Prop :=
  ∀ field ∈ command.fields, command.canonical.under field.1 = field.2.map Value.sorted

/-- The fields that are not left out. -/
def shown (fields : List (String × Option Value)) : List (String × Value) :=
  fields.flatMap fun field => present field.1 field.2

theorem fields_distinct (command : Command) : (command.fields.map Prod.fst).Nodup := by
  rcases command with command | command | command | command | command | _ | _ | _
  case database => cases command <;> simp [fields, DatabaseCommand.fields]
  case collection => cases command <;> simp [fields, CollectionCommand.fields]
  case partition => cases command <;> simp [fields, PartitionCommand.fields]
  case index => cases command <;> simp [fields, IndexCommand.fields]
  case write =>
    cases command <;> simp [fields, WriteCommand.fields, BulkInsert.fields, Write.fields]
  case delete => simp [fields, Delete.fields]
  case query => simp [fields, Query.fields]
  case search => simp [fields, Search.fields]

theorem document_eq (command : Command) :
    command.document = .object (shown command.fields ++ command.flattened.entries) := by
  rcases command with command | command | command | command | command | delete | query | search
  case database => cases command <;> rfl
  case collection => cases command <;> rfl
  case partition => cases command <;> rfl
  case index =>
    rcases command with ⟨index, collection, field, _ | options⟩ | _ | _ <;> rfl
  case write =>
    rcases command with ⟨collection, _ | partition, files⟩ | ⟨collection, _ | partition, rows⟩ |
      ⟨collection, _ | partition, rows⟩ <;> rfl
  case delete =>
    obtain ⟨collection, _ | partition, filter, options⟩ := delete <;> rfl
  case query => rfl
  case search => rfl

theorem mem_keys_shown {fields : List (String × Option Value)} {key : String}
    (member : key ∈ (shown fields).map Prod.fst) : key ∈ fields.map Prod.fst := by
  obtain ⟨entry, listed, rfl⟩ := List.mem_map.mp member
  obtain ⟨field, present, found⟩ := List.mem_flatMap.mp listed
  obtain ⟨name, _ | value⟩ := field
  · contradiction
  · obtain rfl := List.mem_singleton.mp found
    exact List.mem_map_of_mem present

theorem shown_distinct {fields : List (String × Option Value)}
    (distinct : (fields.map Prod.fst).Nodup) : ((shown fields).map Prod.fst).Nodup := by
  induction fields with
  | nil => exact List.nodup_nil
  | cons field rest ih =>
    obtain ⟨absent, others⟩ := List.nodup_cons.mp distinct
    obtain ⟨key, _ | value⟩ := field
    · exact ih others
    · exact List.nodup_cons.mpr ⟨fun member => absent (mem_keys_shown member), ih others⟩

theorem lookup_shown {fields : List (String × Option Value)} {field : String × Option Value}
    (distinct : (fields.map Prod.fst).Nodup) (member : field ∈ fields) :
    (shown fields).lookup field.1 = field.2 := by
  induction fields with
  | nil => contradiction
  | cons first rest ih =>
    obtain ⟨absent, others⟩ := List.nodup_cons.mp distinct
    rcases List.mem_cons.mp member with rfl | later
    · obtain ⟨key, _ | value⟩ := field
      · exact Mapping.lookup_of_absent fun present => absent (mem_keys_shown present)
      · exact (Mapping.lookup_cons_eq ..).trans (if_pos rfl)
    · have differs : field.1 ≠ first.1 := fun same => absent (same ▸ List.mem_map_of_mem later)
      obtain ⟨key, _ | value⟩ := first
      · exact ih others later
      · exact (Mapping.lookup_cons_eq ..).trans ((if_neg differs).trans (ih others later))

/-- Under the key of a field stands the option of that key, and the field where there is
none. -/
theorem canonical_under {command : Command} (distinct : command.flattened.Distinct)
    {field : String × Option Value} (member : field ∈ command.fields) :
    command.canonical.under field.1 =
      ((command.flattened.get? field.1).or field.2).map Value.sorted := by
  have own := shown_distinct command.fields_distinct
  rw [canonical, document_eq, Value.under_sorted_append own distinct,
    lookup_shown command.fields_distinct member, Mapping.get?]

theorem flattened_of_isBare {command : Command} (bare : command.isBare = true) :
    command.flattened = .empty := by
  rcases command with command | command | command | command | command | _ | _ | _
  case collection | partition | index => cases command <;> first | rfl | contradiction
  all_goals first | rfl | contradiction

end Command

/-! Options that are read hold each key once. -/

namespace Grammar

theorem load_yields (levels : Nat) : Yields (load levels) fun read => read.flattened.Distinct := by
  refine accept_yields (then_yields fun name => ?_) (accept_yields (then_yields fun names => ?_) ?_)
  · exact bind_yields (options_yields levels) fun options distinct => pure_yields distinct
  · refine then_yields fun _ => then_yields fun collection => ?_
    exact bind_yields (options_yields levels) fun options distinct => pure_yields distinct
  · exact refuse_yields

theorem createPartition_yields (levels : Nat) :
    Yields (createPartition levels) fun read => read.flattened.Distinct := by
  refine then_yields fun partition => then_yields fun _ => then_yields fun collection => ?_
  exact bind_yields (options_yields levels) fun options distinct => pure_yields distinct

/-! Rules that read names alone. -/

theorem createAlias_yields : Yields createAlias fun read => (Command.collection read).isBare :=
  then_yields fun _ => then_yields fun _ => then_yields fun _ => pure_yields rfl

theorem dropAlias_yields : Yields dropAlias fun read => (Command.collection read).isBare :=
  then_yields fun _ => then_yields fun _ => then_yields fun _ => pure_yields rfl

theorem dropPartition_yields : Yields dropPartition fun read => (Command.partition read).isBare :=
  then_yields fun _ => then_yields fun _ => then_yields fun _ => pure_yields rfl

theorem dropIndex_yields : Yields dropIndex fun read => (Command.index read).isBare :=
  then_yields fun _ => then_yields fun _ => then_yields fun _ => pure_yields rfl

theorem drop_yields : Yields drop fun read => read.isBare := by
  refine accept_yields (then_yields fun _ => pure_yields rfl) ?_
  refine accept_yields (then_yields fun _ => pure_yields rfl) ?_
  refine accept_yields ?_ (accept_yields ?_ (accept_yields ?_ refuse_yields))
  · exact bind_yields dropAlias_yields fun _ bare => pure_yields bare
  · exact bind_yields dropPartition_yields fun _ bare => pure_yields bare
  · exact bind_yields dropIndex_yields fun _ bare => pure_yields bare

theorem showAll_yields : Yields showAll fun read => read.isBare := by
  refine accept_yields (pure_yields rfl) (accept_yields (pure_yields rfl) ?_)
  refine accept_yields (then_yields fun _ => then_yields fun _ => pure_yields rfl) ?_
  refine accept_yields (then_yields fun _ => then_yields fun _ => pure_yields rfl) ?_
  exact accept_yields (then_yields fun _ => then_yields fun _ => pure_yields rfl) refuse_yields

theorem release_yields : Yields release fun read => read.isBare := by
  refine accept_yields (then_yields fun _ => pure_yields rfl) (accept_yields ?_ refuse_yields)
  exact then_yields fun _ => then_yields fun _ => then_yields fun _ => pure_yields rfl

theorem rename_yields : Yields rename fun read => read.isBare := by
  refine then_yields fun _ => then_yields fun _ => then_yields fun _ => then_yields fun _ => ?_
  exact then_yields fun _ => then_yields fun _ => pure_yields rfl

theorem compact_yields : Yields compact fun read => read.isBare :=
  then_yields fun _ => then_yields fun _ => pure_yields rfl

/-- Without options there are none with a key that comes twice. -/
theorem distinct_of_isBare {command : Command} (bare : command.isBare = true) :
    command.flattened.Distinct := by
  rw [Command.flattened_of_isBare bare]
  exact Mapping.empty_distinct

theorem create_yields (levels : Nat) :
    Yields (create levels) fun read => read.flattened.Distinct := by
  have none := Mapping.empty_distinct
  refine accept_yields (then_yields fun _ => pure_yields none) ?_
  refine accept_yields (then_yields fun _ => pure_yields none) ?_
  refine accept_yields ?_ (accept_yields ?_ (accept_yields ?_ refuse_yields))
  · exact bind_yields createAlias_yields fun _ bare => pure_yields (distinct_of_isBare bare)
  · exact bind_yields (createPartition_yields levels) fun _ distinct => pure_yields distinct
  · exact then_yields fun _ => pure_yields none

theorem delete_yields (levels : Nat) : Yields (delete levels) fun read => read.options.Distinct := by
  refine then_yields fun _ => then_yields fun target => ?_
  refine bind_yields (clauses_yields levels) fun given distinct => ?_
  exact pure_yields (Mapping.erase_distinct distinct "expr")

theorem query_yields (levels : Nat) (columns partitions : List String) (collection : String) :
    Yields (query levels columns partitions collection) fun read => read.options.Distinct := by
  refine then_yields fun limit => then_yields fun offset => ?_
  refine bind_yields (clauses_yields levels) fun given distinct => ?_
  exact pure_yields (Mapping.erase_distinct distinct "expr")

theorem select_yields (levels : Nat) :
    Yields (select levels) fun read => read.flattened.Distinct := by
  refine then_yields fun columns => then_yields fun _ => then_yields fun partitions => ?_
  refine then_yields fun collection => then_yields fun next => choice_yields ?_ ?_
  · exact then_yields fun _ => pure_yields Mapping.empty_distinct
  · refine bind_yields (query_yields levels columns partitions collection) ?_
    exact fun read distinct => pure_yields distinct

theorem command_yields_distinct (levels : Nat) :
    Yields (command levels) fun read => read.flattened.Distinct := by
  have none := Mapping.empty_distinct
  have bare {rule : Rule Command} (yields : Yields rule fun read => read.isBare) :
      Yields rule fun read => read.flattened.Distinct := yields.weaken distinct_of_isBare
  refine accept_yields (create_yields levels) (accept_yields (bare drop_yields) ?_)
  refine accept_yields (bare showAll_yields) (accept_yields (load_yields levels) ?_)
  refine accept_yields (bare release_yields) ?_
  refine accept_yields (then_yields fun _ => pure_yields none) ?_
  refine accept_yields (bare rename_yields) (accept_yields (bare compact_yields) ?_)
  refine accept_yields (then_yields fun _ => pure_yields none) ?_
  refine accept_yields (then_yields fun _ => pure_yields none) ?_
  refine accept_yields (then_yields fun _ => pure_yields none) ?_
  refine accept_yields ?_ (accept_yields (select_yields levels) refuse_yields)
  exact bind_yields (delete_yields levels) fun _ distinct => pure_yields distinct

end Grammar

namespace Command

/-- A command that was read is shown as it is exactly where no option next to the fields
has the key of a field and holds anything else than the field does. -/
theorem faithful_iff {limits : Limits} {text : String} {command : Command}
    (read : limits.readText text = .ok command) :
    command.Faithful ↔ ∀ field ∈ command.fields, ∀ option,
      command.flattened.get? field.1 = some option →
        field.2.map Value.sorted = some option.sorted := by
  have distinct : command.flattened.Distinct :=
    Grammar.readText_holds (Grammar.command_yields_distinct limits.maxDepth) read
  apply forall₂_congr
  intro field member
  rw [canonical_under distinct member]
  cases found : command.flattened.get? field.1 with
  | none => simp
  | some option => simp [eq_comm]

/-- An option that repeats a field changes nothing. -/
theorem faithful_of_repeated_name :
    ({} : Limits).readText "load collection a with \x7b'name':'a'\x7d;" =
      .ok (.collection (.load "a" ⟨[("name", .text "a")]⟩)) ∧
    (collection (.load "a" ⟨[("name", .text "a")]⟩)).Faithful := by
  have split : Token.sequence "load collection a with \x7b'name':'a'\x7d;" =
      .ok [⟨.keyword .load, "LOAD", 1, 1⟩, ⟨.keyword .collection, "COLLECTION", 1, 6⟩,
        ⟨.identifier, "a", 1, 17⟩, ⟨.keyword .with, "WITH", 1, 19⟩,
        ⟨.operator .openBrace, "\x7b", 1, 24⟩, ⟨.literal .text, "name", 1, 25⟩,
        ⟨.operator .colon, ":", 1, 31⟩, ⟨.literal .text, "a", 1, 32⟩,
        ⟨.operator .closeBrace, "\x7d", 1, 35⟩, ⟨.separator .semicolon, ";", 1, 36⟩] := by rfl
  have read : ({} : Limits).readText "load collection a with \x7b'name':'a'\x7d;" =
      .ok (.collection (.load "a" ⟨[("name", .text "a")]⟩)) :=
    Grammar.readText_of_tokens rfl split rfl
  refine ⟨read, (faithful_iff read).mpr ?_⟩
  intro field member option found
  have listed : field ∈ [("type", some (.text "load_coll")), ("name", some (.text "a"))] := member
  simp only [List.mem_cons, List.not_mem_nil, or_false] at listed
  rcases listed with rfl | rfl
  · exact absurd found
      (by simp [flattened, CollectionCommand.flattened, Mapping.get?, Mapping.lookup_cons_eq])
  · have same : option = .text "a" := Option.some.inj (found.symm.trans rfl)
    rw [same]
    rfl

/-- An option under `type` replaces the tag: a statement that loads a collection is shown
as one that drops it. -/
theorem tag_replaced_by_option :
    ∃ command : Command,
      ({} : Limits).readText "load collection a with \x7b'type':'drop_coll'\x7d;" = .ok command ∧
        command.kind.tag = "load_coll" ∧
        command.canonical = .object [("name", .text "a"), ("type", .text "drop_coll")] ∧
        ¬command.Faithful := by
  have split : Token.sequence "load collection a with \x7b'type':'drop_coll'\x7d;" =
      .ok [⟨.keyword .load, "LOAD", 1, 1⟩, ⟨.keyword .collection, "COLLECTION", 1, 6⟩,
        ⟨.identifier, "a", 1, 17⟩, ⟨.keyword .with, "WITH", 1, 19⟩,
        ⟨.operator .openBrace, "\x7b", 1, 24⟩, ⟨.literal .text, "type", 1, 25⟩,
        ⟨.operator .colon, ":", 1, 31⟩, ⟨.literal .text, "drop_coll", 1, 32⟩,
        ⟨.operator .closeBrace, "\x7d", 1, 43⟩, ⟨.separator .semicolon, ";", 1, 44⟩] := by rfl
  refine ⟨.collection (.load "a" ⟨[("type", .text "drop_coll")]⟩),
    Grammar.readText_of_tokens rfl split rfl, rfl, by rfl, ?_⟩
  intro faithful
  have shown := faithful ("type", some (.text "load_coll"))
    (by simp [fields, kind, CollectionCommand.kind, CommandKind.tag])
  have replaced : (canonical (.collection (.load "a" ⟨[("type", .text "drop_coll")]⟩))).under "type" =
      some (.text "drop_coll") := by rfl
  rw [replaced] at shown
  simp [Value.sorted] at shown

end Command

end VectorQuery
