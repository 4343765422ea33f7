import VectorQuery.Proofs.Command.Fields
import VectorQuery.Proofs.Value.Unique

/-! The written document of a command loses nothing. Fields that are left out are told by
the keys that follow, and options that repeat a field stand behind it, so that a command
whose floats are numbers can be found again in its text. -/
namespace VectorQuery

open Command Document

/-! Fields in front of other entries. -/

theorem shown_cons (field : String × Option Value) (fields : List (String × Option Value)) :
    shown (field :: fields) = present field.1 field.2 ++ shown fields := rfl

theorem shown_append (fields others : List (String × Option Value)) :
    shown (fields ++ others) = shown fields ++ shown others :=
  List.flatMap_append

/-- The last field is not left out, or nothing follows it. -/
def Closed (fields : List (String × Option Value)) (rest : List (String × Value)) : Prop :=
  rest = [] ∨ ∀ field ∈ fields.getLast?, field.2.isSome = true

theorem Closed.tail {field : String × Option Value} {fields : List (String × Option Value)}
    {rest : List (String × Value)} (closed : Closed (field :: fields) rest) :
    Closed fields rest := by
  cases fields with
  | nil => exact .inr (by simp)
  | cons other fields => exact closed.imp_right fun last => by simpa using last

/-- What follows a field that is left out starts with the key of a later field. -/
theorem mem_keys_of_closed {key : String} {fields : List (String × Option Value)}
    {rest others : List (String × Value)} {entry : String × Value}
    (closed : Closed ((key, none) :: fields) rest)
    (starts : shown fields ++ rest = entry :: others) : entry.1 ∈ fields.map Prod.fst := by
  have present : entry ∈ shown fields := by
    rcases closed with rfl | last
    · rw [List.append_nil] at starts
      simp [starts]
    · obtain ⟨field, isLast⟩ : ∃ field, ((key, none) :: fields).getLast? = some field :=
        ⟨_, List.getLast?_cons ..⟩
      obtain ⟨name, _ | value⟩ := field
      · exact absurd (last _ isLast) (by simp)
      · have inside : (name, some value) ∈ fields := by
          simpa using List.mem_of_getLast? isLast
        have shows : (name, value) ∈ shown fields :=
          List.mem_flatMap.mpr ⟨_, inside, List.mem_singleton_self _⟩
        cases front : shown fields with
        | nil => simp [front] at shows
        | cons first later =>
          rw [front, List.cons_append, List.cons.injEq] at starts
          simp [starts.1]
  exact mem_keys_shown (List.mem_map_of_mem present)

/-- Fields of the same keys are told apart, and so is what follows them. -/
theorem shown_append_unique {fields fields' : List (String × Option Value)}
    {rest rest' : List (String × Value)} (distinct : (fields.map Prod.fst).Nodup)
    (keys : fields.map Prod.fst = fields'.map Prod.fst) (closed : Closed fields rest)
    (closed' : Closed fields' rest') (same : shown fields ++ rest = shown fields' ++ rest') :
    fields = fields' ∧ rest = rest' := by
  induction fields generalizing fields' with
  | nil =>
    obtain rfl := List.map_eq_nil_iff.mp keys.symm
    exact ⟨rfl, same⟩
  | cons field fields ih =>
    obtain ⟨field', others, rfl⟩ : ∃ field' others, fields' = field' :: others := by
      cases fields' with
      | nil => contradiction
      | cons field' others => exact ⟨field', others, rfl⟩
    obtain ⟨absent, others⟩ := List.nodup_cons.mp distinct
    obtain ⟨key, value⟩ := field
    obtain ⟨key', value'⟩ := field'
    obtain ⟨rfl, later⟩ := List.cons.inj keys
    have behind (tails : shown fields ++ rest = shown _ ++ rest') :=
      ih others later closed.tail closed'.tail tails
    cases value with
    | none =>
      cases value' with
      | none =>
        obtain ⟨rfl, rfl⟩ := behind same
        exact ⟨rfl, rfl⟩
      | some value' => exact absurd (mem_keys_of_closed closed same) absent
    | some value =>
      cases value' with
      | none => exact absurd (later ▸ mem_keys_of_closed closed' same.symm) absent
      | some value' =>
        obtain ⟨head, tails⟩ := List.cons.inj same
        obtain ⟨rfl, rfl⟩ := behind tails
        exact ⟨by rw [(Prod.mk.inj head).2], rfl⟩

theorem shown_injective {fields fields' : List (String × Option Value)}
    (distinct : (fields.map Prod.fst).Nodup) (keys : fields.map Prod.fst = fields'.map Prod.fst)
    (same : shown fields = shown fields') : fields = fields' :=
  (shown_append_unique distinct keys (.inl rfl) (.inl rfl)
    (by rw [List.append_nil, List.append_nil, same])).1

/-! What stands under a key. -/

@[simp] theorem Mapping.toValue_inj {mapping mapping' : Mapping} :
    mapping.toValue = mapping'.toValue ↔ mapping = mapping' := by
  obtain ⟨entries⟩ := mapping
  obtain ⟨entries'⟩ := mapping'
  simp [toValue]

namespace Document

@[simp] theorem texts_inj {items items' : List String} :
    texts items = texts items' ↔ items = items' := by
  simp [texts, List.map_inj_right]

@[simp] theorem nullable_inj {text text' : Option String} :
    nullable text = nullable text' ↔ text = text' := by
  cases text <;> cases text' <;> simp [nullable]

@[simp] theorem nullableInteger_inj {number number' : Option Int64} :
    nullableInteger number = nullableInteger number' ↔ number = number' := by
  cases number <;> cases number' <;> simp [nullableInteger]

end Document

namespace FieldType

/-- What a type tells beside its name, and what it does not. -/
def fields : FieldType → List (String × Option Value)
  | .scalar _ =>
    [("dim", none), ("element_type", none), ("max_capacity", none), ("max_length", none)]
  | .sized _ maxLength =>
    [("dim", none), ("element_type", none), ("max_capacity", none),
     ("max_length", some (.integer maxLength))]
  | .vector _ dimension =>
    [("dim", some (.integer dimension)), ("element_type", none), ("max_capacity", none),
     ("max_length", none)]
  | .array element capacity maxLength =>
    [("dim", none), ("element_type", some (.text element)),
     ("max_capacity", some (.integer capacity)), ("max_length", maxLength.map .integer)]

theorem shown_fields (type : FieldType) : shown type.fields = type.entries := by
  rcases type with _ | _ | _ | ⟨element, capacity, _ | maxLength⟩ <;> rfl

theorem eq_of_fields {type type' : FieldType} (names : type.name = type'.name)
    (same : type.fields = type'.fields) : type = type' := by
  cases type <;> cases type' <;> simp_all [fields, name]
  case array.array =>
    exact Option.map_injective (fun _ _ => Value.integer.inj) same.2.2

end FieldType

namespace FieldDefinition

def fields (field : FieldDefinition) : List (String × Option Value) :=
  let flag (name : String) (set : Bool) : String × Option Value :=
    (name, if set then some (.boolean true) else none)
  [("name", some (.text field.name)), ("type", some (.text field.type.name))] ++
    field.type.fields ++
    [flag "is_primary" field.isPrimary, flag "is_partition_key" field.isPartitionKey,
     flag "auto_id" field.autoId, flag "is_dynamic" field.isDynamic,
     ("description", field.description.map .text)]

theorem toValue_eq (field : FieldDefinition) : field.toValue = .object (shown field.fields) := by
  have flag (name : String) (set : Bool) :
      present name (if set then some (.boolean true) else none) =
        if set then [(name, .boolean true)] else [] := by
    cases set <;> rfl
  have description : present "description" (field.description.map .text) =
      field.description.elim [] fun description => [("description", .text description)] := by
    cases field.description <;> rfl
  simp only [toValue, fields, shown_append, shown_cons, flag, description, field.type.shown_fields,
    List.append_assoc]
  simp [present, shown]

theorem keys_eq (field : FieldDefinition) : field.fields.map Prod.fst =
    ["name", "type", "dim", "element_type", "max_capacity", "max_length", "is_primary",
      "is_partition_key", "auto_id", "is_dynamic", "description"] := by
  obtain ⟨name, type, _, _, _, _, _⟩ := field
  cases type <;> rfl

theorem eq_of_toValue {field field' : FieldDefinition} (same : field.toValue = field'.toValue) :
    field = field' := by
  rw [toValue_eq, toValue_eq] at same
  have distinct : (field.fields.map Prod.fst).Nodup := by
    rw [keys_eq]
    decide
  have fields := shown_injective distinct (by rw [keys_eq, keys_eq]) (Value.object.inj same)
  obtain ⟨front, attributes⟩ := List.append_inj' fields rfl
  obtain ⟨names, types⟩ := List.append_inj front rfl
  have set {flag flag' : Bool}
      (alike : (if flag then some (Value.boolean true) else none) =
        if flag' then some (.boolean true) else none) : flag = flag' := by
    cases flag <;> cases flag' <;> simp_all
  simp only [List.cons.injEq, Prod.mk.injEq, true_and, and_true, Option.some.injEq,
    Value.text.injEq] at names attributes
  have type := FieldType.eq_of_fields names.2 types
  obtain ⟨primary, partition, automatic, dynamic, description⟩ := attributes
  have primary := set primary
  have partition := set partition
  have automatic := set automatic
  have dynamic := set dynamic
  have description := Option.map_injective (fun _ _ => Value.text.inj) description
  cases field
  cases field'
  simp_all

@[simp] theorem toValue_inj {field field' : FieldDefinition} :
    field.toValue = field'.toValue ↔ field = field' :=
  ⟨eq_of_toValue, congrArg toValue⟩

end FieldDefinition

namespace IndexOptions

def fields (index : IndexOptions) : List (String × Option Value) :=
  [("index_type", index.indexType), ("metric_type", index.metricType),
   ("params", some index.options.toValue)]

theorem toValue_eq (index : IndexOptions) : index.toValue = .object (shown index.fields) := by
  simp [toValue, fields, shown, present]

@[simp] theorem toValue_inj {index index' : IndexOptions} :
    index.toValue = index'.toValue ↔ index = index' := by
  refine ⟨fun same => ?_, congrArg toValue⟩
  rw [toValue_eq, toValue_eq] at same
  have fields : index.fields = index'.fields :=
    shown_injective (by simp [fields]) rfl (Value.object.inj same)
  cases index
  cases index'
  simp_all [IndexOptions.fields]

end IndexOptions

namespace SearchOptions

def fields (search : SearchOptions) : List (String × Option Value) :=
  [("metric_type", search.metricType), ("offset", search.offset),
   ("params", some search.options.toValue)]

theorem toValue_eq (search : SearchOptions) : search.toValue = .object (shown search.fields) := by
  simp [toValue, fields, shown, present]

@[simp] theorem toValue_inj {search search' : SearchOptions} :
    search.toValue = search'.toValue ↔ search = search' := by
  refine ⟨fun same => ?_, congrArg toValue⟩
  rw [toValue_eq, toValue_eq] at same
  have fields : search.fields = search'.fields :=
    shown_injective (by simp [fields]) rfl (Value.object.inj same)
  cases search
  cases search'
  simp_all [SearchOptions.fields]

end SearchOptions

/-! Shapes. -/

theorem CommandKind.tag_injective : Function.Injective CommandKind.tag := by
  have all (kind : CommandKind) : kind ∈ CommandKind.all := by cases kind <;> decide
  have distinct : (CommandKind.all.map CommandKind.tag).Nodup := by decide +kernel
  exact fun kind kind' same => List.inj_on_of_nodup_map distinct (all kind) (all kind') same

namespace Command

/-- Both commands have one shape. -/
inductive Alike : Command → Command → Prop
  | database {command command' : DatabaseCommand} :
      command.kind = command'.kind → Alike (.database command) (.database command')
  | collection {command command' : CollectionCommand} :
      command.kind = command'.kind → Alike (.collection command) (.collection command')
  | partition {command command' : PartitionCommand} :
      command.kind = command'.kind → Alike (.partition command) (.partition command')
  | index {command command' : IndexCommand} :
      command.kind = command'.kind → Alike (.index command) (.index command')
  | write {command command' : WriteCommand} :
      command.kind = command'.kind → Alike (.write command) (.write command')
  | delete {command command' : Delete} : Alike (.delete command) (.delete command')
  | query {command command' : Query} : Alike (.query command) (.query command')
  | search {command command' : Search} : Alike (.search command) (.search command')

theorem section_kind (command : Command) : Section.ofKind command.kind =
    match command with
    | .database _ => .database
    | .collection _ => .collection
    | .partition _ => .partition
    | .index _ => .index
    | .write _ => .insert
    | .delete _ => .delete
    | .query _ => .query
    | .search _ => .search := by
  rcases command with command | command | command | command | command | _ | _ | _
  all_goals try cases command
  all_goals rfl

theorem alike_of_kind {command command' : Command} (kinds : command.kind = command'.kind) :
    Alike command command' := by
  have sections := congrArg Section.ofKind kinds
  rw [section_kind, section_kind] at sections
  cases command <;> cases command' <;> try contradiction
  case database => exact .database kinds
  case collection => exact .collection kinds
  case partition => exact .partition kinds
  case index => exact .index kinds
  case write => exact .write kinds
  case delete => exact .delete
  case query => exact .query
  case search => exact .search

theorem Alike.keys {command command' : Command} (alike : Alike command command') :
    command.fields.map Prod.fst = command'.fields.map Prod.fst := by
  cases alike with
  | @database command command' kinds | @collection command command' kinds
  | @partition command command' kinds | @index command command' kinds
  | @write command command' kinds =>
    cases command <;> cases command' <;> first | rfl | contradiction
  | delete | query | search => rfl

end Command

theorem DatabaseCommand.eq_of_fields {command command' : DatabaseCommand}
    (kinds : command.kind = command'.kind) (same : command.fields = command'.fields) :
    command = command' := by
  cases command <;> cases command' <;> first
    | contradiction
    | simp_all [fields]

theorem CollectionCommand.eq_of_fields {command command' : CollectionCommand}
    (kinds : command.kind = command'.kind) (same : command.fields = command'.fields)
    (options : command.flattened = command'.flattened) : command = command' := by
  rcases command with _ | _ | _ | _ | _ | _ | _ | _ | _ | ⟨_, _, _⟩ <;>
    rcases command' with _ | _ | _ | _ | _ | _ | _ | _ | _ | ⟨_, _, _⟩ <;> first
    | contradiction
    | simp_all [fields, flattened, List.map_inj_right]

theorem PartitionCommand.eq_of_fields {command command' : PartitionCommand}
    (kinds : command.kind = command'.kind) (same : command.fields = command'.fields)
    (options : command.flattened = command'.flattened) : command = command' := by
  cases command <;> cases command' <;> first
    | contradiction
    | simp_all [fields, flattened]

theorem IndexCommand.eq_of_fields {command command' : IndexCommand}
    (kinds : command.kind = command'.kind) (same : command.fields = command'.fields) :
    command = command' := by
  cases command <;> cases command' <;> first
    | contradiction
    | simp_all [fields, Option.map_inj_right]

theorem WriteCommand.eq_of_fields {command command' : WriteCommand}
    (kinds : command.kind = command'.kind) (same : command.fields = command'.fields) :
    command = command' := by
  rcases command with ⟨_, _, _⟩ | ⟨_, _, _⟩ | ⟨_, _, _⟩ <;>
    rcases command' with ⟨_, _, _⟩ | ⟨_, _, _⟩ | ⟨_, _, _⟩ <;> first
    | contradiction
    | simp_all [fields, Write.fields, BulkInsert.fields, List.map_inj_right,
        Option.map_inj_right]

theorem Delete.eq_of_fields {delete delete' : Delete} (same : delete.fields = delete'.fields)
    (options : delete.options = delete'.options) : delete = delete' := by
  cases delete
  cases delete'
  simp_all [fields, Option.map_inj_right]

theorem Query.eq_of_fields {query query' : Query} (same : query.fields = query'.fields)
    (options : query.options = query'.options) : query = query' := by
  cases query
  cases query'
  simp_all [fields]

theorem Search.eq_of_fields {search search' : Search} (same : search.fields = search'.fields) :
    search = search' := by
  cases search
  cases search'
  simp_all [fields, List.map_inj_right]

namespace Command

theorem Alike.eq {command command' : Command} (alike : Alike command command')
    (fields : command.fields = command'.fields)
    (flattened : command.flattened = command'.flattened) : command = command' := by
  have own := (List.cons.inj fields).2
  cases alike with
  | database kinds => rw [DatabaseCommand.eq_of_fields kinds own]
  | collection kinds => rw [CollectionCommand.eq_of_fields kinds own flattened]
  | partition kinds => rw [PartitionCommand.eq_of_fields kinds own flattened]
  | index kinds => rw [IndexCommand.eq_of_fields kinds own]
  | write kinds => rw [WriteCommand.eq_of_fields kinds own]
  | delete => rw [Delete.eq_of_fields own flattened]
  | query => rw [Query.eq_of_fields own flattened]
  | search => rw [Search.eq_of_fields own]

/-- Options follow a field that every command of the shape shows. -/
theorem fields_closed (command : Command) : Closed command.fields command.flattened.entries := by
  rcases command with command | command | command | command | command | delete | query | search
  case database => exact .inl rfl
  case collection =>
    cases command with
    | load name options => exact .inr (by simp [fields, CollectionCommand.fields])
    | _ => exact .inl rfl
  case partition =>
    cases command with
    | create partition collection options => exact .inr (by simp [fields, PartitionCommand.fields])
    | load collection partitions options => exact .inr (by simp [fields, PartitionCommand.fields])
    | _ => exact .inl rfl
  case index => exact .inl rfl
  case write => exact .inl rfl
  case delete => exact .inr (by simp [fields, Delete.fields])
  case query => exact .inr (by simp [fields, Query.fields])
  case search => exact .inl rfl

theorem document_injective : Function.Injective document := by
  intro command command' same
  rw [document_eq, document_eq] at same
  have entries := Value.object.inj same
  have tags : command.kind.tag = command'.kind.tag := by
    have first := (List.cons.inj entries).1
    exact Value.text.inj (Prod.mk.inj first).2
  have alike := alike_of_kind (CommandKind.tag_injective tags)
  obtain ⟨fields, options⟩ := shown_append_unique command.fields_distinct alike.keys
    command.fields_closed command'.fields_closed entries
  exact alike.eq fields (congrArg Mapping.mk options)

end Command

/-! Finite commands. -/

theorem entriesFinite_shown {fields : List (String × Option Value)} :
    Value.entriesFinite (shown fields) = true ↔
      ∀ field ∈ fields, field.2.all Value.isFinite = true := by
  induction fields with
  | nil => simp [shown, Value.entriesFinite]
  | cons field fields ih =>
    obtain ⟨key, _ | value⟩ := field <;> simp [shown_cons, present, Value.entriesFinite, ih]

namespace Command

/-- Every float in the fields and the options of the command is a number. -/
def isFinite (command : Command) : Bool :=
  command.fields.all (fun field => field.2.all Value.isFinite) &&
    Value.entriesFinite command.flattened.entries

theorem isFinite_document {command : Command} (finite : command.isFinite = true) :
    command.document.isFinite = true := by
  obtain ⟨fields, options⟩ := Bool.and_eq_true_iff.mp finite
  have own : Value.entriesFinite (shown command.fields) = true :=
    entriesFinite_shown.mpr (List.all_eq_true.mp fields)
  rw [document_eq, Value.isFinite, Value.entriesFinite_iff, List.forall_mem_append]
  exact ⟨Value.entriesFinite_iff.mp own, Value.entriesFinite_iff.mp options⟩

/-- Commands that are written alike are the same, whatever their options repeat. -/
theorem eq_of_json_eq {command command' : Command} (finite : command.isFinite = true)
    (finite' : command'.isFinite = true)
    (same : command.document.json = command'.document.json) : command = command' := by
  have unique := Value.Form.jsonForm_legible.unique command.document (isFinite_document finite)
  have documents := unique (isFinite_document finite') delimited_nil delimited_nil
    (congrArg (·.toList ++ []) same)
  exact document_injective documents.1

/-- Options that were put in one after the other, one of them twice and one under the key
of the tag, and the same options as they stand. -/
theorem eq_of_json_eq_inserted :
    let inserted : Command := .collection (.load "a" (Mapping.ofList
      [("type", .text "drop_coll"), ("b", .integer 1),
       ("b", .float (.ofDecimal false ⟨15, -1⟩))]))
    let written : Command := .collection (.load "a"
      ⟨[("type", .text "drop_coll"), ("b", .float (.ofDecimal false ⟨15, -1⟩))]⟩)
    inserted.isFinite = true ∧ written.isFinite = true ∧
      inserted.document.json = written.document.json ∧ inserted = written := by
  intro inserted written
  have finite : inserted.isFinite = true := by decide +kernel
  have finite' : written.isFinite = true := by decide +kernel
  have same : inserted.document.json = written.document.json := by decide +kernel
  exact ⟨finite, finite', same, eq_of_json_eq finite finite' same⟩

end Command

end VectorQuery
