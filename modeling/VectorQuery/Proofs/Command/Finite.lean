import VectorQuery.Proofs.Command.Injective
import VectorQuery.Proofs.Command.Options

/-! Finite commands. A command has no float but those of its rows, its vectors and its
options, and to rearrange options adds none. -/
namespace VectorQuery

theorem Mapping.isFinite_iff {mapping : Mapping} :
    mapping.toValue.isFinite = true ↔ mapping.Each fun value => value.isFinite = true :=
  Value.entriesFinite_iff

theorem Mapping.isFinite_ofList {entries : List (String × Value)}
    (finite : ∀ entry ∈ entries, entry.2.isFinite = true) :
    (ofList entries).toValue.isFinite = true :=
  isFinite_iff.mpr (each_ofList finite)

theorem Mapping.isFinite_erase {mapping : Mapping} (finite : mapping.toValue.isFinite = true)
    (key : String) : (mapping.erase key).toValue.isFinite = true :=
  isFinite_iff.mpr ((isFinite_iff.mp finite).erase key)

/-- Vectors have no other floats than the items they are split off. -/
theorem Value.areFinite_of_vectors? {items : List Value} {vectors : List (List Value)}
    (split : vectors? items = some vectors) (finite : areFinite items = true) :
    ∀ vector ∈ vectors, areFinite vector = true := by
  rcases vectors?_cases split with rfl | ⟨-, rfl⟩
  · exact List.forall_mem_singleton.mpr finite
  · simpa [isFinite] using areFinite_iff.mp finite

/-! Options that stand apart from the others. -/

theorem Document.isFinite_present {key : String} {given : Option Value}
    (finite : ∀ value ∈ given, value.isFinite = true) :
    ∀ entry ∈ present key given, entry.2.isFinite = true := by
  cases given with
  | none => simp [present]
  | some value => simpa [present] using finite value rfl

theorem IndexOptions.isFinite_ofMapping {options : Mapping}
    (finite : options.toValue.isFinite = true) :
    (ofMapping options).toValue.isFinite = true := by
  have each := Mapping.isFinite_iff.mp finite
  refine Value.entriesFinite_iff.mpr ?_
  simp only [List.forall_mem_append, List.forall_mem_singleton]
  exact ⟨⟨Document.isFinite_present fun _ => each.get?, Document.isFinite_present fun _ => each.get?⟩,
    Mapping.isFinite_iff.mpr ((each.erase "index_type").erase "metric_type")⟩

namespace SearchOptions

/-- Every option, wherever it stands, is finite. -/
def Finite (search : SearchOptions) : Prop :=
  search.Each fun value => value.isFinite = true

theorem finite_ofMapping {options : Mapping} (finite : options.toValue.isFinite = true) :
    (ofMapping options).Finite :=
  each_ofMapping (Mapping.isFinite_iff.mp finite) fun _ => Value.entriesFinite_iff.mp

theorem Finite.toValue {search : SearchOptions} (finite : search.Finite) :
    search.toValue.isFinite = true := by
  refine Value.entriesFinite_iff.mpr ?_
  simp only [List.forall_mem_append, List.forall_mem_singleton]
  exact ⟨⟨Document.isFinite_present finite.metricType, Document.isFinite_present finite.offset⟩,
    Mapping.isFinite_iff.mpr finite.options⟩

end SearchOptions

/-! Commands. -/

namespace Document

theorem isFinite_texts (items : List String) : (texts items).isFinite = true :=
  Value.areFinite_iff.mpr (by simp [Value.isFinite])

theorem isFinite_nullable (text : Option String) : (nullable text).isFinite = true := by
  cases text <;> rfl

theorem isFinite_text (text : Option String) : (text.map Value.text).all Value.isFinite = true := by
  cases text <;> rfl

theorem isFinite_nullableInteger (number : Option Int64) :
    (nullableInteger number).isFinite = true := by
  cases number <;> rfl

end Document

theorem FieldDefinition.isFinite_toValue (field : FieldDefinition) :
    field.toValue.isFinite = true := by
  obtain ⟨name, type, isPrimary, isPartitionKey, autoId, isDynamic, description⟩ := field
  refine Value.entriesFinite_iff.mpr ?_
  have typed : ∀ entry ∈ type.entries, entry.2.isFinite = true := by
    rcases type with _ | _ | _ | ⟨element, capacity, _ | maxLength⟩ <;>
      simp [FieldType.entries, Value.isFinite]
  have flag (key : String) (set : Bool) :
      ∀ entry ∈ (if set then [(key, Value.boolean true)] else []), entry.2.isFinite = true := by
    cases set <;> simp [Value.isFinite]
  have described : ∀ entry ∈ description.elim [] fun description =>
      [("description", Value.text description)], entry.2.isFinite = true := by
    cases description <;> simp [Value.isFinite]
  simp only [List.forall_mem_append, List.forall_mem_cons]
  exact ⟨⟨⟨⟨⟨⟨⟨rfl, rfl, by simp⟩, typed⟩, flag _ _⟩, flag _ _⟩, flag _ _⟩, flag _ _⟩, described⟩

namespace Command

open Document

theorem isFinite_of_isBare {command : Command} (bare : command.isBare = true) :
    command.isFinite = true := by
  rcases command with command | command | command | command | command | _ | _ | _
  case database | collection | partition | index =>
    cases command <;> first
      | contradiction
      | simp [isFinite, fields, flattened, DatabaseCommand.fields, CollectionCommand.fields,
          CollectionCommand.flattened, PartitionCommand.fields, PartitionCommand.flattened,
          IndexCommand.fields, Mapping.empty, Value.isFinite, Value.entriesFinite, isFinite_texts]
  case write =>
    cases command with
    | bulk insert =>
      simp [isFinite, fields, flattened, WriteCommand.fields, BulkInsert.fields, Mapping.empty,
        Value.isFinite, Value.entriesFinite, isFinite_texts, isFinite_text]
    | _ => contradiction
  all_goals contradiction

theorem isFinite_create {collection : CreateCollection}
    (finite : collection.options.toValue.isFinite = true) :
    (Command.collection (.create collection)).isFinite = true := by
  have listed : Value.areFinite (collection.fields.map FieldDefinition.toValue) = true :=
    Value.areFinite_iff.mpr (by simp [FieldDefinition.isFinite_toValue])
  simp [isFinite, fields, flattened, CollectionCommand.fields, CollectionCommand.flattened,
    Mapping.empty, Value.entriesFinite, Value.isFinite, listed, finite]

theorem isFinite_load (name : String) {options : Mapping}
    (finite : options.toValue.isFinite = true) :
    (Command.collection (.load name options)).isFinite = true := by
  have beside : Value.entriesFinite options.entries = true := finite
  simp [isFinite, fields, flattened, CollectionCommand.fields, CollectionCommand.flattened,
    Value.isFinite, beside]

theorem isFinite_createPartition (partition collection : String) {options : Mapping}
    (finite : options.toValue.isFinite = true) :
    (Command.partition (.create partition collection options)).isFinite = true := by
  have beside : Value.entriesFinite options.entries = true := finite
  simp [isFinite, fields, flattened, PartitionCommand.fields, PartitionCommand.flattened,
    Value.isFinite, beside]

theorem isFinite_loadPartitions (collection : String) (partitions : List String)
    {options : Mapping} (finite : options.toValue.isFinite = true) :
    (Command.partition (.load collection partitions options)).isFinite = true := by
  have beside : Value.entriesFinite options.entries = true := finite
  simp [isFinite, fields, flattened, PartitionCommand.fields, PartitionCommand.flattened,
    Value.isFinite, isFinite_texts, beside]

theorem isFinite_createIndex (index collection field : String) {options : Option Mapping}
    (finite : ∀ mapping ∈ options, mapping.toValue.isFinite = true) :
    (Command.index
      (.create index collection field (options.map IndexOptions.ofMapping))).isFinite = true := by
  have params : (options.map fun mapping => (IndexOptions.ofMapping mapping).toValue).all
      Value.isFinite = true := by
    cases options with
    | none => rfl
    | some mapping => exact IndexOptions.isFinite_ofMapping (finite mapping rfl)
  simp [isFinite, fields, flattened, IndexCommand.fields, Mapping.empty, Value.entriesFinite,
    Value.isFinite, Function.comp_def, params]

theorem isFinite_write {write : Write} (finite : ∀ row ∈ write.rows, row.toValue.isFinite = true) :
    (Command.write (.insert write)).isFinite = true ∧
      (Command.write (.upsert write)).isFinite = true := by
  have listed : Value.areFinite (write.rows.map Mapping.toValue) = true :=
    Value.areFinite_iff.mpr (by simpa using finite)
  simp [isFinite, fields, flattened, WriteCommand.fields, Write.fields, Mapping.empty,
    Value.entriesFinite, Value.isFinite, isFinite_text, listed]

theorem isFinite_delete {delete : Delete} (finite : delete.options.toValue.isFinite = true) :
    (Command.delete delete).isFinite = true := by
  have options : Value.entriesFinite delete.options.entries = true := finite
  simp [isFinite, fields, flattened, Delete.fields, Value.isFinite, isFinite_text, isFinite_nullable,
    options]

theorem isFinite_query {query : Query} (finite : query.options.toValue.isFinite = true) :
    (Command.query query).isFinite = true := by
  have options : Value.entriesFinite query.options.entries = true := finite
  simp [isFinite, fields, flattened, Query.fields, Value.isFinite, isFinite_texts,
    isFinite_nullable, isFinite_nullableInteger, options]

theorem isFinite_search {search : Search} (finite : search.options.Finite)
    (vectors : ∀ vector ∈ search.vectors, Value.areFinite vector = true) :
    (Command.search search).isFinite = true := by
  have listed : Value.areFinite (search.vectors.map .array) = true :=
    Value.areFinite_iff.mpr (by simpa [Value.isFinite] using vectors)
  simp [isFinite, fields, flattened, Search.fields, Value.isFinite, Mapping.empty,
    Value.entriesFinite, isFinite_texts, isFinite_nullable, isFinite_nullableInteger, listed,
    finite.toValue]

end Command

end VectorQuery
