import VectorQuery.Grammar.Clause
import VectorQuery.Proofs.Command.Options
import VectorQuery.Proofs.Grammar.Nesting
import VectorQuery.Proofs.Statement.Written

/-! Commands in the form in which every statement yields them: names are names, lists are
filled, what is told apart from the options is not told among them again, and literals nest
no deeper than the levels that were open to them. -/
namespace VectorQuery

/-! Options. -/

namespace Mapping

/-- Behind the brace around them, the values nest within this many levels. -/
def Within (mapping : Mapping) (levels : Nat) : Prop :=
  mapping.Each fun value => value.nesting < levels

theorem within_of_nesting_le {mapping : Mapping} {levels : Nat}
    (shallow : mapping.toValue.nesting ≤ levels) : mapping.Within levels := by
  obtain ⟨inner, rfl⟩ : ∃ inner, levels = inner + 1 := by
    rw [toValue, Value.nesting] at shallow
    exact ⟨levels - 1, by omega⟩
  exact fun entry inside =>
    Nat.lt_succ_of_le (Value.object_nesting_le_iff.mp shallow entry inside)

end Mapping

/-- The filter is compiled from a condition, or stands among options; both nest within the
levels. -/
def FiltersWithin (levels : Nat) (filter : String) : Prop :=
  (∃ condition : Condition, condition.nesting ≤ levels ∧ filter = condition.predicate) ∨
    ∃ options : Mapping, options.Within levels ∧ options.filter? = some filter

namespace IndexOptions

structure Regular (index : IndexOptions) (levels : Nat) : Prop where
  indexType : ∀ value ∈ index.indexType, value.nesting < levels
  metricType : ∀ value ∈ index.metricType, value.nesting < levels
  options : index.options.Within levels
  bare : "index_type" ∉ index.options.keys ∧ "metric_type" ∉ index.options.keys

theorem regular_ofMapping {options : Mapping} {levels : Nat} (within : options.Within levels) :
    (ofMapping options).Regular levels where
  indexType _ := within.get?
  metricType _ := within.get?
  options := (within.erase _).erase _
  bare := ⟨fun inside => Mapping.not_mem_keys_erase _ _ (Mapping.mem_keys_of_erase inside),
    Mapping.not_mem_keys_erase _ _⟩

end IndexOptions

namespace SearchOptions

def Regular (search : SearchOptions) (levels : Nat) : Prop :=
  search.Each fun value => value.nesting < levels

/-- Entries that are spread out nest less deep than the object that held them. -/
theorem regular_ofMapping {options : Mapping} {levels : Nat} (within : options.Within levels) :
    (ofMapping options).Regular levels :=
  each_ofMapping within fun entries shallow =>
    @Mapping.within_of_nesting_le ⟨entries⟩ _ (Nat.le_of_lt shallow)

end SearchOptions

/-! Rows and vectors. -/

theorem Value.vectors_nesting_le {items : List Value} {vectors : List (List Value)} {levels : Nat}
    (split : vectors? items = some vectors) (shallow : (array items).nesting ≤ levels) :
    vectors ≠ [] ∧ ∀ vector ∈ vectors, (array vector).nesting ≤ levels := by
  rcases vectors?_cases split with rfl | ⟨filled, rfl⟩
  · exact ⟨by simp, List.forall_mem_singleton.mpr shallow⟩
  · refine ⟨filled, fun vector inside => ?_⟩
    have inner := itemsNesting_le_iff.mp (Nat.le_refl _) (array vector) (List.mem_map_of_mem inside)
    rw [nesting] at shallow
    omega

namespace Write

/-- A row holds the values that stand at its names, and at least one of each. -/
def IsRow (names : List String) (levels : Nat) (row : Mapping) : Prop :=
  ∃ values, values ≠ [] ∧ (∀ value ∈ values, value.nesting ≤ levels) ∧
    row = Mapping.ofList (names.zip values)

variable {names : List String} {levels : Nat} {row other : Mapping}

theorem IsRow.filled (isRow : IsRow names levels row) (named : names ≠ []) : row.entries ≠ [] := by
  obtain ⟨values, filled, -, rfl⟩ := isRow
  refine Mapping.ofList_filled fun nothing => ?_
  rcases List.zip_eq_nil_iff.mp nothing with absent | absent
  · exact named absent
  · exact filled absent

theorem IsRow.keys (isRow : IsRow names levels row) (named : ∀ name ∈ names, IsName name) :
    ∀ key ∈ row.keys, IsName key := by
  obtain ⟨values, -, -, rfl⟩ := isRow
  intro key inside
  obtain ⟨entry, held, rfl⟩ := List.mem_map.mp (Mapping.mem_keys_ofList inside)
  exact named _ (List.of_mem_zip held).1

theorem IsRow.nesting_le (isRow : IsRow names levels row) :
    row.Each fun value => value.nesting ≤ levels := by
  obtain ⟨values, -, shallow, rfl⟩ := isRow
  exact Mapping.each_ofList fun entry inside => shallow _ (List.of_mem_zip inside).2

theorem map_fst_zip_grows {names : List String} {values values' : List Value}
    (shorter : values.length ≤ values'.length) :
    (names.zip values).map Prod.fst <+: (names.zip values').map Prod.fst := by
  induction names generalizing values values' with
  | nil => simp
  | cons name names ih =>
    cases values with
    | nil => exact List.nil_prefix
    | cons value values =>
      cases values' with
      | nil => simp at shorter
      | cons value' values' =>
        simp only [List.length_cons, Nat.add_le_add_iff_right] at shorter
        exact List.prefix_cons_inj name |>.mpr (ih shorter)

/-- All rows are under the same names, so that the keys of one start those of the other. -/
theorem IsRow.aligned (isRow : IsRow names levels row) (isOther : IsRow names levels other) :
    row.keys <+: other.keys ∨ other.keys <+: row.keys := by
  obtain ⟨values, -, -, rfl⟩ := isRow
  obtain ⟨values', -, -, rfl⟩ := isOther
  exact (Nat.le_total values.length values'.length).imp
    (fun shorter => Mapping.keys_prefix_ofList (map_fst_zip_grows shorter))
    (fun shorter => Mapping.keys_prefix_ofList (map_fst_zip_grows shorter))

end Write

/-! Commands. -/

structure FieldDefinition.Regular (field : FieldDefinition) : Prop where
  name : IsName field.name
  type : field.type.WellFormed

structure CreateCollection.Regular (collection : CreateCollection) (levels : Nat) : Prop where
  name : IsName collection.name
  fields : ∀ field ∈ collection.fields, field.Regular
  options : collection.options.Within levels

def CollectionCommand.Regular : CollectionCommand → Nat → Prop
  | .showAll, _ => True
  | .drop name, _ | .release name, _ | .compact name, _ | .showAliases name, _ => IsName name
  | .load name options, levels => IsName name ∧ options.Within levels
  | .createAlias name collection, _ | .dropAlias name collection, _ =>
    IsName name ∧ IsName collection
  | .rename old new database, _ => IsName old ∧ IsName new ∧ IsName database
  | .create collection, levels => collection.Regular levels

def PartitionCommand.Regular : PartitionCommand → Nat → Prop
  | .create partition collection options, levels =>
    IsName partition ∧ IsName collection ∧ options.Within levels
  | .showAll collection, _ => IsName collection
  | .drop partition collection, _ => IsName partition ∧ IsName collection
  | .load collection partitions options, levels =>
    IsName collection ∧ partitions ≠ [] ∧ (∀ name ∈ partitions, IsName name) ∧
      options.Within levels
  | .release collection partitions, _ =>
    IsName collection ∧ partitions ≠ [] ∧ ∀ name ∈ partitions, IsName name

def IndexCommand.Regular : IndexCommand → Nat → Prop
  | .create index collection field options, levels =>
    IsName index ∧ IsName collection ∧ IsName field ∧ ∀ given ∈ options, given.Regular levels
  | .showAll collection, _ => IsName collection
  | .drop index collection, _ => IsName index ∧ IsName collection

structure BulkInsert.Regular (insert : BulkInsert) : Prop where
  collection : IsName insert.collection
  partition : ∀ name ∈ insert.partition, IsName name

structure Write.Regular (write : Write) (levels : Nat) : Prop where
  collection : IsName write.collection
  partition : ∀ name ∈ write.partition, IsName name
  filled : write.rows ≠ [] ∧ ∀ row ∈ write.rows, row.entries ≠ []
  keys : ∀ row ∈ write.rows, ∀ key ∈ row.keys, IsName key
  aligned : ∀ row ∈ write.rows, ∀ other ∈ write.rows,
    row.keys <+: other.keys ∨ other.keys <+: row.keys
  values : ∀ row ∈ write.rows, row.Each fun value => value.nesting ≤ levels

def WriteCommand.Regular : WriteCommand → Nat → Prop
  | .bulk files, _ => files.Regular
  | .insert write, levels | .upsert write, levels => write.Regular levels

structure Delete.Regular (delete : Delete) (levels : Nat) : Prop where
  collection : IsName delete.collection
  partition : ∀ name ∈ delete.partition, IsName name
  filter : ∀ filter ∈ delete.filter, FiltersWithin levels filter
  options : delete.options.Within levels
  bare : "expr" ∉ delete.options.keys

structure Query.Regular (query : Query) (levels : Nat) : Prop where
  collection : IsName query.collection
  columns : query.columns ≠ [] ∧ ∀ column ∈ query.columns, IsColumn column
  partitions : ∀ name ∈ query.partitions, IsName name
  filter : ∀ filter ∈ query.filter, FiltersWithin levels filter
  options : query.options.Within levels
  bare : "expr" ∉ query.options.keys

structure Search.Regular (search : Search) (levels : Nat) : Prop where
  collection : IsName search.collection
  columns : search.columns ≠ [] ∧ ∀ column ∈ search.columns, IsColumn column
  partitions : ∀ name ∈ search.partitions, IsName name
  target : IsName search.target
  vectors : search.vectors ≠ [] ∧
    ∀ vector ∈ search.vectors, (Value.array vector).nesting ≤ levels
  filter : ∀ filter ∈ search.filter, FiltersWithin levels filter
  options : search.options.Regular levels

def Command.Regular : Command → Nat → Prop
  | .database command, _ => command.WellFormed
  | .collection command, levels => command.Regular levels
  | .partition command, levels => command.Regular levels
  | .index command, levels => command.Regular levels
  | .write command, levels => command.Regular levels
  | .delete command, levels => command.Regular levels
  | .query command, levels => command.Regular levels
  | .search command, levels => command.Regular levels

end VectorQuery
