import VectorQuery.Grammar.Clause
import VectorQuery.Proofs.Statement.Value

/-! Options written for a command give back what the command holds apart: the filter, the
type and the metric of an index, and the parts of a search. -/
namespace VectorQuery

open Document

namespace Value

theorem itemsWritable_iff {items : List Value} {levels : Nat} :
    ItemsWritable items levels ↔ ∀ item ∈ items, item.Writable levels := by
  induction items with
  | nil => simp [ItemsWritable]
  | cons item rest ih => simp [ItemsWritable, ih]

theorem entriesWritable_append {first second : List (String × Value)} {levels : Nat}
    (front : EntriesWritable first levels) (behind : EntriesWritable second levels) :
    EntriesWritable (first ++ second) levels := by
  induction first with
  | nil => exact behind
  | cons entry rest ih =>
    obtain ⟨lacks, writable, others⟩ := front
    exact ⟨lacks, writable, ih others⟩

theorem entriesWritable_present {key : String} {value : Option Value} {levels : Nat}
    (lacks : LacksQuote key) (writable : ∀ given ∈ value, given.Writable levels) :
    EntriesWritable (present key value) levels := by
  cases value with
  | none => trivial
  | some value => exact ⟨lacks, writable value rfl, trivial⟩

end Value

theorem mem_keys_present {key name : String} {value : Option Value}
    (member : name ∈ (present key value).map Prod.fst) : name = key := by
  cases value with
  | none => contradiction
  | some value => exact List.mem_singleton.mp member

theorem get?_present (key : String) (value : Option Value) :
    (⟨present key value⟩ : Mapping).get? key = value := by
  cases value <;> simp [present, Mapping.get?]

theorem erase_present (key : String) (value : Option Value) :
    (⟨present key value⟩ : Mapping).erase key = .empty := by
  cases value <;> simp [present, Mapping.erase, Mapping.empty]

theorem get?_present_other {key name : String} (differs : name ≠ key) (value : Option Value) :
    (⟨present key value⟩ : Mapping).get? name = none :=
  Mapping.get?_of_absent fun member => differs (mem_keys_present member)

theorem erase_present_other {key name : String} (differs : name ≠ key) (value : Option Value) :
    (⟨present key value⟩ : Mapping).erase name = ⟨present key value⟩ :=
  Mapping.erase_of_absent fun member => differs (mem_keys_present member)

theorem nodup_present_append {key : String} {value : Option Value} {entries : List (String × Value)}
    (absent : key ∉ entries.map Prod.fst) (distinct : (entries.map Prod.fst).Nodup) :
    ((present key value ++ entries).map Prod.fst).Nodup := by
  cases value with
  | none => exact distinct
  | some value => exact List.nodup_cons.mpr ⟨absent, distinct⟩

/-! Filters. -/

theorem lacksQuote_expr : LacksQuote "expr" := ⟨'"', rfl, by decide⟩

theorem filter?_written {filter : Option String} {entries : List (String × Value)}
    (absent : "expr" ∉ entries.map Prod.fst) :
    (⟨filterEntries filter entries⟩ : Mapping).filter? = filter := by
  have missing : (⟨entries⟩ : Mapping).get? "expr" = none := Mapping.get?_of_absent absent
  rw [Mapping.filter?, filterEntries, Mapping.get?_append, get?_present, missing]
  cases filter <;> rfl

theorem withoutFilter_written {filter : Option String} {entries : List (String × Value)}
    (absent : "expr" ∉ entries.map Prod.fst) :
    (⟨filterEntries filter entries⟩ : Mapping).withoutFilter = ⟨entries⟩ := by
  have kept : (⟨entries⟩ : Mapping).erase "expr" = ⟨entries⟩ := Mapping.erase_of_absent absent
  rw [Mapping.withoutFilter, filterEntries, Mapping.erase_append, erase_present, kept]
  rfl

theorem writable_filterEntries {filter : Option String} {options : Mapping} {levels : Nat}
    (lacks : ∀ text ∈ filter, LacksQuote text) (writable : options.Writable levels)
    (absent : "expr" ∉ options.keys) :
    (⟨filterEntries filter options.entries⟩ : Mapping).Writable levels := by
  refine ⟨nodup_present_append absent writable.1, Value.entriesWritable_append ?_ writable.2⟩
  refine Value.entriesWritable_present lacksQuote_expr fun given member => ?_
  obtain ⟨text, found, rfl⟩ := Option.map_eq_some_iff.mp member
  exact lacks text found

/-! Options of an index. -/

namespace IndexOptions

theorem ofMapping_written {index : IndexOptions} {levels : Nat}
    (wellFormed : index.WellFormed levels) : ofMapping ⟨index.written⟩ = index := by
  obtain ⟨type, metric, options⟩ := index
  obtain ⟨typeless, metricless⟩ := wellFormed.bare
  have differs : "index_type" ≠ "metric_type" := by decide
  have typed : (⟨written ⟨type, metric, options⟩⟩ : Mapping).get? "index_type" = type := by
    rw [written, Mapping.get?_append, Mapping.get?_append, get?_present,
      get?_present_other differs, Mapping.get?_of_absent typeless, Option.or_none, Option.or_none]
  have measured : (⟨written ⟨type, metric, options⟩⟩ : Mapping).get? "metric_type" = metric := by
    rw [written, Mapping.get?_append, Mapping.get?_append, get?_present,
      get?_present_other differs.symm, Mapping.get?_of_absent metricless, Option.none_or,
      Option.or_none]
  have typeless : (⟨written ⟨type, metric, options⟩⟩ : Mapping).erase "index_type" =
      ⟨present "metric_type" metric ++ options.entries⟩ := by
    have kept : (⟨options.entries⟩ : Mapping).erase "index_type" = options :=
      Mapping.erase_of_absent typeless
    rw [written, List.append_assoc, Mapping.erase_append, erase_present, Mapping.erase_append,
      erase_present_other differs, kept]
    rfl
  have others : (⟨present "metric_type" metric ++ options.entries⟩ : Mapping).erase "metric_type" =
      options := by
    have kept : (⟨options.entries⟩ : Mapping).erase "metric_type" = options :=
      Mapping.erase_of_absent metricless
    rw [Mapping.erase_append, erase_present, kept]
    rfl
  rw [ofMapping, typed, measured, typeless, others]

theorem writable_written {index : IndexOptions} {levels : Nat}
    (wellFormed : index.WellFormed levels) : (⟨index.written⟩ : Mapping).Writable levels := by
  obtain ⟨typed, measured, ⟨distinct, writable⟩, typeless, metricless⟩ := wellFormed
  have type : LacksQuote "index_type" := ⟨'"', rfl, by decide⟩
  have metric : LacksQuote "metric_type" := ⟨'"', rfl, by decide⟩
  rw [written, List.append_assoc]
  refine ⟨nodup_present_append ?_ (nodup_present_append metricless distinct), ?_⟩
  · rw [List.map_append, List.mem_append]
    rintro (member | member)
    · exact absurd (mem_keys_present member) (by decide)
    · exact typeless member
  · have behind := Value.entriesWritable_append
      (Value.entriesWritable_present metric measured) writable
    exact Value.entriesWritable_append (Value.entriesWritable_present type typed) behind

end IndexOptions

/-! Options of a search. -/

namespace SearchOptions

theorem absent_written {key : String} (metric : key ≠ "metric_type") (offset : key ≠ "offset")
    (params : key ≠ "params") (search : SearchOptions) : key ∉ search.written.map Prod.fst := by
  rw [written, List.map_append, List.map_append, List.mem_append, List.mem_append]
  rintro ((member | member) | member)
  · exact metric (mem_keys_present member)
  · exact offset (mem_keys_present member)
  · exact params (List.mem_singleton.mp member)

theorem ofMapping_written {search : SearchOptions} (distinct : search.options.keys.Nodup) :
    ofMapping ⟨search.written⟩ = search := by
  obtain ⟨metric, offset, options⟩ := search
  have spread : Mapping.insertAll .empty options.entries = options :=
    Mapping.ofList_of_distinct distinct
  have measured (before : SearchOptions) (value : Value) :
      before.add "metric_type" value = { before with metricType := some value } := by simp [add]
  have shifted (before : SearchOptions) (value : Value) :
      before.add "offset" value = { before with offset := some value } := by simp [add]
  have params (before : SearchOptions) : before.add "params" options.toValue =
      { before with options := before.options.insertAll options.entries } := by
    simp [add, Mapping.toValue]
  cases metric <;> cases offset <;>
    simp only [ofMapping, written, present, Option.elim_none, Option.elim_some, List.nil_append,
      List.cons_append, List.foldl_cons, List.foldl_nil, measured, shifted, params, spread]

theorem writable_written {search : SearchOptions} {levels : Nat}
    (wellFormed : search.WellFormed levels) :
    (⟨search.written⟩ : Mapping).Writable (levels + 1) := by
  obtain ⟨measured, shifted, options⟩ := wellFormed
  have metric : LacksQuote "metric_type" := ⟨'"', rfl, by decide⟩
  have offset : LacksQuote "offset" := ⟨'"', rfl, by decide⟩
  have params : LacksQuote "params" := ⟨'"', rfl, by decide⟩
  have deeper (value : Value) (writable : value.Writable levels) : value.Writable (levels + 1) :=
    Value.Writable.mono value levels (levels + 1) (by omega) writable
  rw [written, List.append_assoc]
  refine ⟨nodup_present_append ?_ (nodup_present_append ?_ (by simp)), ?_⟩
  · rw [List.map_append, List.mem_append]
    rintro (member | member)
    · exact absurd (mem_keys_present member) (by decide)
    · exact absurd (List.mem_singleton.mp member) (by simp)
  · intro member
    exact absurd (List.mem_singleton.mp member) (by simp)
  · refine Value.entriesWritable_append ?_ (Value.entriesWritable_append ?_ ?_)
    · exact Value.entriesWritable_present metric fun value given => deeper value (measured value given)
    · exact Value.entriesWritable_present offset fun value given => deeper value (shifted value given)
    · exact ⟨params, options, trivial⟩

end SearchOptions

/-! A command that can be written within some levels can be written within more. -/

section
variable {levels levels' : Nat}

theorem CollectionCommand.WellFormed.mono {found : CollectionCommand} (more : levels ≤ levels')
    (wellFormed : found.WellFormed levels) : found.WellFormed levels' := by
  cases found with
  | load name options => exact ⟨wellFormed.1, wellFormed.2.mono more⟩
  | create collection =>
    exact ⟨wellFormed.name, wellFormed.fields, wellFormed.options.mono more⟩
  | _ => exact wellFormed

theorem PartitionCommand.WellFormed.mono {found : PartitionCommand} (more : levels ≤ levels')
    (wellFormed : found.WellFormed levels) : found.WellFormed levels' := by
  cases found with
  | create partition collection options =>
    exact ⟨wellFormed.1, wellFormed.2.1, wellFormed.2.2.mono more⟩
  | load collection partitions options =>
    exact ⟨wellFormed.1, wellFormed.2.1, wellFormed.2.2.1, wellFormed.2.2.2.mono more⟩
  | _ => exact wellFormed

theorem IndexCommand.WellFormed.mono {found : IndexCommand} (more : levels ≤ levels')
    (wellFormed : found.WellFormed levels) : found.WellFormed levels' := by
  have deeper (value : Value) := Value.Writable.mono value levels levels' more
  cases found with
  | create index collection field options =>
    obtain ⟨named, owned, indexed, given⟩ := wellFormed
    refine ⟨named, owned, indexed, fun options present => ?_⟩
    obtain ⟨type, metric, others, bare⟩ := given options present
    exact ⟨fun value given => deeper value (type value given),
      fun value given => deeper value (metric value given), others.mono more, bare⟩
  | _ => exact wellFormed

theorem Write.WellFormed.mono {write : Write} (more : levels ≤ levels')
    (wellFormed : write.WellFormed levels) : write.WellFormed levels' := by
  have deeper (value : Value) := Value.Writable.mono value levels levels' more
  exact { wellFormed with
    values := fun row inside entry member =>
      deeper entry.2 (wellFormed.values row inside entry member) }

theorem WriteCommand.WellFormed.mono {found : WriteCommand} (more : levels ≤ levels')
    (wellFormed : found.WellFormed levels) : found.WellFormed levels' := by
  cases found with
  | bulk files => exact wellFormed
  | insert write => exact Write.WellFormed.mono more wellFormed
  | upsert write => exact Write.WellFormed.mono more wellFormed

theorem Delete.WellFormed.mono {delete : Delete} (more : levels ≤ levels')
    (wellFormed : delete.WellFormed levels) : delete.WellFormed levels' :=
  { wellFormed with options := wellFormed.options.mono more }

theorem Query.WellFormed.mono {query : Query} (more : levels ≤ levels')
    (wellFormed : query.WellFormed levels) : query.WellFormed levels' :=
  { wellFormed with options := wellFormed.options.mono more }

end

end VectorQuery
