import VectorQuery.Grammar.Selection
import VectorQuery.Proofs.Value.Mapping

/-! Options and vectors rearranged. What holds of every option, and of what an object spreads
out, holds of every option of a search; and vectors are the items they are split off. -/
namespace VectorQuery

namespace SearchOptions

variable {property : Value → Prop}

/-- Every option has the property, wherever it stands. -/
structure Each (property : Value → Prop) (search : SearchOptions) : Prop where
  metricType : ∀ value ∈ search.metricType, property value
  offset : ∀ value ∈ search.offset, property value
  options : search.options.Each property

theorem Each.add {search : SearchOptions} (each : search.Each property)
    (spread : ∀ entries, property (.object entries) → ∀ entry ∈ entries, property entry.2)
    {value : Value} (held : property value) (key : String) :
    (search.add key value).Each property := by
  obtain ⟨metricType, offset, options⟩ := each
  have one : ∀ other ∈ some value, property other := fun other same =>
    Option.some.inj same ▸ held
  have inserted : (search.options.insertAll [(key, value)]).Each property :=
    options.insertAll (List.forall_mem_singleton.mpr held)
  unfold SearchOptions.add
  split
  next => exact ⟨one, offset, options⟩
  next =>
    split
    next => exact ⟨metricType, one, options⟩
    next =>
      split
      next entries =>
        split
        next => exact ⟨metricType, offset, options.insertAll (spread entries held)⟩
        next => exact ⟨metricType, offset, inserted⟩
      next => exact ⟨metricType, offset, inserted⟩

theorem each_ofMapping {options : Mapping} (each : options.Each property)
    (spread : ∀ entries, property (.object entries) → ∀ entry ∈ entries, property entry.2) :
    (ofMapping options).Each property := by
  have added (entries : List (String × Value)) (search : SearchOptions)
      (before : search.Each property) (held : ∀ entry ∈ entries, property entry.2) :
      (entries.foldl (fun search entry => search.add entry.1 entry.2) search).Each property := by
    induction entries generalizing search with
    | nil => exact before
    | cons entry entries ih =>
      obtain ⟨first, others⟩ := List.forall_mem_cons.mp held
      exact ih _ (before.add spread first entry.1) others
  exact added options.entries {} ⟨nofun, nofun, Mapping.each_empty property⟩ each

end SearchOptions

/-- Vectors are one flat list of items, or the lists that the items are. -/
theorem Value.vectors?_cases {items : List Value} {vectors : List (List Value)}
    (split : vectors? items = some vectors) :
    vectors = [items] ∨ vectors ≠ [] ∧ items = vectors.map .array := by
  unfold vectors? at split
  split_ifs at split with flat
  · exact .inl (Option.some.inj split).symm
  · have same : items = vectors.map .array := by
      clear flat
      induction items generalizing vectors with
      | nil =>
        obtain rfl := Option.some.inj split
        rfl
      | cons item items ih =>
        rw [List.mapM_cons] at split
        obtain ⟨numbers, taken, split⟩ := Option.bind_eq_some_iff.mp split
        obtain ⟨rest, later, split⟩ := Option.bind_eq_some_iff.mp split
        obtain rfl := Option.some.inj split
        rw [ih later, List.map_cons]
        cases item with
        | array => rw [Option.some.inj taken]
        | _ => contradiction
    refine .inr ⟨?_, same⟩
    rintro rfl
    exact flat (by simp [same])

end VectorQuery
