import Mathlib.Data.List.Induction
import VectorQuery.Proofs.Value.Sorted

/-! What a mapping holds after entries were put into it one by one: each key once, in the
order in which the keys first came, and under each key the value that came last. -/
namespace VectorQuery.Mapping

/-- Each key of the entries at its first place, with its last value. -/
def latest (entries : List (String × Value)) : Mapping :=
  ⟨(entries.map Prod.fst).eraseDups.map fun key =>
    (key, (entries.reverse.lookup key).getD .null)⟩

theorem eraseDups_concat (keys : List String) (key : String) :
    (keys ++ [key]).eraseDups =
      if key ∈ keys then keys.eraseDups else keys.eraseDups ++ [key] := by
  rw [List.eraseDups_append, List.removeAll, List.filter_singleton]
  by_cases found : key ∈ keys <;> simp [found, List.eraseDups_cons]

theorem eraseDups_of_nodup {keys : List String} (distinct : keys.Nodup) :
    keys.eraseDups = keys := by
  induction keys using List.reverseRecOn with
  | nil => rfl
  | append_singleton keys key ih =>
    obtain ⟨others, -, apart⟩ := List.nodup_append.mp distinct
    have absent : key ∉ keys := fun inside => apart key inside key (by simp) rfl
    rw [eraseDups_concat, if_neg absent, ih others]

/-- Behind the keys that stand already, those of the entries come in the order in which they
first occur. -/
theorem keys_insertAll {mapping : Mapping} (distinct : mapping.Distinct)
    (entries : List (String × Value)) :
    (mapping.insertAll entries).keys = (mapping.keys ++ entries.map Prod.fst).eraseDups := by
  induction entries using List.reverseRecOn with
  | nil => simpa [insertAll] using (eraseDups_of_nodup distinct).symm
  | append_singleton entries entry ih =>
    have step : mapping.insertAll (entries ++ [entry]) =
        (mapping.insertAll entries).insert entry.1 entry.2 := by simp [insertAll]
    rw [step, keys_insert, ih, List.map_append, ← List.append_assoc, List.map_singleton,
      eraseDups_concat]
    simp only [List.mem_eraseDups]

theorem keys_ofList (entries : List (String × Value)) :
    (ofList entries).keys = (entries.map Prod.fst).eraseDups :=
  keys_insertAll empty_distinct entries

theorem get?_ofList (entries : List (String × Value)) (key : String) :
    (ofList entries).get? key = entries.reverse.lookup key := by
  rw [ofList, get?_insertAll]
  exact Option.or_none

theorem get?_of_mem {mapping : Mapping} (distinct : mapping.Distinct) {entry : String × Value}
    (inside : entry ∈ mapping.entries) : mapping.get? entry.1 = some entry.2 := by
  obtain ⟨front, behind, split⟩ := List.append_of_mem inside
  refine List.lookup_eq_some_iff.mpr ⟨front, behind, split, fun other before => ?_⟩
  rw [Distinct, keys, split, List.map_append, List.map_cons] at distinct
  have apart := (List.nodup_append.mp distinct).2.2 other.1 (List.mem_map_of_mem before) entry.1
  simpa using (apart (by simp)).symm

/-- The keys and what stands under them are all that a mapping is. -/
theorem entries_eq {mapping : Mapping} (distinct : mapping.Distinct) :
    mapping.entries = mapping.keys.map fun key => (key, (mapping.get? key).getD .null) := by
  have same : ∀ entry ∈ mapping.entries,
      (entry.1, (mapping.get? entry.1).getD .null) = entry := by
    intro entry inside
    rw [get?_of_mem distinct inside, Option.getD_some]
  rw [keys, List.map_map]
  exact (List.map_id _).symm.trans (List.map_congr_left fun entry inside => (same entry inside).symm)

theorem ofList_eq_latest (entries : List (String × Value)) : ofList entries = latest entries := by
  have whole := entries_eq (ofList_distinct entries)
  simp only [keys_ofList, get?_ofList] at whole
  rw [latest, ← whole]

end VectorQuery.Mapping
