import Mathlib.Data.List.Induction
import Mathlib.Data.List.Nodup
import VectorQuery.Proofs.Value.Mapping
import VectorQuery.Value.Written

/-! Looking up keys of a sorted object. The last entry of a key is the one found. -/
namespace VectorQuery.Value

/-- What an object holds under a key. -/
def under (value : Value) (key : String) : Option Value :=
  match value with
  | .object entries => entries.lookup key
  | _ => none

theorem lookup_place (key wanted : String) (value : Value) (entries : List (String × Value)) :
    (place key value entries).lookup wanted =
      if wanted = key then some value else entries.lookup wanted := by
  induction entries with
  | nil => simp only [place, Mapping.lookup_cons_eq, List.lookup_nil]
  | cons entry rest ih =>
    obtain ⟨other, old⟩ := entry
    by_cases equal : key = other
    · subst equal
      by_cases same : wanted = key <;> simp [place, Mapping.lookup_cons_eq, same]
    by_cases less : key < other
    · simp only [place, if_neg equal, if_pos less, Mapping.lookup_cons_eq]
    · simp only [place, if_neg equal, if_neg less, Mapping.lookup_cons_eq, ih]
      by_cases found : wanted = other
      · have differs : wanted ≠ key := fun same => equal (same.symm.trans found)
        simp only [if_pos found, if_neg differs]
      · simp only [if_neg found]

/-- Behind others, an entry is placed last and gives way to none. -/
theorem lookup_placeAll (entries : List (String × Value)) (wanted : String) :
    (placeAll entries).lookup wanted = entries.reverse.lookup wanted := by
  induction entries using List.reverseRecOn with
  | nil => rfl
  | append_singleton entries entry ih =>
    have step : placeAll (entries ++ [entry]) = place entry.1 entry.2 (placeAll entries) := by
      rw [placeAll, List.foldl_append]
      rfl
    rw [step, lookup_place, ih, List.reverse_append, List.reverse_singleton,
      List.singleton_append, Mapping.lookup_cons_eq]

theorem sortedEntries_eq (entries : List (String × Value)) :
    sortedEntries entries = entries.map fun entry => (entry.1, entry.2.sorted) := by
  induction entries with
  | nil => rfl
  | cons entry rest ih => rw [sortedEntries, ih, List.map_cons]

theorem lookup_map_sorted (entries : List (String × Value)) (wanted : String) :
    (entries.map fun entry => (entry.1, entry.2.sorted)).lookup wanted =
      (entries.lookup wanted).map sorted := by
  induction entries with
  | nil => rfl
  | cons entry rest ih =>
    rw [List.map_cons, Mapping.lookup_cons_eq, Mapping.lookup_cons_eq, ih]
    by_cases same : wanted = entry.1 <;> simp [same]

theorem lookup_reverse {entries : List (String × Value)} (distinct : (entries.map Prod.fst).Nodup)
    (wanted : String) : entries.reverse.lookup wanted = entries.lookup wanted := by
  induction entries with
  | nil => rfl
  | cons entry rest ih =>
    obtain ⟨absent, others⟩ := List.nodup_cons.mp distinct
    rw [List.reverse_cons, List.lookup_append, ih others, Mapping.lookup_cons_eq, Mapping.lookup_cons_eq]
    by_cases same : wanted = entry.1
    · have missing : rest.lookup wanted = none := Mapping.lookup_of_absent (same ▸ absent)
      simp only [missing, if_pos same, Option.none_or]
    · simp only [if_neg same, List.lookup_nil, Option.or_none]

/-- Where own entries stand before others, an other one decides where there is one. -/
theorem under_sorted_append {own others : List (String × Value)}
    (ownDistinct : (own.map Prod.fst).Nodup) (othersDistinct : (others.map Prod.fst).Nodup)
    (key : String) :
    (sorted (.object (own ++ others))).under key =
      ((others.lookup key).or (own.lookup key)).map sorted := by
  have found : (own ++ others).reverse.lookup key = (others.lookup key).or (own.lookup key) := by
    rw [List.reverse_append, List.lookup_append, lookup_reverse othersDistinct,
      lookup_reverse ownDistinct]
  rw [sorted, under, lookup_placeAll, sortedEntries_eq, ← List.map_reverse, lookup_map_sorted,
    found]

end VectorQuery.Value
