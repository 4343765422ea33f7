import Mathlib.Data.List.Forall2
import VectorQuery.Hit
import VectorQuery.Proofs.Value.Latest

/-! Rows of hits. There is one for each hit, in order, and key and score stand first in it.
What it shows under their names is decided by what is asked of the entity, and the other names
that are asked stand behind them, each with its value or null. -/
namespace VectorQuery.Hit

/-- The key and the score alone. -/
def own (hit : Hit) : Mapping :=
  Mapping.ofList [("pk", hit.key), ("score", .float hit.score)]

/-- What a row takes from the entity under a name: its field of that name where all are asked
for, the same or null where the name is, and nothing otherwise. -/
def taken? (hit : Hit) (fields : List String) (name : String) : Option Value :=
  if "*" ∈ fields then hit.entity.entries.reverse.lookup name
  else if name ∈ fields then some ((hit.entity.get? name).getD .null) else none

/-- The row shows the key and the score of the hit as they are. -/
def Shown (hit : Hit) (row : Mapping) : Prop :=
  row.get? "pk" = some hit.key ∧ row.get? "score" = some (.float hit.score)

theorem lookup_map_const (names : List String) (value : String → Value) (wanted : String) :
    (names.map fun name => (name, value name)).lookup wanted =
      if wanted ∈ names then some (value wanted) else none := by
  induction names with
  | nil => rfl
  | cons name rest ih =>
    rw [List.map_cons, Mapping.lookup_cons_eq, ih]
    by_cases same : wanted = name <;> simp [same]

theorem lookup_requested (hit : Hit) (fields : List String) (name : String) :
    (hit.requested fields).reverse.lookup name = hit.taken? fields name := by
  simp only [requested, taken?, List.contains_iff_mem]
  split
  · rfl
  · simp only [← List.map_reverse, lookup_map_const, List.mem_reverse]

theorem row_get? (hit : Hit) (fields : List String) (name : String) :
    (hit.row fields).get? name = (hit.taken? fields name).or (hit.own.get? name) := by
  have inserted : hit.row fields = hit.own.insertAll (hit.requested fields) := rfl
  rw [inserted, Mapping.get?_insertAll, lookup_requested]

theorem shown_row_iff (hit : Hit) (fields : List String) :
    hit.Shown (hit.row fields) ↔ (∀ value ∈ hit.taken? fields "pk", value = hit.key) ∧
      ∀ value ∈ hit.taken? fields "score", value = .float hit.score := by
  have overridden (taken : Option Value) (own : Value) :
      taken.or (some own) = some own ↔ ∀ value ∈ taken, value = own := by
    cases taken <;> simp
  rw [Shown, row_get?, row_get?]
  exact and_congr (overridden _ hit.key) (overridden _ (.float hit.score))

/-- There is a row for each hit, in the order of the query vectors and of the hits of each. It
starts with a key and a score, and they are those of the hit exactly if nothing else is taken
from the entity under their names. -/
theorem flatten_shows (results : List (List Hit)) (fields : List String) :
    List.Forall₂ (fun hit row => ["pk", "score"] <+: row.keys ∧
      (hit.Shown row ↔ (∀ value ∈ hit.taken? fields "pk", value = hit.key) ∧
        ∀ value ∈ hit.taken? fields "score", value = .float hit.score))
      results.flatten (flatten results fields) := by
  refine List.forall₂_map_right_iff.mpr (List.forall₂_same.mpr fun hit _ => ⟨?_, ?_⟩)
  · exact Mapping.keys_prefix_insertAll hit.own (hit.requested fields)
  · exact shown_row_iff hit fields

/-- A field of one of their names hides the key or the score, even where the entity has no such
field. -/
theorem hidden_by_request :
    let hit : Hit := ⟨.integer 1, .ofDecimal false ⟨5, -1⟩, ⟨[("score", .text "high")]⟩⟩
    flatten [[hit]] ["pk"] = [⟨[("pk", .null), ("score", .float hit.score)]⟩] ∧
    flatten [[hit]] ["*"] = [⟨[("pk", .integer 1), ("score", .text "high")]⟩] ∧
    ¬∀ (results : List (List Hit)) (fields : List String),
      List.Forall₂ Shown results.flatten (flatten results fields) := by
  intro hit
  have named : flatten [[hit]] ["pk"] = [⟨[("pk", .null), ("score", .float hit.score)]⟩] := by rfl
  refine ⟨named, by rfl, fun all => ?_⟩
  have shown := all [[hit]] ["pk"]
  rw [named] at shown
  exact absurd (List.forall₂_cons.mp shown).1.1 (by decide)

/-! The names that are asked of an entity. -/

/-- All names of the entity for `*`, and the named ones otherwise. -/
def asked (hit : Hit) (fields : List String) : List String :=
  if "*" ∈ fields then hit.entity.keys else fields

theorem map_fst_requested (hit : Hit) (fields : List String) :
    (hit.requested fields).map Prod.fst = hit.asked fields := by
  simp only [requested, asked, List.contains_iff_mem]
  split
  · rfl
  · simp [Function.comp_def]

/-- Behind the own names stand those that are asked, the own ones left out. -/
theorem row_keys (hit : Hit) (fields : List String) :
    (hit.row fields).keys = ["pk", "score"] ++
      ((hit.asked fields).filter fun name => name ∉ ["pk", "score"]).eraseDups := by
  have distinct : hit.own.Distinct := Mapping.ofList_distinct _
  have placed := Mapping.keys_insertAll distinct (hit.requested fields)
  have own : hit.own.keys = ["pk", "score"] := rfl
  have others : (hit.asked fields).removeAll ["pk", "score"] =
      (hit.asked fields).filter fun name => name ∉ ["pk", "score"] := by
    simp only [List.removeAll, List.elem_eq_contains, List.contains_eq_mem, decide_not]
  rw [map_fst_requested, List.eraseDups_append, own, others] at placed
  exact placed

theorem taken?_of_asked {hit : Hit} {fields : List String} {name : String}
    (distinct : hit.entity.Distinct) (inside : name ∈ hit.asked fields) :
    hit.taken? fields name = some ((hit.entity.get? name).getD .null) := by
  unfold asked at inside
  unfold taken?
  split_ifs at inside ⊢ with all
  · obtain ⟨entry, held, rfl⟩ := List.mem_map.mp inside
    have found := Mapping.get?_of_mem distinct held
    rw [Value.lookup_reverse distinct, found, Option.getD_some]
    exact found
  · rfl

/-- Where no entity holds a name twice, a row has the key, the score and the names that are
asked, each at its first place, and shows what the entity holds under each of these or null.
Rows of results one after another stand one after another. -/
theorem flatten_reports (results more : List (List Hit)) (fields : List String)
    (distinct : ∀ hit ∈ results.flatten, hit.entity.Distinct) :
    List.Forall₂ (fun hit row =>
      row.keys = ["pk", "score"] ++
        ((hit.asked fields).filter fun name => name ∉ ["pk", "score"]).eraseDups ∧
      ∀ name ∈ hit.asked fields, row.get? name = some ((hit.entity.get? name).getD .null))
      results.flatten (flatten results fields) ∧
    flatten (results ++ more) fields = flatten results fields ++ flatten more fields := by
  refine ⟨List.forall₂_map_right_iff.mpr (List.forall₂_same.mpr fun hit inside => ⟨?_, ?_⟩), ?_⟩
  · exact row_keys hit fields
  · intro name wanted
    rw [row_get?, taken?_of_asked (distinct hit inside) wanted, Option.some_or]
  · simp only [flatten, List.flatten_append, List.map_append]

/-- Names given twice, own names among them and one that is missing; and `*` behind another
name, for an entity with a field of an own name. -/
theorem flatten_reports_of_own_names :
    let hit : Hit := ⟨.integer 1, .zero, ⟨[("year", .integer 1965), ("pk", .text "a")]⟩⟩
    let other : Hit := ⟨.integer 2, .zero, ⟨[("title", .text "Dune")]⟩⟩
    let fields := ["year", "score", "title", "year", "pk"]
    hit.entity.Distinct ∧ other.entity.Distinct ∧
    (hit.row fields).keys = ["pk", "score", "year", "title"] ∧
    (hit.row fields).get? "title" = some .null ∧
    (other.row fields).get? "title" = some (.text "Dune") ∧
    (hit.row ["title", "*"]).keys = ["pk", "score", "year"] ∧
    (hit.row ["title", "*"]).get? "pk" = some (.text "a") ∧
    flatten [[hit], [other]] fields = flatten [[hit]] fields ++ flatten [[other]] fields := by
  intro hit other fields
  have distinct : hit.entity.Distinct := by simp [Mapping.Distinct, Mapping.keys, hit]
  have distinct' : other.entity.Distinct := by simp [Mapping.Distinct, Mapping.keys, other]
  obtain ⟨named, joined⟩ := flatten_reports [[hit]] [[other]] fields (by simpa using distinct)
  obtain ⟨behind, -⟩ := flatten_reports [[other]] [] fields (by simpa using distinct')
  obtain ⟨all, -⟩ := flatten_reports [[hit]] [] ["title", "*"] (by simpa using distinct)
  obtain ⟨⟨keys, values⟩, -⟩ := List.forall₂_cons.mp named
  obtain ⟨⟨-, values'⟩, -⟩ := List.forall₂_cons.mp behind
  obtain ⟨⟨keysOfAll, valuesOfAll⟩, -⟩ := List.forall₂_cons.mp all
  exact ⟨distinct, distinct', keys, values "title" (by decide), values' "title" (by decide),
    keysOfAll, valuesOfAll "pk" (by decide), joined⟩

end VectorQuery.Hit
