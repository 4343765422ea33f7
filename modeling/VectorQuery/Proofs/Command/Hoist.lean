import VectorQuery.Command.Document
import VectorQuery.Proofs.Statement.Options
import VectorQuery.Proofs.Value.Latest

/-! Options that a command holds apart from the others. Some keys are taken out of a mapping,
the others stay in their order, and an object among the options of a search gives way to its own
entries. -/
namespace VectorQuery

open Document

namespace Mapping

/-- The entries under other keys, in their order. -/
def without (mapping : Mapping) (keys : List String) : Mapping :=
  ⟨mapping.entries.filter fun entry => entry.1 ∉ keys⟩

/-- What the keys hold. -/
def taken (mapping : Mapping) (keys : List String) : List (String × Value) :=
  keys.flatMap fun key => present key (mapping.get? key)

theorem without_nil (mapping : Mapping) : mapping.without [] = mapping := by
  simp [without]

theorem without_cons (mapping : Mapping) (key : String) (keys : List String) :
    mapping.without (key :: keys) = (mapping.erase key).without keys := by
  simp only [without, erase, List.filter_filter, List.mem_cons, not_or, Bool.decide_and]
  congr 2
  funext entry
  exact Bool.and_comm _ _

theorem erase_eq_without (mapping : Mapping) (key : String) :
    mapping.erase key = mapping.without [key] := by
  rw [without_cons, without_nil]

theorem without_distinct {mapping : Mapping} (distinct : mapping.Distinct) (keys : List String) :
    (mapping.without keys).Distinct := by
  have fewer : (mapping.without keys).keys.Sublist mapping.keys :=
    List.filter_sublist.map Prod.fst
  exact distinct.sublist fewer

theorem without_without (mapping : Mapping) (keys others : List String) :
    (mapping.without keys).without others = mapping.without (keys ++ others) := by
  induction keys generalizing mapping with
  | nil => rw [without_nil, List.nil_append]
  | cons key keys ih => rw [without_cons, ih, List.cons_append, without_cons]

theorem get?_erase_other {key other : String} (differs : other ≠ key) (mapping : Mapping) :
    (mapping.erase key).get? other = mapping.get? other := by
  obtain ⟨entries⟩ := mapping
  induction entries with
  | nil => rfl
  | cons entry rest ih =>
    simp only [erase, get?] at ih ⊢
    by_cases same : entry.1 = key
    · have passes : other ≠ entry.1 := fun equal => differs (equal.trans same)
      simp only [List.filter_cons, same, ne_eq, not_true_eq_false, decide_false,
        Bool.false_eq_true, if_false, lookup_cons_eq, if_neg differs]
      exact ih
    · simp only [List.filter_cons, same, ne_eq, not_false_eq_true, decide_true, if_true,
        lookup_cons_eq, ih]

/-- An entry is under its key or stays with the others. -/
theorem perm_erase {mapping : Mapping} (distinct : mapping.Distinct) (key : String) :
    mapping.entries.Perm (present key (mapping.get? key) ++ (mapping.erase key).entries) := by
  cases found : mapping.get? key with
  | none =>
    have absent : key ∉ mapping.keys := by
      intro inside
      obtain ⟨entry, member, rfl⟩ := List.mem_map.mp inside
      rw [get?_of_mem distinct member] at found
      contradiction
    rw [erase_of_absent absent]
    exact List.Perm.refl _
  | some value =>
    obtain ⟨front, behind, split, -⟩ := List.lookup_eq_some_iff.mp found
    have whole : mapping = ⟨front ++ [(key, value)] ++ behind⟩ := by
      rw [List.append_assoc, List.singleton_append, ← split]
    rw [Distinct, keys, split, List.map_append, List.map_cons] at distinct
    obtain ⟨-, later, apart⟩ := List.nodup_append.mp distinct
    have before : key ∉ (⟨front⟩ : Mapping).keys := fun inside =>
      apart key inside key (by simp) rfl
    have after : key ∉ (⟨behind⟩ : Mapping).keys := (List.nodup_cons.mp later).1
    have alone : (⟨[(key, value)]⟩ : Mapping).erase key = ⟨[]⟩ := by simp [erase]
    have rest : mapping.erase key = ⟨front ++ behind⟩ := by
      rw [whole, erase_append, erase_append, alone, erase_of_absent before,
        erase_of_absent after, List.append_nil]
    rw [rest, split]
    exact List.perm_middle

/-- Every entry is under one of the keys or stays with the others. -/
theorem perm_without {mapping : Mapping} (distinct : mapping.Distinct) {keys : List String}
    (different : keys.Nodup) :
    mapping.entries.Perm (mapping.taken keys ++ (mapping.without keys).entries) := by
  induction keys generalizing mapping with
  | nil => simp [taken, without_nil]
  | cons key keys ih =>
    obtain ⟨absent, others⟩ := List.nodup_cons.mp different
    have same : (mapping.erase key).taken keys = mapping.taken keys := by
      refine List.flatMap_congr fun other inside => ?_
      have differs : other ≠ key := by
        rintro rfl
        exact absent inside
      rw [get?_erase_other differs]
    have rest := ih (erase_distinct distinct key) others
    rw [same] at rest
    rw [without_cons, taken, List.flatMap_cons, List.append_assoc]
    exact (perm_erase distinct key).trans (rest.append_left _)

/-- The filter among the options, a text as it is and any other value as a literal; where there
is none, the compiled one. -/
def filterOver (mapping : Mapping) (compiled : Option String) : Option String :=
  match mapping.get? "expr" with
  | some (.text content) => some content
  | some value => some value.literal
  | none => compiled

theorem filterOr_eq (mapping : Mapping) (compiled : Option String) :
    mapping.filterOr compiled = mapping.filterOver compiled := by
  rw [filterOr, filter?, filterOver]
  cases mapping.get? "expr" with
  | none => rfl
  | some value => cases value <;> rfl

theorem withoutFilter_eq (mapping : Mapping) : mapping.withoutFilter = mapping.without ["expr"] :=
  erase_eq_without mapping "expr"

/-- Entries of which none comes again are the latest. -/
theorem latest_of_distinct {entries : List (String × Value)}
    (distinct : (entries.map Prod.fst).Nodup) : latest entries = ⟨entries⟩ := by
  rw [← ofList_eq_latest, ofList_of_distinct distinct]

end Mapping

/-! Options of an index. -/

theorem IndexOptions.ofMapping_eq (mapping : Mapping) :
    ofMapping mapping = ⟨mapping.get? "index_type", mapping.get? "metric_type",
      mapping.without ["index_type", "metric_type"]⟩ := by
  rw [ofMapping, Mapping.without_cons, Mapping.erase_eq_without]

/-! Options of a search. -/

namespace SearchOptions

/-- The entries that one option stands for: an object under `params` stands for its own. -/
def spreadOne (entry : String × Value) : List (String × Value) :=
  match entry with
  | ("params", .object entries) => entries
  | _ => [entry]

def spread (entries : List (String × Value)) : List (String × Value) :=
  entries.flatMap spreadOne

/-- The keys that a search holds apart. -/
def apart : List String := ["metric_type", "offset"]

theorem add_of_other {key : String} (other : key ∉ apart) (search : SearchOptions)
    (value : Value) :
    search.add key value =
      { search with options := search.options.insertAll (spreadOne (key, value)) } := by
  simp only [apart, List.mem_cons, List.not_mem_nil, or_false, not_or] at other
  unfold add spreadOne
  rw [if_neg other.1, if_neg other.2]
  split
  next entries =>
    split
    next same =>
      subst same
      rfl
    next differs =>
      split
      next found => exact absurd (Prod.mk.inj found).1 differs
      next => rfl
  next plain =>
    split
    next entries found => exact absurd (Prod.mk.inj found).2 (plain entries)
    next => rfl

/-- The options taken one by one: of a metric and of an offset the last, and of the others what
they stand for. -/
theorem foldl_add (entries : List (String × Value)) :
    entries.foldl (fun search entry => search.add entry.1 entry.2) ({} : SearchOptions) =
      ⟨entries.reverse.lookup "metric_type", entries.reverse.lookup "offset",
        Mapping.ofList (spread (entries.filter fun entry => entry.1 ∉ apart))⟩ := by
  induction entries using List.reverseRecOn with
  | nil => rfl
  | append_singleton entries entry ih =>
    obtain ⟨key, value⟩ := entry
    rw [List.foldl_append, ih, List.reverse_append, List.reverse_singleton,
      List.singleton_append, Mapping.lookup_cons_eq, Mapping.lookup_cons_eq, List.filter_append]
    by_cases other : key ∈ apart
    · have kept : [(key, value)].filter (fun entry => entry.1 ∉ apart) = [] := by simp [other]
      rw [kept, List.append_nil]
      simp only [apart, List.mem_cons, List.not_mem_nil, or_false] at other
      rcases other with rfl | rfl <;> rfl
    · have kept : [(key, value)].filter (fun entry => entry.1 ∉ apart) = [(key, value)] := by
        simp [other]
      have more : spread (entries.filter (fun entry => entry.1 ∉ apart) ++ [(key, value)]) =
          spread (entries.filter fun entry => entry.1 ∉ apart) ++ spreadOne (key, value) := by
        simp [spread]
      rw [List.foldl_cons, List.foldl_nil, add_of_other other, kept, more]
      simp only [apart, List.mem_cons, List.not_mem_nil, or_false, not_or] at other
      rw [if_neg (Ne.symm other.1), if_neg (Ne.symm other.2)]
      simp only [Mapping.ofList, Mapping.insertAll, List.foldl_append]

theorem ofMapping_eq {mapping : Mapping} (distinct : mapping.Distinct) :
    ofMapping mapping = ⟨mapping.get? "metric_type", mapping.get? "offset",
      Mapping.latest (spread (mapping.without apart).entries)⟩ := by
  rw [ofMapping, foldl_add, Value.lookup_reverse distinct, Value.lookup_reverse distinct,
    Mapping.ofList_eq_latest]
  rfl

theorem spreadOne_of_other {entry : String × Value} (other : entry.1 ≠ "params") :
    spreadOne entry = [entry] := by
  unfold spreadOne
  split
  next => exact absurd rfl other
  next => rfl

theorem spread_of_plain {entries : List (String × Value)}
    (plain : ∀ entry ∈ entries, spreadOne entry = [entry]) : spread entries = entries := by
  rw [spread, List.flatMap_congr plain, List.flatMap_singleton']

/-- No key of an object under `params` is that of another option. -/
def Unclashing (mapping : Mapping) : Prop :=
  ∀ entries, mapping.get? "params" = some (.object entries) →
    ∀ entry ∈ entries, entry.1 ∉ (mapping.without ["params"]).keys

/-- An object under `params` gives way to its entries, and the others stay. -/
theorem spread_of_nested {mapping : Mapping} (distinct : mapping.Distinct)
    {entries : List (String × Value)} (found : mapping.get? "params" = some (.object entries)) :
    (spread mapping.entries).Perm (entries ++ (mapping.without ["params"]).entries) := by
  have others : spread (mapping.erase "params").entries = (mapping.erase "params").entries := by
    refine spread_of_plain fun entry inside => spreadOne_of_other fun same => ?_
    have stays : entry.1 ∈ (mapping.erase "params").keys := List.mem_map_of_mem inside
    rw [same] at stays
    exact Mapping.not_mem_keys_erase mapping "params" stays
  have moved := (Mapping.perm_erase distinct "params").flatMap_right spreadOne
  rw [found, List.flatMap_append] at moved
  change (spread mapping.entries).Perm (entries ++ [] ++ spread (mapping.erase "params").entries) at moved
  rwa [List.append_nil, others, Mapping.erase_eq_without] at moved

theorem spread_of_no_nested {mapping : Mapping} (distinct : mapping.Distinct)
    (none : ∀ entries, mapping.get? "params" ≠ some (.object entries)) :
    spread mapping.entries = mapping.entries := by
  refine spread_of_plain fun entry inside => ?_
  have under := Mapping.get?_of_mem distinct inside
  unfold spreadOne
  split
  next entries => exact absurd under (none entries)
  next => rfl

/-- Without a clash, the options are the others with the object replaced where it stands. -/
theorem latest_spread {mapping : Mapping} (distinct : mapping.Distinct)
    (inner : ∀ entries, mapping.get? "params" = some (.object entries) →
      (entries.map Prod.fst).Nodup) (unclashing : Unclashing mapping) :
    Mapping.latest (spread mapping.entries) = ⟨spread mapping.entries⟩ := by
  apply Mapping.latest_of_distinct
  by_cases nested : ∃ entries, mapping.get? "params" = some (.object entries)
  · obtain ⟨entries, found⟩ := nested
    rw [((spread_of_nested distinct found).map Prod.fst).nodup_iff, List.map_append]
    refine List.nodup_append'.mpr ⟨inner entries found, Mapping.without_distinct distinct _, ?_⟩
    intro key nested stays
    obtain ⟨entry, member, rfl⟩ := List.mem_map.mp nested
    exact unclashing entries found entry member stays
  · rw [spread_of_no_nested distinct (not_exists.mp nested)]
    exact distinct

end SearchOptions

end VectorQuery
