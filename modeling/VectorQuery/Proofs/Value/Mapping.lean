import Mathlib.Data.List.Nodup
import Mathlib.Tactic.SplitIfs
import VectorQuery.Value.Mapping

/-! Mappings that are read hold each key once, so that looking a key up and listing the
entries tell the same. -/
namespace VectorQuery.Mapping

/-- Each key stands once. -/
def Distinct (mapping : Mapping) : Prop :=
  mapping.keys.Nodup

theorem empty_distinct : empty.Distinct := List.nodup_nil

theorem mem_keys_insertEntry {key other : String} {value : Value}
    {entries : List (String × Value)} :
    other ∈ (insertEntry key value entries).map Prod.fst ↔
      other = key ∨ other ∈ entries.map Prod.fst := by
  induction entries with
  | nil => simp [insertEntry]
  | cons entry rest ih =>
    obtain ⟨first, old⟩ := entry
    by_cases same : first = key
    · subst same
      simp [insertEntry]
    · simp only [insertEntry, if_neg same, List.map_cons, List.mem_cons, ih]
      tauto

theorem insert_distinct {mapping : Mapping} (distinct : mapping.Distinct) (key : String)
    (value : Value) : (mapping.insert key value).Distinct := by
  obtain ⟨entries⟩ := mapping
  change ((insertEntry key value entries).map Prod.fst).Nodup
  change (entries.map Prod.fst).Nodup at distinct
  induction entries with
  | nil => simp [insertEntry]
  | cons entry rest ih =>
    obtain ⟨first, old⟩ := entry
    obtain ⟨absent, others⟩ := List.nodup_cons.mp distinct
    by_cases same : first = key
    · subst same
      simpa [insertEntry] using distinct
    · have fresh : first ∉ (insertEntry key value rest).map Prod.fst := by
        rw [mem_keys_insertEntry]
        exact not_or.mpr ⟨same, absent⟩
      simp only [insertEntry, if_neg same, List.map_cons]
      exact List.nodup_cons.mpr ⟨fresh, ih others⟩

theorem insertAll_distinct {mapping : Mapping} (distinct : mapping.Distinct)
    (entries : List (String × Value)) : (mapping.insertAll entries).Distinct := by
  induction entries generalizing mapping with
  | nil => exact distinct
  | cons entry rest ih => exact ih (insert_distinct distinct entry.1 entry.2)

theorem ofList_distinct (entries : List (String × Value)) : (ofList entries).Distinct :=
  insertAll_distinct empty_distinct entries

/-! What stands under a key, and in which order the keys stand. -/

theorem lookup_cons_eq (wanted : String) (entry : String × Value)
    (rest : List (String × Value)) :
    (entry :: rest).lookup wanted = if wanted = entry.1 then some entry.2 else rest.lookup wanted := by
  rw [List.lookup_cons]
  by_cases same : wanted = entry.1
  · simp [same]
  · have differs : (wanted == entry.1) = false := beq_false_of_ne same
    simp only [differs, if_neg same]

theorem get?_insert (mapping : Mapping) (key wanted : String) (value : Value) :
    (mapping.insert key value).get? wanted =
      if wanted = key then some value else mapping.get? wanted := by
  obtain ⟨entries⟩ := mapping
  change (insertEntry key value entries).lookup wanted = _
  induction entries with
  | nil => exact lookup_cons_eq wanted (key, value) []
  | cons entry rest ih =>
    obtain ⟨first, old⟩ := entry
    by_cases same : first = key
    · subst same
      simp only [insertEntry, if_true, get?, lookup_cons_eq]
      by_cases found : wanted = first <;> simp [found]
    · simp only [insertEntry, if_neg same, get?, lookup_cons_eq] at ih ⊢
      by_cases found : wanted = first
      · have differs : wanted ≠ key := fun equal => same (found.symm.trans equal)
        simp only [if_pos found, if_neg differs]
      · simp only [if_neg found, ih]

/-- The last of the entries put in decides, and what stood there before where there is none. -/
theorem get?_insertAll (mapping : Mapping) (entries : List (String × Value)) (wanted : String) :
    (mapping.insertAll entries).get? wanted =
      (entries.reverse.lookup wanted).or (mapping.get? wanted) := by
  induction entries generalizing mapping with
  | nil => rfl
  | cons entry rest ih =>
    have step : mapping.insertAll (entry :: rest) = (mapping.insert entry.1 entry.2).insertAll rest :=
      rfl
    rw [step, ih, get?_insert, List.reverse_cons, List.lookup_append, lookup_cons_eq, Option.or_assoc]
    by_cases same : wanted = entry.1 <;> simp [same]

theorem keys_insert (mapping : Mapping) (key : String) (value : Value) :
    (mapping.insert key value).keys =
      if key ∈ mapping.keys then mapping.keys else mapping.keys ++ [key] := by
  obtain ⟨entries⟩ := mapping
  change (insertEntry key value entries).map Prod.fst = _
  induction entries with
  | nil => rfl
  | cons entry rest ih =>
    obtain ⟨first, old⟩ := entry
    by_cases same : first = key
    · subst same
      simp [insertEntry, keys]
    · simp only [insertEntry, if_neg same, keys, List.map_cons, List.mem_cons] at ih ⊢
      have differs : key ≠ first := Ne.symm same
      by_cases found : key ∈ rest.map Prod.fst <;> simp [ih, found, differs]

theorem keys_prefix_insertAll (mapping : Mapping) (entries : List (String × Value)) :
    mapping.keys <+: (mapping.insertAll entries).keys := by
  induction entries generalizing mapping with
  | nil => exact List.prefix_refl _
  | cons entry rest ih =>
    have step : mapping.keys <+: (mapping.insert entry.1 entry.2).keys := by
      rw [keys_insert]
      split
      · exact List.prefix_refl _
      · exact List.prefix_append _ _
    exact step.trans (ih (mapping.insert entry.1 entry.2))

/-- The keys alone decide which keys stand, and in which order. -/
theorem keys_insertAll_congr {mapping mapping' : Mapping} {entries entries' : List (String × Value)}
    (same : mapping.keys = mapping'.keys) (named : entries.map Prod.fst = entries'.map Prod.fst) :
    (mapping.insertAll entries).keys = (mapping'.insertAll entries').keys := by
  induction entries generalizing mapping mapping' entries' with
  | nil =>
    obtain rfl : entries' = [] := List.map_eq_nil_iff.mp named.symm
    exact same
  | cons entry rest ih =>
    obtain ⟨entry', rest', rfl, key, others⟩ := List.map_eq_cons_iff.mp named.symm
    have step : (mapping.insert entry.1 entry.2).keys = (mapping'.insert entry'.1 entry'.2).keys := by
      rw [keys_insert, keys_insert, same, key]
    exact @ih (mapping.insert entry.1 entry.2) _ rest' step others.symm

/-- With more entries behind, more keys may stand behind. -/
theorem keys_prefix_ofList {entries entries' : List (String × Value)}
    (named : entries.map Prod.fst <+: entries'.map Prod.fst) :
    (ofList entries).keys <+: (ofList entries').keys := by
  obtain ⟨others, same⟩ := named
  have whole : (ofList entries').keys =
      ((ofList entries).insertAll (others.map fun key => (key, .null))).keys := by
    rw [ofList, ofList, insertAll, insertAll, insertAll, ← List.foldl_append]
    refine keys_insertAll_congr rfl ?_
    rw [List.map_append, List.map_map, ← same]
    simp [Function.comp_def]
  rw [whole]
  exact keys_prefix_insertAll _ _

/-- The entries of a mapping are among those put in. -/
theorem mem_insertEntry {key : String} {value : Value} {entries : List (String × Value)}
    {entry : String × Value} (inside : entry ∈ insertEntry key value entries) :
    entry = (key, value) ∨ entry ∈ entries := by
  induction entries with
  | nil => exact .inl (List.mem_singleton.mp inside)
  | cons first rest ih =>
    obtain ⟨other, old⟩ := first
    unfold insertEntry at inside
    split_ifs at inside
    · exact (List.mem_cons.mp inside).imp_right (List.mem_cons_of_mem _)
    · rcases List.mem_cons.mp inside with rfl | later
      · exact .inr List.mem_cons_self
      · exact (ih later).imp_right (List.mem_cons_of_mem _)

theorem mem_insertAll {mapping : Mapping} {entries : List (String × Value)}
    {entry : String × Value} (inside : entry ∈ (mapping.insertAll entries).entries) :
    entry ∈ mapping.entries ∨ entry ∈ entries := by
  induction entries generalizing mapping with
  | nil => exact .inl inside
  | cons first rest ih =>
    rcases ih inside with placed | later
    · rcases mem_insertEntry placed with rfl | held
      · exact .inr List.mem_cons_self
      · exact .inl held
    · exact .inr (List.mem_cons_of_mem _ later)

theorem mem_ofList {entries : List (String × Value)} {entry : String × Value}
    (inside : entry ∈ (ofList entries).entries) : entry ∈ entries :=
  (mem_insertAll inside).resolve_left (by simp [empty])

theorem mem_keys_ofList {entries : List (String × Value)} {key : String}
    (inside : key ∈ (ofList entries).keys) : key ∈ entries.map Prod.fst := by
  obtain ⟨entry, held, rfl⟩ := List.mem_map.mp inside
  exact List.mem_map_of_mem (mem_ofList held)

theorem ofList_filled {entries : List (String × Value)} (filled : entries ≠ []) :
    (ofList entries).entries ≠ [] := by
  cases entries with
  | nil => contradiction
  | cons entry rest =>
    intro nothing
    have placed : [entry.1] <+: (ofList (entry :: rest)).keys :=
      keys_prefix_insertAll (empty.insert entry.1 entry.2) rest
    rw [keys, nothing] at placed
    exact absurd (List.prefix_nil.mp placed) (by simp)

/-! What holds of every value. -/

def Each (property : Value → Prop) (mapping : Mapping) : Prop :=
  ∀ entry ∈ mapping.entries, property entry.2

section
variable {property : Value → Prop} {mapping : Mapping}

theorem each_empty (property : Value → Prop) : empty.Each property := nofun

theorem Each.insertAll (each : mapping.Each property) {entries : List (String × Value)}
    (others : ∀ entry ∈ entries, property entry.2) : (mapping.insertAll entries).Each property :=
  fun entry inside => (mem_insertAll inside).elim (each entry) (others entry)

theorem each_ofList {entries : List (String × Value)}
    (held : ∀ entry ∈ entries, property entry.2) : (ofList entries).Each property :=
  (each_empty property).insertAll held

theorem Each.erase (each : mapping.Each property) (key : String) :
    (mapping.erase key).Each property :=
  fun entry inside => each entry (List.mem_of_mem_filter inside)

theorem Each.get? (each : mapping.Each property) {key : String} {value : Value}
    (found : mapping.get? key = some value) : property value := by
  obtain ⟨before, behind, split, -⟩ := List.lookup_eq_some_iff.mp found
  exact each (key, value) (by simp [split])

end

theorem not_mem_keys_erase (mapping : Mapping) (key : String) : key ∉ (mapping.erase key).keys := by
  simp [keys, erase]

theorem mem_keys_of_erase {mapping : Mapping} {key other : String}
    (inside : other ∈ (mapping.erase key).keys) : other ∈ mapping.keys :=
  (List.filter_sublist.map Prod.fst).subset inside

theorem erase_distinct {mapping : Mapping} (distinct : mapping.Distinct) (key : String) :
    (mapping.erase key).Distinct := by
  have fewer : (mapping.erase key).keys.Sublist mapping.keys :=
    List.filter_sublist.map Prod.fst
  exact distinct.sublist fewer

theorem insertEntry_of_fresh {key : String} {value : Value} {entries : List (String × Value)}
    (fresh : key ∉ entries.map Prod.fst) :
    insertEntry key value entries = entries ++ [(key, value)] := by
  induction entries with
  | nil => rfl
  | cons entry rest ih =>
    obtain ⟨first, old⟩ := entry
    simp only [List.map_cons, List.mem_cons, not_or] at fresh
    obtain ⟨differs, absent⟩ := fresh
    rw [insertEntry, if_neg (Ne.symm differs), ih absent, List.cons_append]

theorem insertAll_of_fresh {mapping : Mapping} {entries : List (String × Value)}
    (distinct : (mapping.entries ++ entries).map Prod.fst |>.Nodup) :
    mapping.insertAll entries = ⟨mapping.entries ++ entries⟩ := by
  induction entries generalizing mapping with
  | nil => simp [insertAll]
  | cons entry rest ih =>
    obtain ⟨key, value⟩ := entry
    have fresh : key ∉ mapping.entries.map Prod.fst := by
      intro present
      rw [List.map_append] at distinct
      exact List.disjoint_of_nodup_append distinct present (by simp)
    have placed : mapping.insert key value = ⟨mapping.entries ++ [(key, value)]⟩ := by
      rw [insert, insertEntry_of_fresh fresh]
    calc mapping.insertAll ((key, value) :: rest)
        = (mapping.insert key value).insertAll rest := rfl
      _ = ⟨mapping.entries ++ [(key, value)] ++ rest⟩ := by
        rw [placed, ih (by simpa using distinct)]
      _ = ⟨mapping.entries ++ (key, value) :: rest⟩ := by simp

theorem ofList_of_distinct {entries : List (String × Value)}
    (distinct : (entries.map Prod.fst).Nodup) : ofList entries = ⟨entries⟩ := by
  apply insertAll_of_fresh
  simpa [empty] using distinct

theorem erase_of_absent {mapping : Mapping} {key : String} (absent : key ∉ mapping.keys) :
    mapping.erase key = mapping := by
  have all : ∀ entry ∈ mapping.entries, decide (entry.1 ≠ key) = true := by
    intro entry inside
    have differs : entry.1 ≠ key := fun same => absent (same ▸ List.mem_map_of_mem inside)
    simpa using differs
  rw [erase, List.filter_eq_self.mpr all]

theorem erase_append (first second : List (String × Value)) (key : String) :
    (⟨first ++ second⟩ : Mapping).erase key =
      ⟨(erase ⟨first⟩ key).entries ++ (erase ⟨second⟩ key).entries⟩ := by
  simp only [erase, List.filter_append]

theorem get?_append (first second : List (String × Value)) (key : String) :
    (⟨first ++ second⟩ : Mapping).get? key = (get? ⟨first⟩ key).or (get? ⟨second⟩ key) := by
  simp only [get?, List.lookup_append]

theorem lookup_of_absent {entries : List (String × Value)} {key : String}
    (absent : key ∉ entries.map Prod.fst) : entries.lookup key = none := by
  rw [List.lookup_eq_none_iff]
  intro entry inside
  have differs : entry.1 ≠ key := fun same => absent (same ▸ List.mem_map_of_mem inside)
  simpa using differs.symm

theorem get?_of_absent {mapping : Mapping} {key : String} (absent : key ∉ mapping.keys) :
    mapping.get? key = none :=
  lookup_of_absent absent

end VectorQuery.Mapping
