import VectorQuery.Proofs.Grammar.Allowance
import VectorQuery.Proofs.Statement.Agreement

/-! Statements pay for their levels: those of their options, filters and rows, and no others. -/
namespace VectorQuery.Grammar

/-! Clauses. -/

section
variable (levels : Nat)

theorem options_paying : Paying levels (options levels) :=
  map_paying (announced_paying _ (mapping_paying levels)) _

theorem compiledFilter_paying : Paying levels (compiledFilter levels) :=
  map_paying (announced_paying _ (conditions_paying levels)) _

theorem clauses_paying : Paying levels (clauses levels) := by
  refine bind_paying (compiledFilter_paying levels) fun compiled => ?_
  refine bind_paying (announced_paying _ (mapping_paying levels)) fun given => ?_
  cases given with
  | none =>
    cases compiled with
    | none => exact refuse_paying
    | some filter => exact pure_paying _
  | some options => exact pure_paying _

end

/-! Rules that open no level. -/

section
variable {levels : Nat}

theorem identifier_paying : Paying levels identifier :=
  take_paying _

theorem keyword_paying (word : Keyword) : Paying levels (keyword word) :=
  take_paying _

theorem current_paying : Paying levels current := by
  constructor
  · rintro (_ | ⟨head, tail⟩) value rest read
    · contradiction
    · obtain ⟨-, rfl⟩ := Prod.mk.inj (Except.ok.inj read)
      exact Nat.le_refl _
  · rintro (_ | ⟨head, tail⟩) token failed
    · cases failed
    · cases failed

theorem column_paying : Paying levels column := by
  refine found_paying (pure_paying _) (found_paying ?_ identifier_paying _) _
  exact bind_paying (bracketed_paying (take_paying _)).fewer fun _ => pure_paying _

theorem target_paying : Paying levels target :=
  paying_of_agree fun _ => target_agree

theorem partitions_paying : Paying levels partitions :=
  paying_of_agree fun _ => partitions_agree

end

/-! Statements. -/

section
variable (levels : Nat)

theorem createCollection_paying : Paying levels (createCollection levels) :=
  bind_paying identifier_paying fun _ => bind_paying (paying_of_agree fun _ => fields_agree) fun _ =>
    map_paying (options_paying levels) _

theorem createPartition_paying : Paying levels (createPartition levels) :=
  bind_paying identifier_paying fun _ => bind_paying (keyword_paying _) fun _ =>
    bind_paying identifier_paying fun _ => map_paying (options_paying levels) _

theorem createIndex_paying : Paying levels (createIndex levels) := by
  refine bind_paying identifier_paying fun index => bind_paying (keyword_paying _) fun _ => ?_
  refine bind_paying identifier_paying fun collection => ?_
  refine bind_paying (bracketed_paying identifier_paying).fewer fun field => ?_
  exact map_paying (announced_paying _ (mapping_paying levels)) _

theorem create_paying : Paying levels (create levels) := by
  refine found_paying (map_paying identifier_paying _) (found_paying ?_ (found_paying ?_
    (found_paying ?_ (found_paying ?_ refuse_paying _) _) _) _) _
  · exact map_paying (createCollection_paying levels) _
  · exact map_paying (paying_of_agree fun _ => named_agree _ _) _
  · exact map_paying (createPartition_paying levels) _
  · exact map_paying (createIndex_paying levels) _

theorem load_paying : Paying levels (load levels) := by
  refine found_paying ?_ (found_paying ?_ refuse_paying _) _
  · exact bind_paying identifier_paying fun _ => map_paying (options_paying levels) _
  · exact bind_paying partitions_paying fun _ => bind_paying (keyword_paying _) fun _ =>
      bind_paying identifier_paying fun _ => map_paying (options_paying levels) _

theorem write_paying : Paying levels (write levels) := by
  have row (names : List String) : Paying levels (row levels names) :=
    map_paying (bracketed_paying (separated_paying (value_paying levels))).fewer _
  refine bind_paying (keyword_paying _) fun _ => bind_paying target_paying fun _ => ?_
  refine bind_paying (bracketed_paying (separated_paying identifier_paying)).fewer fun names => ?_
  exact bind_paying (keyword_paying _) fun _ => map_paying (separated_paying (row names)) _

theorem delete_paying : Paying levels (delete levels) :=
  bind_paying (keyword_paying _) fun _ => bind_paying target_paying fun _ =>
    map_paying (clauses_paying levels) _

theorem vectors_paying : Paying levels (vectors levels) := by
  refine bind_paying current_paying fun opening => bind_paying (list_paying levels) fun items => ?_
  cases Value.vectors? items with
  | some vectors => exact pure_paying vectors
  | none => exact ⟨refuseToken_shrinking opening, nofun⟩

theorem query_paying (columns partitions : List String) (collection : String) :
    Paying levels (query levels columns partitions collection) :=
  bind_paying (announced_paying _ (take_paying _)) fun _ =>
    bind_paying (announced_paying _ (take_paying _)) fun _ => map_paying (clauses_paying levels) _

theorem search_paying (columns partitions : List String) (collection : String) :
    Paying levels (search levels columns partitions collection) := by
  have symbol (symbol : Operator) : Paying levels (operator symbol) := take_paying _
  refine bind_paying (keyword_paying _) fun _ => bind_paying (keyword_paying _) fun _ => ?_
  refine bind_paying identifier_paying fun target => bind_paying (symbol _) fun _ => ?_
  refine bind_paying (symbol _) fun _ => bind_paying (symbol _) fun _ => ?_
  refine bind_paying (vectors_paying levels) fun vectors => ?_
  refine bind_paying (announced_paying _ (take_paying _)) fun limit => ?_
  refine bind_paying (compiledFilter_paying levels) fun compiled => ?_
  exact bind_paying (keyword_paying _) fun _ => map_paying (mapping_paying levels) _

theorem select_paying : Paying levels (select levels) := by
  have selected : Paying levels selectedPartitions :=
    found_paying (bind_paying partitions_paying fun _ => bind_paying (keyword_paying _) fun _ =>
      pure_paying _) (pure_paying []) _
  refine bind_paying (separated_paying column_paying) fun columns => ?_
  refine bind_paying (keyword_paying _) fun _ => bind_paying selected fun partitions => ?_
  refine bind_paying identifier_paying fun collection => peek_paying fun kind => choice_paying ?_ ?_
  · exact map_paying (search_paying levels columns partitions collection) _
  · exact map_paying (query_paying levels columns partitions collection) _

theorem command_paying : Paying levels (command levels) := by
  refine found_paying (create_paying levels) ?_ _
  refine found_paying (paying_of_agree fun _ => drop_agree) ?_ _
  refine found_paying (paying_of_agree fun _ => showAll_agree) ?_ _
  refine found_paying (load_paying levels) ?_ _
  refine found_paying (paying_of_agree fun _ => release_agree) ?_ _
  refine found_paying (map_paying identifier_paying _) ?_ _
  refine found_paying (paying_of_agree fun _ => rename_agree) ?_ _
  refine found_paying (paying_of_agree fun _ => compact_agree) ?_ _
  refine found_paying (map_paying (paying_of_agree fun _ => bulkInsert_agree) _) ?_ _
  refine found_paying (map_paying (write_paying levels) _) ?_ _
  refine found_paying (map_paying (write_paying levels) _) ?_ _
  refine found_paying (map_paying (delete_paying levels) _) ?_ _
  exact found_paying (select_paying levels) refuse_paying _

/-- A statement meets its limit only where it has as many tokens as levels. -/
theorem statement_paying : Paying levels (statement levels) :=
  bind_paying (command_paying levels) fun _ => bind_paying (take_paying _) fun _ =>
    bind_paying (paying_of_agree fun _ => finished_agree) fun _ => pure_paying _

end

end VectorQuery.Grammar
