import VectorQuery.Proofs.Command.Regular
import VectorQuery.Proofs.Grammar.Draw
import VectorQuery.Proofs.Token.Lexicon

/-! Every command that is read is regular. Identifiers of a text are names and its bare words
are type words, and each rule hands on what its steps draw from such tokens. -/
namespace VectorQuery

/-- Identifiers are names, and every bare word is a type word in upper case. -/
structure Lexed (tokens : List Token) : Prop where
  names : ∀ token ∈ tokens, token.kind = .identifier → IsName token.text
  words : ∀ token ∈ tokens, token.kind.isWord = true → IsTypeWord (Text.upper token.text)

theorem IsName.isTypeWord {name : String} (isName : IsName name) : IsTypeWord (Text.upper name) :=
  ⟨Lexeme.isWord_upper isName.word, Lexeme.upper_upper name, isName.free⟩

theorem Keyword.isTypeWord (keyword : Keyword) : IsTypeWord (Text.upper keyword.word) := by
  rw [keyword.upper_word]
  exact ⟨Lexeme.isWord_keyword keyword, keyword.upper_word, keyword.word_free⟩

theorem lexed_of_sequence {text : String} {tokens : List Token}
    (read : Token.sequence text = .ok tokens) : Lexed tokens := by
  refine ⟨Token.sequence_names read, fun token inside bare => ?_⟩
  obtain ⟨lexeme, known, kind, text⟩ := Token.sequence_lexicon read token inside
  rw [kind] at bare
  rw [text]
  cases known with
  | @keyword keyword => exact keyword.isTypeWord
  | name isName => exact isName.isTypeWord
  | _ => contradiction

namespace Grammar

variable {whole : List Token} {levels : Nat}

/-! Clauses. -/

theorem mapping_regular : Draws whole (mapping levels) fun options => options.Within levels :=
  draws_of_sound (mapping_sound levels) fun phrase _ =>
    Mapping.within_of_nesting_le phrase.nesting_le

theorem getD_within {given : Option Mapping} (within : ∀ options ∈ given, options.Within levels) :
    (given.getD .empty).Within levels := by
  cases given with
  | none => exact Mapping.each_empty _
  | some options => exact within options rfl

theorem options_regular : Draws whole (options levels) fun options => options.Within levels :=
  bind_draws (clause_draws mapping_regular) fun _ within => pure_draws (getD_within within)

/-- A filter that is compiled from a condition within the levels. -/
def CompiledWithin (levels : Nat) (compiled : Option String) : Prop :=
  ∀ filter ∈ compiled, ∃ condition : Condition,
    condition.nesting ≤ levels ∧ filter = condition.predicate

theorem compiledFilter_regular : Draws whole (compiledFilter levels) (CompiledWithin levels) := by
  have conditions : Draws whole (conditions levels) fun condition => condition.nesting ≤ levels :=
    draws_of_sound (conditions_sound levels) fun phrase _ => phrase.nesting_le
  refine bind_draws (clause_draws conditions) fun found shallow => pure_draws fun filter inside => ?_
  obtain ⟨condition, same, rfl⟩ := Option.map_eq_some_iff.mp inside
  exact ⟨condition, shallow condition same, rfl⟩

theorem filtersWithin {compiled : Option String} {options : Mapping}
    (compiles : CompiledWithin levels compiled) (within : options.Within levels) :
    ∀ filter ∈ options.filterOr compiled, FiltersWithin levels filter := by
  intro filter inside
  rcases Option.or_eq_some_iff.mp inside with found | ⟨-, found⟩
  · exact .inr ⟨options, within, found⟩
  · exact .inl (compiles filter found)

theorem clauses_regular : Draws whole (clauses levels) fun read =>
    CompiledWithin levels read.1 ∧ read.2.Within levels := by
  refine bind_draws compiledFilter_regular fun compiled compiles => ?_
  refine bind_draws (clause_draws mapping_regular) fun given within => ?_
  split
  · exact refuse_draws
  · exact pure_draws ⟨compiles, getD_within within⟩

section
variable (lexed : Lexed whole)
include lexed

/-! Names. -/

theorem identifier_regular : Draws whole identifier IsName := by
  refine take_draws fun token inside name meaning => ?_
  obtain ⟨kind, same⟩ := Option.ite_none_right_eq_some.mp meaning
  exact Option.some.inj same ▸ lexed.names token inside kind

theorem names_regular : Draws whole partitions fun names =>
    (∀ name ∈ names, IsName name) ∧ names ≠ [] :=
  (separated_draws (take_taking _).shrinking (identifier_regular lexed)).both (separated_filled _)

theorem target_regular : Draws whole target fun read =>
    (∀ name ∈ read.1, IsName name) ∧ IsName read.2 := by
  refine accept_draws ?_ ?_
  · refine bind_draws (identifier_regular lexed) fun partition named => ?_
    refine then_draws (take_taking _) fun _ => ?_
    refine bind_draws (identifier_regular lexed) fun collection owned => pure_draws ⟨?_, owned⟩
    exact fun name same => Option.some.inj same ▸ named
  · refine bind_draws (identifier_regular lexed) fun collection owned => pure_draws ⟨?_, owned⟩
    exact fun name absent => absurd absent (by simp)

theorem column_regular : Draws whole column IsColumn := by
  refine accept_draws (pure_draws (.inl rfl)) (accept_draws ?_ ?_)
  · exact bind_draws (bracketed_draws (draws_of_yields (take_taking _) (yields_anything _)))
      fun _ _ => pure_draws (.inr (.inl rfl))
  · exact (identifier_regular lexed).weaken fun named => .inr (.inr named)

/-! Fields. -/

theorem typeWord_regular : Draws whole typeWord IsTypeWord := by
  refine take_draws fun token inside name meaning => ?_
  obtain ⟨bare, same⟩ := Option.ite_none_right_eq_some.mp meaning
  exact Option.some.inj same ▸ lexed.words token inside bare

omit lexed in
theorem peekContainer_taking : Taking peekContainer := by
  intro tokens follows rest read
  obtain ⟨-, rfl⟩ := Prod.mk.inj (Except.ok.inj read)
  exact List.suffix_refl tokens

theorem fieldType_regular : Draws whole fieldType FieldType.WellFormed := by
  have size_taking : Taking size := taking_of_agree True fun _ => size_agree
  refine bind_draws (typeWord_regular lexed) fun name isWord => ?_
  refine then_draws peek_taking fun next => choice_draws ?_ ?_
  · refine then_draws size_taking fun length => then_draws peekContainer_taking fun _ => ?_
    refine choice_draws ?_ (pure_draws isWord)
    refine then_draws (take_taking _) fun _ => then_draws size_taking fun _ => pure_draws isWord
  · refine then_draws peekContainer_taking fun _ => choice_draws ?_ (pure_draws isWord)
    refine then_draws (take_taking _) fun container => then_draws size_taking fun number => ?_
    refine choice_draws (pure_draws isWord) ?_
    split
    next found =>
      have differs := (Bool.and_eq_true_iff.mp found).2
      exact pure_draws ⟨isWord, by simpa using differs⟩
    next =>
      intro tokens value rest _ read
      contradiction

omit lexed in
theorem add_name_type (field : FieldDefinition) (attributes : List FieldAttribute) :
    (attributes.foldl FieldDefinition.add field).name = field.name ∧
      (attributes.foldl FieldDefinition.add field).type = field.type := by
  induction attributes generalizing field with
  | nil => exact ⟨rfl, rfl⟩
  | cons found attributes ih =>
    have ⟨name, type⟩ := ih (field.add found)
    rw [List.foldl_cons, name, type]
    cases found <;> exact ⟨rfl, rfl⟩

theorem field_regular : Draws whole field FieldDefinition.Regular := by
  refine bind_draws (identifier_regular lexed) fun name named => ?_
  refine bind_draws (fieldType_regular lexed) fun type typed => ?_
  have consuming := fieldAttribute_advancing.consuming
  have taking : Taking (many fieldAttribute) :=
    taking_of_agree True fun _ => many_agree consuming consuming fieldAttribute_agree
  refine then_draws taking fun attributes => pure_draws ?_
  have ⟨same, same'⟩ := add_name_type { name, type } attributes
  exact ⟨same ▸ named, same' ▸ typed⟩

theorem fields_regular : Draws whole fields fun fields => ∀ field ∈ fields, field.Regular := by
  refine then_draws (take_taking _) fun _ => many_draws nextField_advancing.consuming ?_
  refine then_draws (accept_taking _) fun _ => accept_draws (pure_draws (by simp)) ?_
  refine bind_draws (field_regular lexed) fun field regular => pure_draws fun other same => ?_
  exact Option.some.inj same ▸ regular

/-! Statements about the structure of a store. -/

theorem createCollection_regular : Draws whole (createCollection levels) fun collection =>
    collection.Regular levels := by
  refine bind_draws (identifier_regular lexed) fun name named => ?_
  refine bind_draws (fields_regular lexed) fun fields regular => ?_
  exact bind_draws options_regular fun options within => pure_draws ⟨named, regular, within⟩

/-- Two names with a word between them. -/
theorem named_regular (word : Keyword) {α : Type} (build : String → String → α) {holds : α → Prop}
    (held : ∀ name other, IsName name → IsName other → holds (build name other)) :
    Draws whole (identifier >>= fun name => keyword word >>= fun _ =>
      identifier >>= fun other => pure (build name other)) holds := by
  refine bind_draws (identifier_regular lexed) fun name named => then_draws (take_taking _) fun _ => ?_
  exact bind_draws (identifier_regular lexed) fun other owned =>
    pure_draws (held name other named owned)

theorem createPartition_regular : Draws whole (createPartition levels) fun command =>
    command.Regular levels := by
  refine bind_draws (identifier_regular lexed) fun name named => then_draws (take_taking _) fun _ => ?_
  refine bind_draws (identifier_regular lexed) fun collection owned => ?_
  exact bind_draws options_regular fun options within => pure_draws ⟨named, owned, within⟩

theorem createIndex_regular : Draws whole (createIndex levels) fun command =>
    command.Regular levels := by
  refine bind_draws (identifier_regular lexed) fun name named => then_draws (take_taking _) fun _ => ?_
  refine bind_draws (identifier_regular lexed) fun collection owned => ?_
  refine bind_draws (bracketed_draws (identifier_regular lexed)) fun field indexed => ?_
  refine bind_draws (clause_draws mapping_regular) fun options within => ?_
  refine pure_draws ⟨named, owned, indexed, fun given inside => ?_⟩
  obtain ⟨mapping, same, rfl⟩ := Option.map_eq_some_iff.mp inside
  exact IndexOptions.regular_ofMapping (within mapping same)

/-- A word and the name behind it. -/
theorem one_regular {build : String → Command} {holds : Command → Prop}
    (held : ∀ name, IsName name → holds (build name)) :
    Draws whole (identifier >>= fun name => pure (build name)) holds :=
  bind_draws (identifier_regular lexed) fun name named => pure_draws (held name named)

theorem create_regular : Draws whole (create levels) fun command => command.Regular levels := by
  refine accept_draws (one_regular lexed fun _ named => named) (accept_draws ?_ (accept_draws ?_
    (accept_draws ?_ (accept_draws ?_ refuse_draws))))
  · exact map_draws (createCollection_regular lexed)
  · exact map_draws (named_regular lexed .for _ fun _ _ named owned => ⟨named, owned⟩)
  · exact map_draws (createPartition_regular lexed)
  · exact map_draws (createIndex_regular lexed)

theorem drop_regular : Draws whole drop fun command => command.Regular levels := by
  refine accept_draws (one_regular lexed fun _ named => named) (accept_draws ?_ (accept_draws ?_
    (accept_draws ?_ (accept_draws ?_ refuse_draws))))
  · exact one_regular lexed fun _ named => named
  · exact map_draws (named_regular lexed .for _ fun _ _ named owned => ⟨named, owned⟩)
  · exact map_draws (named_regular lexed .on _ fun _ _ named owned => ⟨named, owned⟩)
  · exact map_draws (named_regular lexed .on _ fun _ _ named owned => ⟨named, owned⟩)

theorem showAll_regular : Draws whole showAll fun command => command.Regular levels := by
  refine accept_draws (pure_draws trivial) (accept_draws (pure_draws trivial) (accept_draws ?_
    (accept_draws ?_ (accept_draws ?_ refuse_draws))))
  all_goals exact then_draws (take_taking _) fun _ => one_regular lexed fun _ named => named

theorem load_regular : Draws whole (load levels) fun command => command.Regular levels := by
  refine accept_draws ?_ (accept_draws ?_ refuse_draws)
  · refine bind_draws (identifier_regular lexed) fun name named => ?_
    exact bind_draws options_regular fun options within => pure_draws ⟨named, within⟩
  · refine bind_draws (names_regular lexed) fun names all => then_draws (take_taking _) fun _ => ?_
    refine bind_draws (identifier_regular lexed) fun collection owned => ?_
    exact bind_draws options_regular fun options within =>
      pure_draws ⟨owned, all.2, all.1, within⟩

theorem release_regular : Draws whole release fun command => command.Regular levels := by
  refine accept_draws (one_regular lexed fun _ named => named) (accept_draws ?_ refuse_draws)
  refine bind_draws (names_regular lexed) fun names all => then_draws (take_taking _) fun _ => ?_
  exact one_regular lexed fun _ owned => ⟨owned, all.2, all.1⟩

theorem rename_regular : Draws whole rename fun command => command.Regular levels := by
  refine then_draws (take_taking _) fun _ => bind_draws (identifier_regular lexed) fun old named => ?_
  refine then_draws (take_taking _) fun _ => ?_
  refine bind_draws (identifier_regular lexed) fun new renamed => then_draws (take_taking _) fun _ => ?_
  exact one_regular lexed fun _ owned => ⟨named, renamed, owned⟩

theorem compact_regular : Draws whole compact fun command => command.Regular levels :=
  then_draws (take_taking _) fun _ => one_regular lexed fun _ named => named

/-! Rows. -/

theorem bulkInsert_regular : Draws whole bulkInsert BulkInsert.Regular := by
  have target : Draws whole bulkTarget fun read =>
      (∀ name ∈ read.1, IsName name) ∧ IsName read.2 := by
    refine accept_draws ?_ (then_draws (take_taking _) fun _ => ?_)
    · refine named_regular lexed .on (fun partition collection => (some partition, collection)) ?_
      exact fun partition collection named owned =>
        ⟨fun name same => Option.some.inj same ▸ named, owned⟩
    · refine bind_draws (identifier_regular lexed) fun collection owned => pure_draws ⟨?_, owned⟩
      exact fun name absent => absurd absent (by simp)
  have files : Draws whole file fun found => ∀ name ∈ found, True := by
    have text : Draws whole (text >>= fun name => pure (some name)) fun found =>
        ∀ name ∈ found, True :=
      then_draws (take_taking _) fun _ => pure_draws fun _ _ => trivial
    refine accept_draws text (then_draws peek_taking fun _ => choice_draws text ?_)
    exact pure_draws fun _ _ => trivial
  refine then_draws (take_taking _) fun _ => bind_draws target fun read named => ?_
  refine then_draws (take_taking _) fun _ => ?_
  exact bind_draws (many_draws file_advancing.consuming files) fun _ _ =>
    pure_draws ⟨named.2, named.1⟩

omit lexed in
theorem row_regular (names : List String) : Draws whole (row levels names)
    (Write.IsRow names levels) := by
  have value : Draws whole (value levels) fun value => value.nesting ≤ levels :=
    draws_of_sound (value_sound levels) fun phrase _ => phrase.nesting_le
  have values := (separated_draws (value_sound levels).shrinking value).both (separated_filled _)
  refine bind_draws (bracketed_draws values) fun items found => ?_
  exact pure_draws ⟨items, found.2, found.1, rfl⟩

theorem write_regular : Draws whole (write levels) fun write => write.Regular levels := by
  have shrinking (names : List String) : Shrinking (row levels names) :=
    row_shrinking (value_sound levels).shrinking names
  refine then_draws (take_taking _) fun _ => bind_draws (target_regular lexed) fun read named => ?_
  refine bind_draws (bracketed_draws (names_regular lexed)) fun names all => ?_
  refine then_draws (take_taking _) fun _ => ?_
  refine bind_draws ((separated_draws (shrinking names) (row_regular names)).both
    (separated_filled _)) fun rows found => pure_draws ?_
  obtain ⟨each, filled⟩ := found
  exact {
    collection := named.2
    partition := named.1
    filled := ⟨filled, fun row inside => (each row inside).filled all.2⟩
    keys := fun row inside => (each row inside).keys all.1
    aligned := fun row inside other within => (each row inside).aligned (each other within)
    values := fun row inside => (each row inside).nesting_le }

/-! Statements that select rows. -/

theorem delete_regular : Draws whole (delete levels) fun delete => delete.Regular levels := by
  refine then_draws (take_taking _) fun _ => bind_draws (target_regular lexed) fun read named => ?_
  refine bind_draws clauses_regular fun given found => pure_draws ?_
  obtain ⟨compiles, within⟩ := found
  exact {
    collection := named.2
    partition := named.1
    filter := filtersWithin compiles within
    options := within.erase "expr"
    bare := Mapping.not_mem_keys_erase _ _ }

omit lexed in
theorem vectors_regular : Draws whole (vectors levels) fun vectors =>
    vectors ≠ [] ∧ ∀ vector ∈ vectors, (Value.array vector).nesting ≤ levels := by
  have list : Draws whole (list levels) fun items => (Value.array items).nesting ≤ levels :=
    draws_of_sound (list_sound levels) fun phrase _ => phrase.nesting_le
  refine then_draws current_taking fun opening => bind_draws list fun items shallow => ?_
  cases split : Value.vectors? items with
  | some vectors => exact pure_draws (Value.vectors_nesting_le split shallow)
  | none =>
    intro tokens value rest _ read
    contradiction

/-- What a selection reads before its clauses. -/
structure Selected (columns partitions : List String) (collection : String) : Prop where
  columns : columns ≠ [] ∧ ∀ column ∈ columns, IsColumn column
  partitions : ∀ name ∈ partitions, IsName name
  collection : IsName collection

omit lexed in
theorem query_regular {columns partitions : List String} {collection : String}
    (selected : Selected columns partitions collection) :
    Draws whole (query levels columns partitions collection) fun query => query.Regular levels := by
  refine then_draws (bound_taking _) fun limit => then_draws (bound_taking _) fun offset => ?_
  refine bind_draws clauses_regular fun given found => pure_draws ?_
  obtain ⟨compiles, within⟩ := found
  exact {
    collection := selected.collection
    columns := selected.columns
    partitions := selected.partitions
    filter := filtersWithin compiles within
    options := within.erase "expr"
    bare := Mapping.not_mem_keys_erase _ _ }

theorem search_regular {columns partitions : List String} {collection : String}
    (selected : Selected columns partitions collection) :
    Draws whole (search levels columns partitions collection) fun search =>
      search.Regular levels := by
  refine then_draws (take_taking _) fun _ => then_draws (take_taking _) fun _ => ?_
  refine bind_draws (identifier_regular lexed) fun target named => then_draws (take_taking _) fun _ => ?_
  refine then_draws (take_taking _) fun _ => then_draws (take_taking _) fun _ => ?_
  refine bind_draws vectors_regular fun vectors filled => then_draws (bound_taking _) fun limit => ?_
  refine bind_draws compiledFilter_regular fun compiled compiles => ?_
  refine then_draws (take_taking _) fun _ => bind_draws mapping_regular fun options within => ?_
  exact pure_draws {
    collection := selected.collection
    columns := selected.columns
    partitions := selected.partitions
    target := named
    vectors := filled
    filter := filtersWithin compiles within
    options := SearchOptions.regular_ofMapping (within.erase "expr") }

theorem select_regular : Draws whole (select levels) fun command => command.Regular levels := by
  refine bind_draws ((separated_draws column_shrinking (column_regular lexed)).both
    (separated_filled _)) fun columns chosen => then_draws (take_taking _) fun _ => ?_
  have within : Draws whole selectedPartitions fun names => ∀ name ∈ names, IsName name := by
    refine accept_draws ?_ (pure_draws (by simp))
    refine bind_draws (names_regular lexed) fun names all => then_draws (take_taking _) fun _ => ?_
    exact pure_draws all.1
  refine bind_draws within fun partitions named => ?_
  refine bind_draws (identifier_regular lexed) fun collection owned => ?_
  have selected : Selected columns partitions collection := ⟨chosen.symm, named, owned⟩
  refine then_draws peek_taking fun next => choice_draws ?_ ?_
  · exact map_draws (search_regular lexed selected)
  · exact map_draws (query_regular selected)

theorem command_regular : Draws whole (command levels) fun command => command.Regular levels := by
  refine accept_draws (create_regular lexed) (accept_draws (drop_regular lexed) ?_)
  refine accept_draws (showAll_regular lexed) (accept_draws (load_regular lexed) ?_)
  refine accept_draws (release_regular lexed) (accept_draws ?_ ?_)
  · exact one_regular lexed fun _ named => named
  refine accept_draws (rename_regular lexed) (accept_draws (compact_regular lexed) ?_)
  refine accept_draws ?_ (accept_draws ?_ (accept_draws ?_ (accept_draws ?_
    (accept_draws (select_regular lexed) refuse_draws))))
  · exact map_draws (bulkInsert_regular lexed)
  · exact map_draws (write_regular lexed)
  · exact map_draws (write_regular lexed)
  · exact map_draws (delete_regular lexed)

end

end Grammar

namespace Limits

end Limits

end VectorQuery
