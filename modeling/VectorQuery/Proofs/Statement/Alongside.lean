import VectorQuery.Proofs.Grammar.Alongside
import VectorQuery.Proofs.Statement.Agreement
import VectorQuery.Statement

/-! Statements read a difference whether or not its minus stands against the number. Wherever
else a clause, a field or a row meets the sign behind the end of an operand, both spellings are
refused. -/
namespace VectorQuery.Grammar

variable {α : Type} {before after : Stage} {levels : Nat}

/-! Clauses. -/

/-- Two names with a word between them. -/
theorem named_alongside (word : Keyword) (build : String → String → α) :
    Alongside before .loose (identifier >>= fun name => keyword word >>= fun _ =>
      identifier >>= fun other => pure (build name other)) :=
  bind_alongside identifier_alongside fun name => bind_alongside (keyword_alongside word) fun _ =>
    map_alongside identifier_alongside (build name)

theorem target_alongside : Alongside before .loose target :=
  found_alongside rfl (named_alongside _ _) (map_alongside identifier_alongside _)

theorem partitions_alongside : Alongside .fresh .loose partitions :=
  separated_alongside identifier_strict.shrinking identifier_alongside

theorem given_alongside : Alongside before .loose (announced .with (mapping levels)) :=
  announced_alongside _ mapping_alongside

theorem options_alongside : Alongside before .loose (options levels) :=
  map_alongside given_alongside _

theorem compiledFilter_alongside : Alongside before .loose (compiledFilter levels) :=
  map_alongside (announced_alongside _ conditions_alongside) _

theorem clauses_alongside : Alongside before .loose (clauses levels) := by
  refine bind_alongside compiledFilter_alongside fun compiled => ?_
  refine bind_alongside given_alongside fun given => ?_
  cases given with
  | none =>
    cases compiled with
    | none => exact refuse_alongside
    | some filter => exact pure_alongside _
  | some options => exact pure_alongside _

/-! Fields. -/

theorem isWord_of_unsteady {kind : TokenKind} (unsteady : kind.isSteady = false) :
    kind.isWord = false := by
  unfold TokenKind.isSteady at unsteady
  split at unsteady <;> first
    | rfl
    | contradiction

theorem typeWord_alongside : Alongside before .loose typeWord := by
  refine take_alongside fun token unsteady => ?_
  rw [isWord_of_unsteady unsteady]
  rfl

theorem word_alongside (expected : String) : Alongside before .loose (word expected) := by
  refine take_alongside fun token unsteady => ?_
  rw [Token.isWord, isWord_of_unsteady unsteady]
  rfl

theorem size_alongside : Alongside before .loose size :=
  bracketed_alongside (take_fresh _)

theorem containerFollows_of_unsteady {token : Token} (unsteady : token.kind.isSteady = false)
    (rest : List Token) : containerFollows (token :: rest) = false := by
  rw [containerFollows_cons, isWord_of_unsteady unsteady]
  rfl

theorem containerFollows_of_other {first second : Token}
    (other : second.kind ≠ .operator .openParen) (rest : List Token) :
    containerFollows (first :: second :: rest) = false := by
  cases rest with
  | nil => rfl
  | cons third rest => simp [containerFollows, other]

/-- A sign is apart neither where the container is named nor where its number stands. -/
theorem containerFollows_alongside {left right : List Token} (related : before.Relates left right) :
    containerFollows left = containerFollows right := by
  rcases related.cases with ⟨rfl, rfl⟩ | ⟨first, rest, rest', rfl, rfl, named⟩ |
    ⟨-, token, minus, number, rest, rest', rfl, rfl, split, -⟩
  · rfl
  · rcases named.cases with ⟨rfl, rfl⟩ | ⟨second, rest, rest', rfl, rfl, opened⟩ |
      ⟨-, token, minus, number, rest, rest', rfl, rfl, split, -⟩
    · rfl
    · by_cases opens : second.kind = .operator .openParen
      · rw [opens] at opened
        rcases Stage.Relates.fresh_cases opened with ⟨rfl, rfl⟩ | ⟨third, rest, rest', rfl, rfl, -⟩
        · rfl
        · rfl
      · rw [containerFollows_of_other opens, containerFollows_of_other opens]
    · have steady : (TokenKind.operator .openParen).isSteady = true := rfl
      obtain ⟨token_ne, minus_ne⟩ := split.ne_of_isSteady steady
      rw [containerFollows_of_other token_ne, containerFollows_of_other minus_ne]
  · rw [containerFollows_of_unsteady split.isSteady_token,
      containerFollows_of_unsteady split.isSteady_minus]

theorem peekContainer_alongside {yes no : Rule α}
    (first : ∀ ⦃left right⦄, before.Relates left right → containerFollows left = true →
      Matches after (yes left) (yes right))
    (second : Alongside before after no) :
    Alongside before after (peekContainer >>= fun found => if found = true then yes else no) := by
  intro left right related
  have seen (tokens : List Token) :
      peekContainer tokens = .ok (containerFollows tokens, tokens) := rfl
  rw [bind_of_ok (seen left), bind_of_ok (seen right), ← containerFollows_alongside related]
  cases follows : containerFollows left with
  | false => exact second related
  | true => exact first related follows

/-- The word that names the container is the same token on both sides. -/
theorem token_of_containerFollows {left right : List Token} (related : before.Relates left right)
    (follows : containerFollows left = true) :
    Matches .loose (token left) (token right) := by
  rcases related.cases with ⟨rfl, rfl⟩ | ⟨first, rest, rest', rfl, rfl, named⟩ |
    ⟨-, token, minus, number, rest, rest', rfl, rfl, split, -⟩
  · exact .refused
  · exact take_same some named.loosen
  · rw [containerFollows_of_unsteady split.isSteady_token] at follows
    contradiction

theorem fieldType_alongside : Alongside before .loose fieldType := by
  refine bind_alongside typeWord_alongside fun name => peek_choice_alongside rfl ?_ ?_
  · refine bind_alongside size_alongside fun length =>
      peekContainer_alongside (fun left right related _ => ?_) (pure_alongside _)
    exact bind_alongside (word_alongside _) (fun _ => map_alongside size_alongside _) related
  · refine peekContainer_alongside (fun left right related follows => ?_) (pure_alongside _)
    refine (token_of_containerFollows related follows).bind fun container => ?_
    refine bind_alongside size_alongside fun number => ?_
    exact choice_alongside (pure_alongside _)
      (choice_alongside (pure_alongside _) (refuseToken_alongside _))

theorem acceptWord_alongside (expected : String) :
    Alongside before .loose (acceptWord expected) := by
  intro left right related
  rw [acceptWord, bind_of_ok (next?_apply left), bind_of_ok (next?_apply right)]
  rcases related.cases with ⟨rfl, rfl⟩ | ⟨token, rest, rest', rfl, rfl, behind⟩ |
    ⟨-, token, minus, number, rest, rest', rfl, rfl, split, -⟩
  · exact .read related.loosen
  · rw [List.head?_cons, List.head?_cons]
    split
    · exact (take_same some behind.loosen).bind fun _ => pure_alongside true
    · exact .read related.loosen
  · have other (token : Token) (unsteady : token.kind.isSteady = false) :
        ¬(some token).any (·.isWord expected) = true := by
      rw [Option.any_some, Token.isWord, isWord_of_unsteady unsteady]
      exact Bool.false_ne_true
    rw [List.head?_cons, List.head?_cons, if_neg (other token split.isSteady_token),
      if_neg (other minus split.isSteady_minus)]
    exact .read related.loosen

theorem spelled_alongside {expected : String} {yes no : Rule α}
    (first : Alongside .loose after yes) (second : Alongside .loose after no) :
    Alongside before after
      (acceptWord expected >>= fun found => if found = true then yes else no) :=
  bind_alongside (acceptWord_alongside expected) fun _ => choice_alongside first second

theorem fieldAttribute_alongside : Alongside before .loose fieldAttribute := by
  have paired (second : String) (found : FieldAttribute) :
      Alongside .loose .loose (word second >>= fun _ => pure (some found)) :=
    map_alongside (word_alongside second) fun _ => some found
  refine spelled_alongside (paired _ _) (spelled_alongside (paired _ _) ?_)
  refine spelled_alongside (paired _ _) (spelled_alongside (pure_alongside _) ?_)
  refine spelled_alongside ?_ (pure_alongside none)
  exact map_alongside (bracketed_alongside text_alongside) _

theorem field_alongside : Alongside before .loose field :=
  bind_alongside identifier_alongside fun _ => bind_alongside fieldType_alongside fun _ =>
    map_alongside (many_alongside fieldAttribute_advancing.consuming fieldAttribute_alongside) _

theorem fields_alongside : Alongside before .loose fields := by
  refine bind_alongside (operator_alongside .openParen rfl) fun _ =>
    many_alongside nextField_advancing.consuming ?_
  refine bind_alongside comma_alongside fun _ => found_alongside rfl (pure_alongside none) ?_
  exact map_alongside field_alongside some

/-! Statements about the structure of a store. -/

theorem drop_alongside : Alongside before .loose drop := by
  refine found_alongside rfl (map_alongside identifier_alongside _) ?_
  refine found_alongside rfl (map_alongside identifier_alongside _) ?_
  refine found_alongside rfl (map_alongside (named_alongside _ _) _) ?_
  refine found_alongside rfl (map_alongside (named_alongside _ _) _) ?_
  exact found_alongside rfl (map_alongside (named_alongside _ _) _) refuse_alongside

theorem showAll_alongside : Alongside before .loose showAll := by
  have behind (word : Keyword) (build : String → Command) : Alongside .fresh .loose
      (keyword word >>= fun _ => identifier >>= fun name => pure (build name)) :=
    bind_alongside (keyword_alongside word) fun _ => map_alongside identifier_alongside build
  refine found_alongside rfl (pure_alongside _) (found_alongside rfl (pure_alongside _) ?_)
  refine found_alongside rfl (behind _ _) (found_alongside rfl (behind _ _) ?_)
  exact found_alongside rfl (behind _ _) refuse_alongside

theorem release_alongside : Alongside before .loose release := by
  refine found_alongside rfl (map_alongside identifier_alongside _) ?_
  refine found_alongside rfl ?_ refuse_alongside
  exact bind_alongside partitions_alongside fun _ => bind_alongside (keyword_alongside _) fun _ =>
    map_alongside identifier_alongside _

theorem rename_alongside : Alongside before .loose rename := by
  refine bind_alongside (keyword_alongside _) fun _ => ?_
  refine bind_alongside identifier_alongside fun old => ?_
  refine bind_alongside (keyword_alongside _) fun _ => ?_
  refine bind_alongside identifier_alongside fun new => ?_
  exact bind_alongside (keyword_alongside _) fun _ => map_alongside identifier_alongside _

theorem compact_alongside : Alongside before .loose compact :=
  bind_alongside (keyword_alongside _) fun _ => map_alongside identifier_alongside _

theorem createCollection_alongside : Alongside before .loose (createCollection levels) :=
  bind_alongside identifier_alongside fun _ => bind_alongside fields_alongside fun _ =>
    map_alongside options_alongside _

theorem createPartition_alongside : Alongside before .loose (createPartition levels) :=
  bind_alongside identifier_alongside fun _ => bind_alongside (keyword_alongside _) fun _ =>
    bind_alongside identifier_alongside fun _ => map_alongside options_alongside _

theorem createIndex_alongside : Alongside before .loose (createIndex levels) := by
  refine bind_alongside identifier_alongside fun index => ?_
  refine bind_alongside (keyword_alongside _) fun _ => ?_
  refine bind_alongside identifier_alongside fun collection => ?_
  refine bind_alongside (bracketed_alongside identifier_alongside) fun field => ?_
  exact map_alongside given_alongside _

theorem create_alongside : Alongside before .loose (create levels) := by
  refine found_alongside rfl (map_alongside identifier_alongside _) ?_
  refine found_alongside rfl (map_alongside createCollection_alongside _) ?_
  refine found_alongside rfl (map_alongside (named_alongside _ _) _) ?_
  refine found_alongside rfl (map_alongside createPartition_alongside _) ?_
  exact found_alongside rfl (map_alongside createIndex_alongside _) refuse_alongside

theorem load_alongside : Alongside before .loose (load levels) := by
  refine found_alongside rfl ?_ (found_alongside rfl ?_ refuse_alongside)
  · exact bind_alongside identifier_alongside fun _ => map_alongside options_alongside _
  · refine bind_alongside partitions_alongside fun _ => ?_
    refine bind_alongside (keyword_alongside _) fun _ => ?_
    exact bind_alongside identifier_alongside fun _ => map_alongside options_alongside _

/-! Statements that write rows. -/

theorem bulkInsert_alongside : Alongside before .loose bulkInsert := by
  have files {before : Stage} : Alongside before .loose file := by
    refine found_alongside rfl (map_alongside text_alongside some) ?_
    exact peek_choice_alongside rfl (map_alongside text_alongside some) (pure_alongside none)
  have bulk : Alongside .fresh .loose bulkTarget := by
    refine found_alongside rfl (named_alongside _ _) ?_
    exact bind_alongside (keyword_alongside _) fun _ => map_alongside identifier_alongside _
  refine bind_alongside (keyword_alongside _) fun _ => bind_alongside bulk fun _ => ?_
  exact bind_alongside (keyword_alongside _) fun _ =>
    map_alongside (many_alongside file_advancing.consuming files) _

theorem row_alongside (names : List String) : Alongside before .loose (row levels names) := by
  refine map_alongside (bracketed_alongside ?_) _
  exact separated_alongside (value_sound _).shrinking (value_alongside levels)

theorem write_alongside : Alongside before .loose (write levels) := by
  have columns : Alongside .fresh .loose (separated identifier) := partitions_alongside
  have rows (names : List String) : Alongside .fresh .loose (separated (row levels names)) :=
    separated_alongside (row_shrinking (value_sound levels).shrinking names) (row_alongside names)
  refine bind_alongside (keyword_alongside _) fun _ => bind_alongside target_alongside fun _ => ?_
  refine bind_alongside (bracketed_alongside columns) fun names => ?_
  exact bind_alongside (keyword_alongside _) fun _ => map_alongside (rows names) _

/-! Statements that select rows. -/

theorem delete_alongside : Alongside before .loose (delete levels) :=
  bind_alongside (keyword_alongside _) fun _ => bind_alongside target_alongside fun _ =>
    map_alongside clauses_alongside _

theorem column_alongside : Alongside before .loose column := by
  refine found_alongside rfl (pure_alongside _) (found_alongside rfl ?_ identifier_alongside)
  have star : Alongside .fresh .loose (operator .star) :=
    (operator_alongside .star rfl).loosen
  exact map_alongside (bracketed_alongside star) _

theorem selectedPartitions_alongside : Alongside before .loose selectedPartitions := by
  refine found_alongside rfl ?_ (pure_alongside [])
  exact bind_alongside partitions_alongside fun names =>
    map_alongside (keyword_alongside _) fun _ => names

theorem vectors_alongside : Alongside .fresh .loose (vectors levels) := by
  intro left right related
  rcases related.fresh_cases with ⟨rfl, rfl⟩ | ⟨opening, rest, rest', rfl, rfl, -⟩
  · exact .refused
  · have seen (rest : List Token) :
        current (opening :: rest) = .ok (opening, opening :: rest) := rfl
    rw [vectors, bind_of_ok (seen rest), bind_of_ok (seen rest')]
    refine bind_alongside list_alongside (fun items => ?_) related
    cases Value.vectors? items with
    | some vectors => exact pure_alongside vectors
    | none => exact refuseToken_alongside opening

/-- A number of rows, behind its word. -/
theorem count_alongside (word : Keyword) : Alongside before .loose (announced word integer) :=
  announced_alongside word (take_fresh _)

theorem query_alongside (columns partitions : List String) (collection : String) :
    Alongside before .loose (query levels columns partitions collection) :=
  bind_alongside (count_alongside _) fun _ => bind_alongside (count_alongside _) fun _ =>
    map_alongside clauses_alongside _

theorem search_alongside (columns partitions : List String) (collection : String) :
    Alongside before .loose (search levels columns partitions collection) := by
  refine bind_alongside (keyword_alongside _) fun _ => ?_
  refine bind_alongside (keyword_alongside _) fun _ => ?_
  refine bind_alongside identifier_alongside fun target => ?_
  refine bind_alongside (operator_alongside .less rfl) fun _ => ?_
  -- The minus of the arrow stands behind no operand.
  refine bind_alongside (expect_fresh (.operator .minus)) fun _ => ?_
  refine bind_alongside (operator_alongside .greater rfl) fun _ => ?_
  refine bind_alongside vectors_alongside fun vectors => ?_
  refine bind_alongside (count_alongside _) fun limit => ?_
  refine bind_alongside compiledFilter_alongside fun compiled => ?_
  exact bind_alongside (keyword_alongside _) fun _ => map_alongside mapping_alongside _

theorem select_alongside : Alongside .fresh .loose (select levels) := by
  refine bind_alongside (separated_alongside column_shrinking column_alongside) fun columns => ?_
  refine bind_alongside (keyword_alongside _) fun _ => ?_
  refine bind_alongside selectedPartitions_alongside fun partitions => ?_
  refine bind_alongside identifier_alongside fun collection => peek_choice_alongside rfl ?_ ?_
  · exact map_alongside (search_alongside columns partitions collection) _
  · exact map_alongside (query_alongside columns partitions collection) _

/-! Whole statements. -/

theorem command_alongside : Alongside before .loose (command levels) := by
  refine found_alongside rfl create_alongside (found_alongside rfl drop_alongside ?_)
  refine found_alongside rfl showAll_alongside (found_alongside rfl load_alongside ?_)
  refine found_alongside rfl release_alongside ?_
  refine found_alongside rfl (map_alongside identifier_alongside _) ?_
  refine found_alongside rfl rename_alongside (found_alongside rfl compact_alongside ?_)
  refine found_alongside rfl (map_alongside bulkInsert_alongside _) ?_
  refine found_alongside rfl (map_alongside write_alongside _) ?_
  refine found_alongside rfl (map_alongside write_alongside _) ?_
  refine found_alongside rfl (map_alongside delete_alongside _) ?_
  exact found_alongside rfl select_alongside refuse_alongside

theorem finished_alongside : Alongside before .loose finished := by
  intro left right related
  rcases related.cases with ⟨rfl, rfl⟩ | ⟨_, _, _, rfl, rfl, _⟩ | ⟨_, _, _, _, _, _, rfl, rfl, _⟩
  · exact .read related.loosen
  all_goals exact .refused

theorem statement_alongside : Alongside before .loose (statement levels) := by
  refine bind_alongside command_alongside fun command => ?_
  refine bind_alongside (expect_alongside rfl) fun _ => ?_
  exact map_alongside finished_alongside fun _ => command

end VectorQuery.Grammar

namespace VectorQuery

open Grammar

namespace Limits

/-- Behind the end of an operand, a number with its sign reads as the sign and the rest of it
apart: tokens that differ in that are the same command, or both are none. -/
theorem readTokens_separated {tokens tokens' : List Token}
    (related : Separated false tokens tokens') (limits : Limits) (command : Command) :
    limits.readTokens tokens = .ok command ↔ limits.readTokens tokens' = .ok command := by
  have start : Stage.fresh.Relates tokens tokens' := related
  have run := @statement_alongside .fresh limits.maxDepth _ _ start
  unfold readTokens
  generalize statement limits.maxDepth tokens = outcome at run
  generalize statement limits.maxDepth tokens' = outcome' at run
  cases run with
  | read _ => exact Iff.rfl
  | refused => exact ⟨nofun, nofun⟩

/-- Behind a subscript and behind a number the signs are operations, and behind a comparison the
sign belongs to its number. -/
theorem readTokens_separated_of_differences :
    let opening : List Token :=
      [⟨.keyword .delete, "DELETE", 1, 1⟩, ⟨.keyword .from, "FROM", 1, 8⟩,
        ⟨.identifier, "c", 1, 13⟩, ⟨.keyword .where, "WHERE", 1, 15⟩, ⟨.identifier, "a", 1, 21⟩,
        ⟨.operator .openBracket, "[", 1, 22⟩, ⟨.literal .integer, "0", 1, 23⟩,
        ⟨.operator .closeBracket, "]", 1, 24⟩]
    let ending : List Token :=
      [⟨.operator .greater, ">", 1, 30⟩, ⟨.literal .integer, "-3", 1, 32⟩,
        ⟨.separator .semicolon, ";", 1, 34⟩]
    let tokens := opening ++
      [⟨.literal .integer, "-1", 1, 25⟩, ⟨.literal .integer, "-2", 1, 27⟩] ++ ending
    let tokens' := opening ++
      [⟨.operator .minus, "-", 1, 25⟩, ⟨.literal .integer, "1", 1, 25⟩,
        ⟨.operator .minus, "-", 1, 27⟩, ⟨.literal .integer, "2", 1, 27⟩] ++ ending
    let command : Command := .delete ⟨"c", none, some "(a[0] - 1 - 2 > -3)", .empty⟩
    Token.sequence "DELETE FROM c WHERE a[0]-1-2 > -3;" = .ok tokens ∧
      Separated false tokens tokens' ∧ ({} : Limits).readTokens tokens = .ok command ∧
      ({} : Limits).readTokens tokens' = .ok command := by
  intro opening ending tokens tokens' command
  have related : Separated false tokens tokens' := by
    repeat first
      | exact .nil
      | refine .kept (by decide) ?_
      | refine .split ⟨by decide, rfl, rfl, by decide⟩ ?_
  have read : ({} : Limits).readTokens tokens = .ok command := by rfl
  exact ⟨by rfl, related, read, (readTokens_separated related {} command).mp read⟩

end Limits

end VectorQuery
