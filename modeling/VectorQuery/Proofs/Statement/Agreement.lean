import VectorQuery.Proofs.Grammar.Agreement

/-! Every statement keeps to every coupling: its clauses, its fields and its rows, which look
up to three tokens ahead, and its verb. -/
namespace VectorQuery.Grammar

variable {coupling : Coupling} {α : Type} {levels levels' : Nat}

/-! Clauses. -/

theorem target_agree : Agree coupling target target := by
  refine found_agree (by decide) ?_ (map_agree identifier_agree _)
  exact bind_agree identifier_agree fun _ => bind_agree (keyword_agree _) fun _ =>
    map_agree identifier_agree _

theorem partitions_agree : Agree coupling partitions partitions :=
  separated_agree identifier_strict.shrinking identifier_strict.shrinking identifier_agree

section
variable (related : coupling.levels levels levels')
include related

theorem given_agree :
    Agree coupling (announced .with (mapping levels)) (announced .with (mapping levels')) :=
  announced_agree _ (mapping_agree related)

theorem options_agree : Agree coupling (options levels) (options levels') :=
  map_agree (given_agree related) _

theorem compiledFilter_agree : Agree coupling (compiledFilter levels) (compiledFilter levels') :=
  map_agree (announced_agree _ (conditions_agree related)) _

theorem clauses_agree : Agree coupling (clauses levels) (clauses levels') := by
  refine bind_agree (compiledFilter_agree related) fun compiled => ?_
  refine bind_agree (given_agree related) fun given => ?_
  cases given with
  | none =>
    cases compiled with
    | none => exact refuse_agree
    | some filter => exact pure_agree _
  | some options => exact pure_agree _

end

/-! Fields. -/

theorem not_semicolon_of_isWord {token : Token} (word : token.kind.isWord = true) :
    token.kind ≠ .separator .semicolon := by
  intro semicolon
  rw [semicolon] at word
  contradiction

theorem typeWord_agree : Agree coupling typeWord typeWord := by
  refine take_agree ⟨fun token token' alike => ?_, fun token semicolon => ?_⟩
  · rw [← alike.kind]
    split
    next word => rw [alike.text (not_tellsAll_of_isWord word)]
    next => rfl
  · rw [semicolon]
    rfl

theorem word_agree (expected : String) : Agree coupling (word expected) (word expected) := by
  refine take_agree ⟨fun token token' alike => ?_, fun token semicolon => ?_⟩
  · rw [isWord_alike alike]
  · rw [Token.isWord, semicolon]
    rfl

theorem size_agree : Agree coupling size size :=
  bracketed_agree integer_agree

theorem containerFollows_cons (first : Token) (tokens : List Token) :
    containerFollows (first :: tokens) =
      (first.kind.isWord && match tokens with
        | second :: third :: _ =>
          second.kind == .operator .openParen && third.kind == .literal .integer
        | _ => false) := by
  cases tokens with
  | nil => simp [containerFollows]
  | cons second tokens =>
    cases tokens with
    | nil => simp [containerFollows]
    | cons third tokens => simp [containerFollows, Bool.and_assoc]

/-- The second token is looked at behind a word, and the third behind a bracket. -/
theorem containerFollows_agree {left right : List Token} (related : coupling.tokens left right) :
    containerFollows left = containerFollows right := by
  obtain ⟨rfl, rfl⟩ | ⟨first, first', left, right, rfl, rfl, heads, behind⟩ :=
    coupling.split related
  · rfl
  rw [containerFollows_cons, containerFollows_cons, ← (coupling.alike heads).kind]
  cases word : first.kind.isWord with
  | false => rfl
  | true =>
    obtain ⟨rfl, rfl⟩ | ⟨second, second', left, right, rfl, rfl, heads, behind⟩ :=
      coupling.split (behind (not_semicolon_of_isWord word))
    · rfl
    cases opens : second.kind == .operator .openParen with
    | false =>
      have closed : (second'.kind == .operator .openParen) = false := by
        rw [← (coupling.alike heads).kind, opens]
      cases left <;> cases right <;> simp [opens, closed]
    | true =>
      rw [beq_iff_eq] at opens
      have opens' := (coupling.alike heads).kind.symm.trans opens
      obtain ⟨rfl, rfl⟩ | ⟨third, third', left, right, rfl, rfl, heads, -⟩ :=
        coupling.split (behind (by simp [opens]))
      · rfl
      · simp [opens, opens', (coupling.alike heads).kind]

theorem isWord_of_containerFollows {tokens : List Token} (follows : containerFollows tokens = true) :
    (tokens.head?.map Token.kind).any TokenKind.isWord = true := by
  cases tokens with
  | nil => contradiction
  | cons first tokens =>
    rw [containerFollows_cons, Bool.and_eq_true] at follows
    simpa using follows.1

theorem peekContainer_agree {yes yes' no no' : Rule α}
    (first : ∀ kind : Option TokenKind, kind.any TokenKind.isWord = true →
      Coupled coupling (coupling.headed kind) yes yes')
    (second : Agree coupling no no') :
    Agree coupling (peekContainer >>= fun found => if found = true then yes else no)
      (peekContainer >>= fun found => if found = true then yes' else no') := by
  intro tokens tokens' related
  have seen (tokens : List Token) :
      peekContainer tokens = .ok (containerFollows tokens, tokens) := rfl
  rw [bind_of_ok (seen tokens), bind_of_ok (seen tokens'), ← containerFollows_agree related]
  cases follows : containerFollows tokens with
  | false => exact second related
  | true => exact first _ (isWord_of_containerFollows follows) ⟨related, rfl⟩

theorem fieldType_agree : Agree coupling fieldType fieldType := by
  refine bind_agree typeWord_agree fun name => peek_choice_agree ?_ ?_
  · refine bind_agree size_agree fun length => peekContainer_agree (fun kind _ => ?_) (pure_agree _)
    exact (bind_agree (word_agree _) fun _ => map_agree size_agree _).headed kind
  · refine peekContainer_agree (fun kind isWord => ?_) (pure_agree _)
    refine token_coupled (by rintro rfl; contradiction) fun container container' heads => ?_
    refine bind_agree size_agree fun number => ?_
    simp only [← isWord_alike (coupling.alike heads)]
    exact choice_coupled (pure_agree _)
      (choice_coupled (pure_agree _) (refuseToken_agree heads))

theorem acceptWord_agree (expected : String) :
    Agree coupling (acceptWord expected) (acceptWord expected) := by
  refine next?_agree (pure_agree false) fun token token' heads => ?_
  simp only [Option.any_some, ← isWord_alike (coupling.alike heads)]
  split
  next present =>
    refine token_coupled ?_ fun _ _ _ => pure_agree true
    have word := (Bool.and_eq_true_iff.mp present).1
    exact fun semicolon => not_semicolon_of_isWord word (Option.some.inj semicolon)
  next => exact (pure_agree false).headed _

theorem spelled_agree {expected : String} {yes yes' no no' : Rule α}
    (first : Agree coupling yes yes') (second : Agree coupling no no') :
    Agree coupling (acceptWord expected >>= fun found => if found = true then yes else no)
      (acceptWord expected >>= fun found => if found = true then yes' else no') :=
  bind_agree (acceptWord_agree expected) fun _ => choice_coupled first second

theorem fieldAttribute_agree : Agree coupling fieldAttribute fieldAttribute := by
  have paired (second : String) (found : FieldAttribute) : Agree coupling
      (word second >>= fun _ => pure (some found)) (word second >>= fun _ => pure (some found)) :=
    map_agree (word_agree second) _
  refine spelled_agree (paired _ _) (spelled_agree (paired _ _) (spelled_agree (paired _ _) ?_))
  refine spelled_agree (pure_agree _) (spelled_agree ?_ (pure_agree none))
  exact map_agree (bracketed_agree text_agree) _

theorem field_agree : Agree coupling field field := by
  have consuming := fieldAttribute_advancing.consuming
  refine bind_agree identifier_agree fun name => bind_agree fieldType_agree fun type => ?_
  exact map_agree (many_agree consuming consuming fieldAttribute_agree) _

theorem fields_agree : Agree coupling fields fields := by
  have consuming := nextField_advancing.consuming
  refine bind_agree (operator_agree _) fun _ => many_agree consuming consuming ?_
  refine bind_agree comma_agree fun _ => found_agree (by decide) (pure_agree none) ?_
  exact map_agree field_agree some

/-! Statements about the structure of a store. -/

/-- Two names with a word between them. -/
theorem named_agree (word : Keyword) (build : String → String → α) :
    Agree coupling
      (identifier >>= fun name => keyword word >>= fun _ =>
        identifier >>= fun other => pure (build name other))
      (identifier >>= fun name => keyword word >>= fun _ =>
        identifier >>= fun other => pure (build name other)) :=
  bind_agree identifier_agree fun name => bind_agree (keyword_agree word) fun _ =>
    map_agree identifier_agree (build name)

theorem drop_agree : Agree coupling drop drop := by
  refine found_agree (by decide) (map_agree identifier_agree _) ?_
  refine found_agree (by decide) (map_agree identifier_agree _) ?_
  refine found_agree (by decide) (map_agree (named_agree _ _) _) ?_
  refine found_agree (by decide) (map_agree (named_agree _ _) _) ?_
  exact found_agree (by decide) (map_agree (named_agree _ _) _) refuse_agree

theorem showAll_agree : Agree coupling showAll showAll := by
  have behind (word : Keyword) (build : String → Command) : Agree coupling
      (keyword word >>= fun _ => identifier >>= fun name => pure (build name))
      (keyword word >>= fun _ => identifier >>= fun name => pure (build name)) :=
    bind_agree (keyword_agree word) fun _ => map_agree identifier_agree build
  refine found_agree (by decide) (pure_agree _) (found_agree (by decide) (pure_agree _) ?_)
  refine found_agree (by decide) (behind _ _) (found_agree (by decide) (behind _ _) ?_)
  exact found_agree (by decide) (behind _ _) refuse_agree

theorem release_agree : Agree coupling release release := by
  refine found_agree (by decide) (map_agree identifier_agree _) ?_
  refine found_agree (by decide) ?_ refuse_agree
  exact bind_agree partitions_agree fun _ => bind_agree (keyword_agree _) fun _ =>
    map_agree identifier_agree _

theorem rename_agree : Agree coupling rename rename := by
  refine bind_agree (keyword_agree _) fun _ => bind_agree identifier_agree fun old => ?_
  refine bind_agree (keyword_agree _) fun _ => bind_agree identifier_agree fun new => ?_
  exact bind_agree (keyword_agree _) fun _ => map_agree identifier_agree _

theorem compact_agree : Agree coupling compact compact :=
  bind_agree (keyword_agree _) fun _ => map_agree identifier_agree _

section
variable (related : coupling.levels levels levels')
include related

theorem createCollection_agree :
    Agree coupling (createCollection levels) (createCollection levels') :=
  bind_agree identifier_agree fun _ => bind_agree fields_agree fun _ =>
    map_agree (options_agree related) _

theorem createPartition_agree :
    Agree coupling (createPartition levels) (createPartition levels') :=
  bind_agree identifier_agree fun _ => bind_agree (keyword_agree _) fun _ =>
    bind_agree identifier_agree fun _ => map_agree (options_agree related) _

theorem createIndex_agree : Agree coupling (createIndex levels) (createIndex levels') := by
  refine bind_agree identifier_agree fun index => bind_agree (keyword_agree _) fun _ => ?_
  refine bind_agree identifier_agree fun collection => ?_
  refine bind_agree (bracketed_agree identifier_agree) fun field => ?_
  exact map_agree (given_agree related) _

theorem create_agree : Agree coupling (create levels) (create levels') := by
  refine found_agree (by decide) (map_agree identifier_agree _) ?_
  refine found_agree (by decide) (map_agree (createCollection_agree related) _) ?_
  refine found_agree (by decide) (map_agree (named_agree _ _) _) ?_
  refine found_agree (by decide) (map_agree (createPartition_agree related) _) ?_
  exact found_agree (by decide) (map_agree (createIndex_agree related) _) refuse_agree

theorem load_agree : Agree coupling (load levels) (load levels') := by
  refine found_agree (by decide) ?_ (found_agree (by decide) ?_ refuse_agree)
  · exact bind_agree identifier_agree fun _ => map_agree (options_agree related) _
  · refine bind_agree partitions_agree fun _ => bind_agree (keyword_agree _) fun _ => ?_
    exact bind_agree identifier_agree fun _ => map_agree (options_agree related) _

end

/-! What a selection names. -/

theorem column_agree : Agree coupling column column := by
  refine found_agree (by decide) (pure_agree _) (found_agree (by decide) ?_ identifier_agree)
  exact bind_agree (bracketed_agree (operator_agree _)) fun _ => pure_agree _

theorem columns_agree : Agree coupling (separated column) (separated column) :=
  separated_agree column_shrinking column_shrinking column_agree

theorem selectedPartitions_agree : Agree coupling selectedPartitions selectedPartitions := by
  refine found_agree (by decide) ?_ (pure_agree [])
  exact bind_agree partitions_agree fun _ => bind_agree (keyword_agree _) fun _ => pure_agree _

/-! Statements that write rows. -/

theorem bulkInsert_agree : Agree coupling bulkInsert bulkInsert := by
  have consuming := file_advancing.consuming
  have files : Agree coupling file file := by
    refine found_agree (by decide) (map_agree text_agree some) ?_
    exact peek_choice_agree (map_agree text_agree some) (pure_agree none)
  have bulk : Agree coupling bulkTarget bulkTarget := by
    refine found_agree (by decide) (named_agree _ _) ?_
    exact bind_agree (keyword_agree _) fun _ => map_agree identifier_agree _
  refine bind_agree (keyword_agree _) fun _ => bind_agree bulk fun _ => ?_
  exact bind_agree (keyword_agree _) fun _ => map_agree (many_agree consuming consuming files) _

section
variable (related : coupling.levels levels levels')
include related

theorem row_agree (names : List String) :
    Agree coupling (row levels names) (row levels' names) := by
  refine map_agree (bracketed_agree ?_) _
  exact separated_agree (value_sound _).shrinking (value_sound _).shrinking (value_agree related)

theorem write_agree : Agree coupling (write levels) (write levels') := by
  have shrinking (levels : Nat) (names : List String) : Shrinking (row levels names) :=
    row_shrinking (value_sound levels).shrinking names
  have columns : Agree coupling (separated identifier) (separated identifier) :=
    separated_agree identifier_strict.shrinking identifier_strict.shrinking identifier_agree
  refine bind_agree (keyword_agree _) fun _ => bind_agree target_agree fun _ => ?_
  refine bind_agree (bracketed_agree columns) fun names => bind_agree (keyword_agree _) fun _ => ?_
  exact map_agree (separated_agree (shrinking _ _) (shrinking _ _) (row_agree related names)) _

/-! Statements that select rows. -/

theorem delete_agree : Agree coupling (delete levels) (delete levels') :=
  bind_agree (keyword_agree _) fun _ => bind_agree target_agree fun _ =>
    map_agree (clauses_agree related) _

theorem vectors_agree : Agree coupling (vectors levels) (vectors levels') := by
  refine current_agree fun opening opening' heads => bind_agree (list_agree related) fun items => ?_
  cases Value.vectors? items with
  | some vectors => exact pure_agree vectors
  | none => exact refuseToken_agree heads

theorem query_agree (columns partitions : List String) (collection : String) :
    Agree coupling (query levels columns partitions collection)
      (query levels' columns partitions collection) :=
  bind_agree (announced_agree _ integer_agree) fun _ =>
    bind_agree (announced_agree _ integer_agree) fun _ => map_agree (clauses_agree related) _

theorem search_agree (columns partitions : List String) (collection : String) :
    Agree coupling (search levels columns partitions collection)
      (search levels' columns partitions collection) := by
  refine bind_agree (keyword_agree _) fun _ => bind_agree (keyword_agree _) fun _ => ?_
  refine bind_agree identifier_agree fun target => bind_agree (operator_agree _) fun _ => ?_
  refine bind_agree (operator_agree _) fun _ => bind_agree (operator_agree _) fun _ => ?_
  refine bind_agree (vectors_agree related) fun vectors => ?_
  refine bind_agree (announced_agree _ integer_agree) fun limit => ?_
  refine bind_agree (compiledFilter_agree related) fun compiled => ?_
  exact bind_agree (keyword_agree _) fun _ => map_agree (mapping_agree related) _

theorem select_agree : Agree coupling (select levels) (select levels') := by
  refine bind_agree columns_agree fun columns => bind_agree (keyword_agree _) fun _ => ?_
  refine bind_agree selectedPartitions_agree fun partitions => ?_
  refine bind_agree identifier_agree fun collection => peek_choice_agree ?_ ?_
  · exact map_agree (search_agree related columns partitions collection) _
  · exact map_agree (query_agree related columns partitions collection) _

/-- Two runs of a statement, up to its semicolon, end as the coupling says. -/
theorem command_agree : Agree coupling (command levels) (command levels') := by
  refine found_agree (by decide) (create_agree related) (found_agree (by decide) drop_agree ?_)
  refine found_agree (by decide) showAll_agree (found_agree (by decide) (load_agree related) ?_)
  refine found_agree (by decide) release_agree ?_
  refine found_agree (by decide) (map_agree identifier_agree _) ?_
  refine found_agree (by decide) rename_agree (found_agree (by decide) compact_agree ?_)
  refine found_agree (by decide) (map_agree bulkInsert_agree _) ?_
  refine found_agree (by decide) (map_agree (write_agree related) _) ?_
  refine found_agree (by decide) (map_agree (write_agree related) _) ?_
  refine found_agree (by decide) (map_agree (delete_agree related) _) ?_
  exact found_agree (by decide) (select_agree related) refuse_agree

end

/-! Whole statements, where the two sides go on behind a semicolon as they do elsewhere. -/

/-- What is behind two first tokens is coupled, whichever tokens they are. -/
def Coupling.Passes (coupling : Coupling) : Prop :=
  ∀ ⦃token token' : Token⦄ ⦃rest rest' : List Token⦄,
    coupling.tokens (token :: rest) (token' :: rest') → coupling.tokens rest rest'

theorem semicolon_agree (passes : coupling.Passes) :
    Agree coupling (expect (.separator .semicolon)) (expect (.separator .semicolon)) := by
  intro tokens tokens' related
  obtain ⟨rfl, rfl⟩ | ⟨token, token', rest, rest', rfl, rfl, heads, -⟩ := coupling.split related
  · exact .fault (coupling.endOfInput related)
  · simp only [expect, take, ← (coupling.alike heads).kind]
    by_cases ends : token.kind = .separator .semicolon
    · rw [if_pos ends]
      exact .read (passes related)
    · rw [if_neg ends]
      exact .fault (coupling.unexpected heads)

theorem finished_agree : Agree coupling finished finished := by
  intro tokens tokens' related
  obtain ⟨rfl, rfl⟩ | ⟨token, token', rest, rest', rfl, rfl, heads, -⟩ := coupling.split related
  · exact .read related
  · exact .fault (coupling.unexpected heads)

theorem statement_agree (passes : coupling.Passes) (related : coupling.levels levels levels') :
    Agree coupling (statement levels) (statement levels') :=
  bind_agree (command_agree related) fun _ => bind_agree (semicolon_agree passes) fun _ =>
    bind_agree finished_agree fun _ => pure_agree _

end VectorQuery.Grammar
