import VectorQuery.Proofs.Grammar.Draw
import VectorQuery.Proofs.Grammar.Range
import VectorQuery.Proofs.Statement.Refusal
import VectorQuery.Proofs.Token.Lexicon

/-! Statements in range. What a statement draws from float tokens in range is finite: its
rows, its vectors, its options and the conditions that its filter is compiled from. -/
namespace VectorQuery

/-- The filter of a command that selects rows. -/
def Command.filter? : Command → Option String
  | .delete command => command.filter
  | .query command => command.filter
  | .search command => command.filter
  | _ => none

namespace Grammar

variable {whole : List Token} {levels : Nat}

/-! What words announce. -/

theorem Announced.phrase {α : Type} {word : Keyword} {rule : Rule α} {value : α}
    {phrase : List Token → α → Prop} (announced : Announced whole word rule value)
    (sound : Sound rule phrase) (ranged : Ranged whole) :
    ∃ taken, phrase taken value ∧ Ranged taken := by
  obtain ⟨token, behind, rest, within, -, read⟩ := announced
  obtain ⟨taken, rfl, spelled⟩ := sound read
  refine ⟨taken, spelled, fun other inside => ranged other (within.subset ?_)⟩
  exact List.mem_cons_of_mem token (List.mem_append_left rest inside)

/-- The options of a statement: those behind `WITH`, or none. -/
def Given (whole : List Token) (levels : Nat) (options : Mapping) : Prop :=
  options = .empty ∨ Announced whole .with (mapping levels) options

/-- A filter that was compiled from a condition behind `WHERE`. -/
def Compiled (whole : List Token) (levels : Nat) (filter : String) : Prop :=
  ∃ condition, Announced whole .where (conditions levels) condition ∧ filter = condition.predicate

/-- Where a filter comes from: a condition, or the options. -/
def Sourced (whole : List Token) (levels : Nat) (filter : String) : Prop :=
  Compiled whole levels filter ∨
    ∃ options, Announced whole .with (mapping levels) options ∧ options.filter? = some filter

theorem Announced.isFinite_options {options : Mapping}
    (announced : Announced whole .with (mapping levels) options) (ranged : Ranged whole) :
    options.toValue.isFinite = true := by
  obtain ⟨taken, phrase, inRange⟩ := announced.phrase (mapping_sound levels) ranged
  exact phrase.isFinite inRange

theorem Announced.isFinite_condition {condition : Condition}
    (announced : Announced whole .where (conditions levels) condition) (ranged : Ranged whole) :
    condition.isFinite = true := by
  obtain ⟨taken, phrase, inRange⟩ := announced.phrase (conditions_sound levels) ranged
  exact phrase.isFinite inRange

theorem Given.isFinite {options : Mapping} (given : Given whole levels options)
    (ranged : Ranged whole) : options.toValue.isFinite = true := by
  rcases given with rfl | announced
  · rfl
  · exact announced.isFinite_options ranged

theorem Given.sourced {options : Mapping} (given : Given whole levels options)
    {compiled : Option String} (sources : ∀ filter ∈ compiled, Compiled whole levels filter) :
    ∀ filter ∈ options.filterOr compiled, Sourced whole levels filter := by
  intro filter inside
  rcases Option.or_eq_some_iff.mp inside with found | ⟨-, found⟩
  · rcases given with rfl | announced
    · contradiction
    · exact .inr ⟨options, announced, found⟩
  · exact .inl (sources filter found)

theorem given_getD {found : Option Mapping}
    (announced : ∀ options ∈ found, Announced whole .with (mapping levels) options) :
    Given whole levels (found.getD .empty) := by
  cases found with
  | none => exact .inl rfl
  | some options => exact .inr (announced options rfl)

/-! Clauses. -/

theorem options_draws : Draws whole (options levels) (Given whole levels) :=
  bind_draws (announced_draws (mapping_sound levels).taking) fun _ announced =>
    pure_draws (given_getD announced)

theorem compiledFilter_draws : Draws whole (compiledFilter levels) fun compiled =>
    ∀ filter ∈ compiled, Compiled whole levels filter := by
  refine bind_draws (announced_draws (conditions_sound levels).taking) fun found announced => ?_
  refine pure_draws fun filter inside => ?_
  obtain ⟨condition, same, rfl⟩ := Option.mem_map.mp inside
  exact ⟨condition, announced condition same, rfl⟩

theorem clauses_draws : Draws whole (clauses levels) fun read =>
    (∀ filter ∈ read.1, Compiled whole levels filter) ∧ Given whole levels read.2 := by
  refine bind_draws compiledFilter_draws fun compiled sources => ?_
  refine bind_draws (announced_draws (mapping_sound levels).taking) fun found announced => ?_
  split
  · exact refuse_draws
  · exact pure_draws ⟨sources, given_getD announced⟩

/-! What takes tokens and holds no float. -/

theorem identifier_taking : Taking identifier :=
  take_taking _

theorem keyword_taking (word : Keyword) : Taking (keyword word) :=
  take_taking _

theorem partitions_taking : Taking partitions :=
  taking_of_agree True fun _ => partitions_agree

theorem target_taking : Taking target :=
  taking_of_agree True fun _ => target_agree

/-! Statements. -/

/-- The command is finite if the tokens are in range, and its filter comes from them. -/
structure Accounted (whole : List Token) (levels : Nat) (command : Command) : Prop where
  finite : Ranged whole → command.isFinite = true
  sourced : ∀ filter ∈ command.filter?, Sourced whole levels filter

theorem accounted_of_unfiltered {command : Command} (unfiltered : command.filter? = none)
    (finite : Ranged whole → command.isFinite = true) : Accounted whole levels command :=
  ⟨finite, by simp [unfiltered]⟩

theorem accounted_of_isBare {command : Command} (bare : command.isBare = true) :
    Accounted whole levels command := by
  refine accounted_of_unfiltered ?_ fun _ => Command.isFinite_of_isBare bare
  cases command with
  | delete | query | search => contradiction
  | _ => rfl

theorem bare_draws {rule : Rule Command} (agree : ∀ whole, Agree (suffixes whole True) rule rule)
    (yields : Yields rule fun read => read.isBare) : Draws whole rule (Accounted whole levels) :=
  (draws_of_yields (taking_of_agree True agree) yields).weaken accounted_of_isBare

theorem createCollection_draws : Draws whole (createCollection levels) fun read =>
    Given whole levels read.options := by
  refine then_draws identifier_taking fun name => ?_
  refine then_draws (taking_of_agree True fun _ => fields_agree) fun fields => ?_
  exact bind_draws options_draws fun _ given => pure_draws given

theorem createPartition_draws : Draws whole (createPartition levels) fun read =>
    Accounted whole levels (.partition read) := by
  refine then_draws identifier_taking fun partition => then_draws (keyword_taking _) fun _ => ?_
  refine then_draws identifier_taking fun collection => bind_draws options_draws fun _ given => ?_
  exact pure_draws (accounted_of_unfiltered rfl fun ranged =>
    Command.isFinite_createPartition partition collection (given.isFinite ranged))

theorem createIndex_draws : Draws whole (createIndex levels) fun read =>
    Accounted whole levels (.index read) := by
  refine then_draws identifier_taking fun index => then_draws (keyword_taking _) fun _ => ?_
  refine then_draws identifier_taking fun collection => ?_
  refine then_draws (taking_of_agree True fun _ => bracketed_agree identifier_agree) fun field => ?_
  refine bind_draws (announced_draws (mapping_sound levels).taking) fun options announced => ?_
  exact pure_draws (accounted_of_unfiltered rfl fun ranged =>
    Command.isFinite_createIndex index collection field fun mapping inside =>
      (announced mapping inside).isFinite_options ranged)

theorem create_draws : Draws whole (create levels) (Accounted whole levels) := by
  refine accept_draws ?_ (accept_draws ?_ (accept_draws ?_ (accept_draws ?_
    (accept_draws ?_ refuse_draws))))
  · exact then_draws identifier_taking fun _ => pure_draws (accounted_of_isBare rfl)
  · refine bind_draws createCollection_draws fun collection given => ?_
    exact pure_draws (accounted_of_unfiltered rfl fun ranged =>
      Command.isFinite_create (given.isFinite ranged))
  · refine bind_draws (draws_of_yields (taking_of_agree True fun _ => named_agree _ _)
      createAlias_yields) fun _ bare => ?_
    exact pure_draws (accounted_of_isBare bare)
  · exact bind_draws createPartition_draws fun _ accounted => pure_draws accounted
  · exact bind_draws createIndex_draws fun _ accounted => pure_draws accounted

theorem load_draws : Draws whole (load levels) (Accounted whole levels) := by
  refine accept_draws ?_ (accept_draws ?_ refuse_draws)
  · refine then_draws identifier_taking fun name => bind_draws options_draws fun _ given => ?_
    exact pure_draws (accounted_of_unfiltered rfl fun ranged =>
      Command.isFinite_load name (given.isFinite ranged))
  · refine then_draws partitions_taking fun names => then_draws (keyword_taking _) fun _ => ?_
    refine then_draws identifier_taking fun collection => bind_draws options_draws fun _ given => ?_
    exact pure_draws (accounted_of_unfiltered rfl fun ranged =>
      Command.isFinite_loadPartitions collection names (given.isFinite ranged))

/-! Rows and vectors. -/

theorem row_draws (names : List String) : Draws whole (row levels names) fun row =>
    Ranged whole → row.toValue.isFinite = true := by
  have value : Draws whole (value levels) fun value => Ranged whole → value.isFinite = true :=
    draws_of_sound (value_sound levels) fun phrase within ranged =>
      phrase.isFinite fun token inside => ranged token (within token inside)
  have values := bracketed_draws (separated_draws (value_sound levels).shrinking value)
  refine bind_draws values fun items finite => pure_draws fun ranged => ?_
  refine Mapping.isFinite_ofList fun entry inside => finite entry.2 ?_ ranged
  exact (List.of_mem_zip inside).2

theorem write_draws : Draws whole (write levels) fun read =>
    Ranged whole → ∀ row ∈ read.rows, row.toValue.isFinite = true := by
  have shrinking (names : List String) : Shrinking (row levels names) :=
    row_shrinking (value_sound levels).shrinking names
  refine then_draws (keyword_taking _) fun _ => then_draws target_taking fun _ => ?_
  refine then_draws (taking_of_agree True fun _ => bracketed_agree partitions_agree) fun names => ?_
  refine then_draws (keyword_taking _) fun _ => ?_
  refine bind_draws (separated_draws (shrinking names) (row_draws names)) fun rows finite => ?_
  exact pure_draws fun ranged row inside => finite row inside ranged

theorem vectors_draws : Draws whole (vectors levels) fun vectors =>
    Ranged whole → ∀ vector ∈ vectors, Value.areFinite vector = true := by
  have list : Draws whole (list levels) fun items => Ranged whole → Value.areFinite items = true :=
    draws_of_sound (list_sound levels) fun phrase within ranged =>
      phrase.areFinite fun token inside => ranged token (within token inside)
  refine then_draws current_taking fun opening => bind_draws list fun items finite => ?_
  cases split : Value.vectors? items with
  | some vectors => exact pure_draws fun ranged => Value.areFinite_of_vectors? split (finite ranged)
  | none =>
    intro tokens value rest _ read
    contradiction

/-! Statements that select rows. -/

theorem delete_draws : Draws whole (delete levels) fun read =>
    Accounted whole levels (.delete read) := by
  refine then_draws (keyword_taking _) fun _ => then_draws target_taking fun _ => ?_
  refine bind_draws clauses_draws fun read found => pure_draws ⟨fun ranged => ?_, ?_⟩
  · exact Command.isFinite_delete (Mapping.isFinite_erase (found.2.isFinite ranged) "expr")
  · exact found.2.sourced found.1

theorem query_draws (columns partitions : List String) (collection : String) :
    Draws whole (query levels columns partitions collection) fun read =>
      Accounted whole levels (.query read) := by
  refine then_draws (bound_taking _) fun limit => then_draws (bound_taking _) fun offset => ?_
  refine bind_draws clauses_draws fun read found => pure_draws ⟨fun ranged => ?_, ?_⟩
  · exact Command.isFinite_query (Mapping.isFinite_erase (found.2.isFinite ranged) "expr")
  · exact found.2.sourced found.1

theorem search_draws (columns partitions : List String) (collection : String) :
    Draws whole (search levels columns partitions collection) fun read =>
      Accounted whole levels (.search read) := by
  have symbol (symbol : Operator) : Taking (operator symbol) := take_taking _
  refine then_draws (keyword_taking _) fun _ => then_draws (keyword_taking _) fun _ => ?_
  refine then_draws identifier_taking fun target => then_draws (symbol _) fun _ => ?_
  refine then_draws (symbol _) fun _ => then_draws (symbol _) fun _ => ?_
  refine bind_draws vectors_draws fun vectors finite => then_draws (bound_taking _) fun limit => ?_
  refine bind_draws compiledFilter_draws fun compiled sources => ?_
  refine keyword_draws (mapping_sound levels).taking fun options announced => ?_
  refine pure_draws ⟨fun ranged => ?_, ?_⟩
  · have rest := Mapping.isFinite_erase (announced.isFinite_options ranged) "expr"
    exact Command.isFinite_search (SearchOptions.finite_ofMapping rest) (finite ranged)
  · exact Given.sourced (.inr announced) sources

theorem select_draws : Draws whole (select levels) (Accounted whole levels) := by
  refine then_draws (taking_of_agree True fun _ => columns_agree) fun columns => ?_
  refine then_draws (keyword_taking _) fun _ => ?_
  refine then_draws (taking_of_agree True fun _ => selectedPartitions_agree) fun partitions => ?_
  refine then_draws identifier_taking fun collection => then_draws peek_taking fun next => ?_
  refine choice_draws ?_ ?_
  · exact map_draws (search_draws columns partitions collection)
  · exact map_draws (query_draws columns partitions collection)

theorem command_draws : Draws whole (command levels) (Accounted whole levels) := by
  have written {write : Write}
      (finite : Ranged whole → ∀ row ∈ write.rows, row.toValue.isFinite = true) :
      Accounted whole levels (.write (.insert write)) ∧
        Accounted whole levels (.write (.upsert write)) :=
    ⟨accounted_of_unfiltered rfl fun ranged => (Command.isFinite_write (finite ranged)).1,
      accounted_of_unfiltered rfl fun ranged => (Command.isFinite_write (finite ranged)).2⟩
  refine accept_draws create_draws (accept_draws (bare_draws (fun _ => drop_agree) drop_yields) ?_)
  refine accept_draws (bare_draws (fun _ => showAll_agree) showAll_yields) ?_
  refine accept_draws load_draws ?_
  refine accept_draws (bare_draws (fun _ => release_agree) release_yields) ?_
  refine accept_draws ?_ ?_
  · exact then_draws identifier_taking fun _ => pure_draws (accounted_of_isBare rfl)
  refine accept_draws (bare_draws (fun _ => rename_agree) rename_yields) ?_
  refine accept_draws (bare_draws (fun _ => compact_agree) compact_yields) ?_
  refine accept_draws ?_ (accept_draws ?_ (accept_draws ?_ (accept_draws ?_
    (accept_draws select_draws refuse_draws))))
  · exact then_draws (taking_of_agree True fun _ => bulkInsert_agree) fun _ =>
      pure_draws (accounted_of_isBare rfl)
  · exact bind_draws write_draws fun _ finite => pure_draws (written finite).1
  · exact bind_draws write_draws fun _ finite => pure_draws (written finite).2
  · exact map_draws delete_draws

end Grammar

/-! The numbers of a text. -/

namespace Token

/-- An integer of 64 bits, with perhaps a minus sign. -/
def HoldsInteger (token : Token) : Prop :=
  ∃ negative digits, IsWhole digits ∧ token.text = String.ofList (Numeral.signed negative digits) ∧
    Int64.minValue.toInt ≤ Numeral.number negative digits ∧
    Numeral.number negative digits ≤ Int64.maxValue.toInt

variable {text : String} {tokens : List Token}

theorem holdsInteger_of_sequence (read : sequence text = .ok tokens) {token : Token}
    (inside : token ∈ tokens) (integer : token.kind = .literal .integer) : token.HoldsInteger := by
  obtain ⟨lexeme, known, kind, text⟩ := sequence_lexicon read token inside
  rw [integer] at kind
  cases known with
  | integer written least most => exact ⟨_, _, written, text, least, most⟩
  | literalWord named =>
    obtain rfl := TokenKind.literal.inj kind
    contradiction
  | _ => cases kind

/-- A float of a text always has a value, whatever its size. -/
theorem exists_float_of_sequence (read : sequence text = .ok tokens) {token : Token}
    (inside : token ∈ tokens) (float : token.kind = .literal .float) :
    ∃ number, token.literal? = some (.float number) := by
  obtain ⟨lexeme, known, kind, text⟩ := sequence_lexicon read token inside
  rw [float] at kind
  cases known with
  | @float negative whole places power before behind last =>
    have decimal := Decimal.read?_isSome before.isFraction behind last
    have some : (Binary64.read? token.text.toList).isSome = true := by
      rw [text, String.toList_ofList]
      cases negative with
      | true => exact Option.isSome_map.trans decimal
      | false =>
        rw [Numeral.signed, if_neg (by decide), Binary64.read?_unsigned before.isFraction,
          Option.isSome_map, decimal]
    obtain ⟨number, found⟩ := Option.isSome_iff_exists.mp some
    exact ⟨number, by simp [literal?, float, found]⟩
  | literalWord named =>
    obtain rfl := TokenKind.literal.inj kind
    contradiction
  | _ => cases kind

end Token

namespace Limits

variable {limits : Limits} {text : String}

/-- A refusal as out of range is for an integer that the text holds. -/
theorem exists_integer_of_refusal {diagnostic : Diagnostic}
    (refused : limits.read text = .error diagnostic) (code : diagnostic.code = "LEX_002") :
    ∃ before negative digits behind, IsWhole digits ∧
      text.toList = before ++ (Numeral.signed negative digits ++ behind) ∧
      readInteger? (Numeral.signed negative digits) = none := by
  obtain ⟨error, rfl, ⟨length, limit, rfl⟩ | split | ⟨tokens, fault, -, -, rfl⟩⟩ :=
    Grammar.read_error_cases refused
  · exact absurd code (by simp [StatementError.diagnostic, Diagnostic.withStatement])
  · have places := Token.sequence_places text
    rw [split] at places
    obtain ⟨before, rest, whole, -, blames⟩ := places
    cases error with
    | integerOutOfRange fragment =>
      obtain ⟨negative, digits, written, ⟨behind, rfl⟩, unreadable, -⟩ := blames
      exact ⟨before, negative, digits, behind, written, whole, unreadable⟩
    | illegalCharacter character fragment =>
      exact absurd code (by simp [StatementError.diagnostic, Diagnostic.withStatement])
    | _ => exact blames.elim
  · rcases fault.code limits.maxDepth with other | other
    · exact absurd (other.symm.trans code) (by decide)
    · exact absurd (other.symm.trans code) (by decide)

/-- What becomes of the numbers of a text. Every integer of a command fits into 64 bits, and an
integer that does not is what a refusal as out of range is for. A float is never refused: it
is finite exactly if it is in range. If all of them are, then so are all that the command
holds, and those of the condition or of the options that its filter comes from. -/
theorem read_range (limits : Limits) (text : String) :
    match limits.read text with
    | .ok command => ∃ tokens, Token.sequence text = .ok tokens ∧
        (∀ token ∈ tokens, token.kind = .literal .integer → token.HoldsInteger) ∧
        (∀ token ∈ tokens, token.kind = .literal .float → ∃ number,
          token.literal? = some (.float number) ∧ (number.isFinite = true ↔ token.InRange)) ∧
        (∀ filter ∈ command.filter?, Grammar.Sourced tokens limits.maxDepth filter) ∧
        ((∀ token ∈ tokens, token.InRange) →
          command.isFinite = true ∧ command.document.isFinite = true ∧
          (∀ condition, Grammar.Announced tokens .where (Grammar.conditions limits.maxDepth)
            condition → condition.isFinite = true) ∧
          ∀ options, Grammar.Announced tokens .with (Grammar.mapping limits.maxDepth) options →
            options.toValue.isFinite = true)
    | .error diagnostic => diagnostic.code = "LEX_002" →
        ∃ before negative digits behind, IsWhole digits ∧
          text.toList = before ++ (Numeral.signed negative digits ++ behind) ∧
          readInteger? (Numeral.signed negative digits) = none := by
  cases outcome : limits.read text with
  | error diagnostic => exact exists_integer_of_refusal outcome
  | ok command =>
    obtain ⟨-, tokens, split, read⟩ := Grammar.read_ok_iff.mp outcome
    have accounted : Grammar.Accounted tokens limits.maxDepth command :=
      Grammar.readTokens_draws Grammar.command_draws read
    refine ⟨tokens, split, fun token inside => Token.holdsInteger_of_sequence split inside, ?_,
      accounted.sourced, fun ranged => ⟨accounted.finite ranged, ?_, ?_, ?_⟩⟩
    · intro token inside float
      obtain ⟨number, meaning⟩ := Token.exists_float_of_sequence split inside float
      exact ⟨number, meaning, Token.isFinite_iff_inRange meaning⟩
    · exact Command.isFinite_document (accounted.finite ranged)
    · exact fun condition announced => announced.isFinite_condition ranged
    · exact fun options announced => announced.isFinite_options ranged

/-- The last digit of this float is past the largest one, yet not half way to the next power
of two. -/
theorem read_range_of_rounded_float :
    let text := "insert into t (a) values (1.7976931348623158e308);"
    let row : Mapping := ⟨[("a", .float (.ofDecimal false ⟨17976931348623158, 292⟩))]⟩
    let command : Command := .write (.insert ⟨"t", none, [row]⟩)
    ({} : Limits).read text = .ok command ∧ command.isFinite = true := by
  intro text row command
  have read : ({} : Limits).read text = .ok command := by decide +kernel
  have split : Token.sequence text = .ok
      [⟨.keyword .insert, "INSERT", 1, 1⟩, ⟨.keyword .into, "INTO", 1, 8⟩, ⟨.identifier, "t", 1, 13⟩,
        ⟨.operator .openParen, "(", 1, 15⟩, ⟨.identifier, "a", 1, 16⟩,
        ⟨.operator .closeParen, ")", 1, 17⟩, ⟨.keyword .values, "VALUES", 1, 19⟩,
        ⟨.operator .openParen, "(", 1, 26⟩, ⟨.literal .float, "1.7976931348623158e308", 1, 27⟩,
        ⟨.operator .closeParen, ")", 1, 49⟩, ⟨.separator .semicolon, ";", 1, 50⟩] := by
    decide +kernel
  have range := read_range {} text
  rw [read] at range
  obtain ⟨tokens, same, -, -, -, finite⟩ := range
  obtain rfl := Except.ok.inj (split.symm.trans same)
  exact ⟨read, (finite (by decide +kernel)).1⟩

/-- A float out of range is read as infinite where an integer is refused: a filter then compares
with the field of that name, and a row is written without its number. -/
theorem infinite_of_large_float :
    let filtered : Command := .delete ⟨"t", none, some "(a == inf)", .empty⟩
    let written : Command := .write (.insert ⟨"t", none, [⟨[("a", .float (.infinite false))]⟩]⟩)
    ({} : Limits).read "delete from t where a = 1e999;" = .ok filtered ∧
    ({} : Limits).read "delete from t where a = inf;" = .ok filtered ∧
    (∃ diagnostic, ({} : Limits).read "delete from t where a = 9223372036854775808;" =
      .error diagnostic ∧ diagnostic.code = "LEX_002") ∧
    ({} : Limits).read "insert into t (a) values (1e999);" = .ok written ∧
    written.isFinite = false ∧ written.document.json =
      "\x7b\"type\":\"insert\",\"coll_name\":\"t\",\"data\":[\x7b\"a\":null\x7d]\x7d" := by
  intro filtered written
  have refused : ({} : Limits).read "delete from t where a = 9223372036854775808;" = .error
      ((StatementError.integerOutOfRange
        (some ⟨"9223372036854775808", 1, 25⟩)).diagnostic.withStatement
          "delete from t where a = 9223372036854775808;") := by decide +kernel
  refine ⟨by decide +kernel, by decide +kernel, ⟨_, refused, rfl⟩, by decide +kernel, rfl, ?_⟩
  decide +kernel

end Limits

end VectorQuery
