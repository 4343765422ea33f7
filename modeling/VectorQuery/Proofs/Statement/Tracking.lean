import VectorQuery.Proofs.Grammar.ConditionTracking
import VectorQuery.Proofs.Grammar.Progress
import VectorQuery.Proofs.Statement.Refusal

/-! Where the limit on nesting is met. Every rule of a statement keeps to the scan over the
tokens, so all levels are open in front of the token that is blamed. That token would open one
more, or it stands where a list or an object has to follow: there the limit is looked at before
the bracket. -/
namespace VectorQuery

/-- Outside all brackets, behind the `WHERE` of a filter or in front of it. -/
def Place.idle (filtered : Bool) : Place :=
  ⟨⟨0, 0, false⟩, [], filtered⟩

namespace Grammar

variable {α : Type} {limit levels : Nat} {place : Place}

def Anywhere : Assertion := fun _ _ => True

theorem name_tracks : Tracks limit (Somewhere place) identifier fun _ => Somewhere place :=
  identifier_tracks anything rfl

theorem names_tracks : Tracks limit (Somewhere place) (separated identifier) fun _ =>
    Somewhere place :=
  tracks_separated name_tracks fun held kind => held.plain (kind ▸ rfl) rfl

theorem number_tracks : Tracks limit (Somewhere place) integer fun _ => Somewhere place :=
  integer_tracks anything rfl

theorem keyword_tracks {word : Keyword} (plain : (TokenKind.keyword word).isPlain = true) :
    Tracks limit (Somewhere place) (keyword word) fun _ => Somewhere place :=
  plain_tracks anything plain rfl

/-- Outside a filter, round brackets open no level. -/
theorem outline_tracks {inner : Rule α} {fit : Option TokenKind → Bool}
    (unfiltered : place.filtered = false) (starts : fit (some (.operator .openParen)) = true)
    (tracks : Tracks limit (At (place.enter false) fit) inner fun _ => Somewhere (place.enter false)) :
    Tracks limit (Somewhere place) (bracketed inner) fun _ => Somewhere place := by
  refine bracketed_tracks fit false (fun _ _ => ?_) starts (tracks.widen At.near) rfl
  rw [unfiltered]
  rfl

/-! Clauses. -/

/-- Behind the filter, if there is one. -/
def BehindFilter : Assertion := fun cursor tokens =>
  ∃ filtered, Near (.idle filtered) cursor tokens

/-- Behind the `WITH` of a clause. -/
def BehindWith : Assertion := fun cursor tokens =>
  ∃ filtered, Opens (.idle filtered) .openBrace cursor tokens

theorem BehindFilter.announced {cursor : Cursor} {token : Token} {rest : List Token}
    (filtered : BehindFilter cursor (token :: rest)) (kind : token.kind = .keyword .with) :
    BehindWith (cursor.after token) rest := by
  obtain ⟨filtered, levels, same⟩ := filtered
  refine ⟨filtered, ⟨?_, ?_⟩, .inr ?_⟩
  · rw [Cursor.after, same, kind]
    rfl
  · rw [Cursor.after, kind]
    rfl
  · rw [Cursor.wantsBracket, Cursor.after, kind]

theorem behindWith_tracks : Tracks levels BehindWith (mapping levels) fun _ => Anywhere := by
  rintro cursor tokens ⟨filtered, opens⟩
  have full : (Place.idle filtered).frame.levels + levels = levels := Nat.zero_add levels
  exact (mapping_tracks full).widen (fun _ => trivial) opens

theorem with_tracks :
    Tracks levels BehindFilter (announced .with (mapping levels)) fun _ => Anywhere :=
  tracks_announced BehindFilter.announced behindWith_tracks fun _ => trivial

theorem behindFilter_of_start {cursor : Cursor} {tokens : List Token}
    (held : Somewhere .start cursor tokens) : BehindFilter cursor tokens :=
  ⟨false, held.near⟩

theorem options_tracks : Tracks levels (Somewhere .start) (options levels) fun _ => Anywhere :=
  tracks_map (with_tracks.narrow behindFilter_of_start)

theorem compiledFilter_tracks :
    Tracks levels (Somewhere .start) (compiledFilter levels) fun _ => BehindFilter := by
  have condition : Tracks levels (At (.idle true) isLead) (conditions levels) fun _ =>
      BehindFilter := by
    refine (conditions_tracks rfl rfl rfl ?_).widen fun near => ⟨true, near⟩
    exact Nat.zero_add levels
  refine tracks_map (tracks_announced (fun held kind => ?_) condition behindFilter_of_start)
  exact held.after (fun _ _ => by rw [kind]; rfl) (by rw [kind]; rfl)

theorem clauses_tracks : Tracks levels (Somewhere .start) (clauses levels) fun _ => Anywhere := by
  refine tracks_bind compiledFilter_tracks fun compiled => tracks_bind with_tracks fun given => ?_
  split
  · exact tracks_refuse
  · exact tracks_pure fun held => held

theorem target_tracks : Tracks limit (Somewhere .start) target fun _ => Somewhere .start := by
  refine accept_tracks anything rfl rfl ?_ (tracks_map name_tracks)
  refine tracks_bind name_tracks fun partition => ?_
  exact tracks_bind (keyword_tracks rfl) fun _ => tracks_map name_tracks

/-! Fields. Any word may stand there for a type, and moves nothing. -/

/-- Within the bracket around the fields. -/
abbrev Place.listing : Place := Place.start.enter false

theorem step_of_isWord {kind : TokenKind} (last : Option TokenKind) (word : kind.isWord = true) :
    Place.listing.step last kind = Place.listing := by
  unfold Place.step
  split <;> first
    | contradiction
    | rfl

theorem listing_after {fit : Option TokenKind → Bool} {cursor : Cursor} {token : Token}
    {tokens rest : List Token} (held : At Place.listing fit cursor tokens)
    (word : token.kind.isWord = true) : Somewhere Place.listing (cursor.after token) rest :=
  held.after (fun last _ => step_of_isWord last word) rfl

theorem typeWord_tracks :
    Tracks limit (Somewhere Place.listing) typeWord fun _ => Somewhere Place.listing :=
  tracks_take fun held meant => listing_after held (Option.ite_none_right_eq_some.mp meant).1

theorem word_tracks (expected : String) :
    Tracks limit (Somewhere Place.listing) (word expected) fun _ => Somewhere Place.listing :=
  tracks_take fun held meant =>
    listing_after held (Bool.and_eq_true_iff.mp (Option.ite_none_right_eq_some.mp meant).1).1

theorem size_tracks :
    Tracks limit (Somewhere Place.listing) size fun _ => Somewhere Place.listing :=
  outline_tracks rfl rfl number_tracks

theorem peekContainer_tracks :
    Tracks limit (Somewhere Place.listing) peekContainer fun found cursor tokens =>
      Somewhere Place.listing cursor tokens ∧ found = containerFollows tokens :=
  fun _ tokens held => .read [] tokens ⟨held, rfl⟩

theorem fieldType_tracks :
    Tracks limit (Somewhere Place.listing) fieldType fun _ => Somewhere Place.listing := by
  have container : Tracks limit (fun cursor tokens => Somewhere Place.listing cursor tokens ∧
      true = containerFollows tokens) token fun _ => Somewhere Place.listing := by
    refine tracks_token fun {cursor token rest} held => listing_after held.1 ?_
    have follows := held.2.symm
    unfold containerFollows at follows
    split at follows
    next same =>
      obtain rfl := (List.cons.inj same).1
      exact (Bool.and_eq_true_iff.mp (Bool.and_eq_true_iff.mp follows).1).1
    next => contradiction
  refine tracks_bind typeWord_tracks fun name => tracks_bind tracks_peek fun kind => ?_
  refine tracks_choice (fun _ => ?_) fun _ => ?_
  · refine tracks_bind (size_tracks.narrow fun held => held.1) fun length => ?_
    refine tracks_bind peekContainer_tracks fun found => tracks_choice (fun _ => ?_) fun _ => ?_
    · exact tracks_bind ((word_tracks _).narrow fun held => held.1) fun _ => tracks_map size_tracks
    · exact tracks_pure fun held => held.1
  · refine tracks_bind (peekContainer_tracks.narrow fun held => held.1) fun found => ?_
    refine tracks_choice (fun present => ?_) fun _ => tracks_pure fun held => held.1
    refine tracks_bind (container.narrow fun held => present ▸ held) fun word => ?_
    refine tracks_bind size_tracks fun number => tracks_choice (fun _ => ?_) fun _ => ?_
    · exact tracks_pure fun held => held
    · exact tracks_choice (fun _ => tracks_pure fun held => held) fun _ => tracks_refuseToken word

theorem acceptWord_tracks (expected : String) :
    Tracks limit (Somewhere Place.listing) (acceptWord expected) fun _ => Somewhere Place.listing := by
  refine tracks_bind tracks_next? fun found => tracks_choice (fun present => ?_) fun _ => ?_
  · refine tracks_bind (tracks_token fun {cursor token rest} held => ?_) fun _ =>
      tracks_pure fun held => held
    obtain ⟨held, rfl⟩ := held
    exact listing_after held (Bool.and_eq_true_iff.mp present).1
  · exact tracks_pure fun held => held.1

theorem fieldAttribute_tracks :
    Tracks limit (Somewhere Place.listing) fieldAttribute fun _ => Somewhere Place.listing := by
  have keyed (expected : String) {found : FieldAttribute} :
      Tracks limit (Somewhere Place.listing) (word expected >>= fun _ => pure (some found)) fun _ =>
        Somewhere Place.listing :=
    tracks_bind (word_tracks expected) fun _ => tracks_pure fun held => held
  have content : Tracks limit (Somewhere (Place.listing.enter false)) text fun _ =>
      Somewhere (Place.listing.enter false) := text_tracks anything rfl
  refine tracks_bind (acceptWord_tracks _) fun _ => tracks_choice (fun _ => keyed _) fun _ => ?_
  refine tracks_bind (acceptWord_tracks _) fun _ => tracks_choice (fun _ => keyed _) fun _ => ?_
  refine tracks_bind (acceptWord_tracks _) fun _ => tracks_choice (fun _ => keyed _) fun _ => ?_
  refine tracks_bind (acceptWord_tracks _) fun _ =>
    tracks_choice (fun _ => tracks_pure fun held => held) fun _ => ?_
  refine tracks_bind (acceptWord_tracks _) fun _ =>
    tracks_choice (fun _ => tracks_map (outline_tracks rfl rfl content)) fun _ => ?_
  exact tracks_pure fun held => held

theorem field_tracks :
    Tracks limit (Somewhere Place.listing) field fun _ => Somewhere Place.listing :=
  tracks_bind name_tracks fun _ => tracks_bind fieldType_tracks fun _ =>
    tracks_map (tracks_many fieldAttribute_tracks)

theorem fields_tracks : Tracks limit (Somewhere .start) fields fun _ => Somewhere .start := by
  have opening : Tracks limit (Somewhere .start) (operator .openParen) fun _ =>
      Somewhere Place.listing := expect_tracks (fun _ _ => rfl) rfl
  have closed {cursor : Cursor} {token : Token} {rest : List Token}
      (held : Somewhere Place.listing cursor (token :: rest))
      (kind : token.kind = .operator .closeParen) : Somewhere .start (cursor.after token) rest :=
    held.near.leave (.inl kind) rfl
  have next : Tracks limit (Somewhere Place.listing) nextField fun found =>
      if found.isSome then Somewhere Place.listing else Somewhere .start :=
    tracks_bind comma_tracks fun _ =>
      tracks_accept closed (tracks_pure fun held => held) (tracks_map field_tracks)
  exact tracks_bind opening fun _ => tracks_many_closed nextField_advancing.consuming next

/-! Statements about the structure of a store. -/

theorem createCollection_tracks :
    Tracks levels (Somewhere .start) (createCollection levels) fun _ => Anywhere :=
  tracks_bind name_tracks fun _ => tracks_bind fields_tracks fun _ => tracks_map options_tracks

/-- Two names with a word between them. -/
theorem pair_tracks {word : Keyword} (plain : (TokenKind.keyword word).isPlain = true)
    {change : String → String → α} : Tracks limit (Somewhere .start) (do
      let first ← identifier
      keyword word
      return change first (← identifier)) fun _ => Somewhere .start :=
  tracks_bind name_tracks fun _ => tracks_bind (keyword_tracks plain) fun _ => tracks_map name_tracks

theorem createPartition_tracks :
    Tracks levels (Somewhere .start) (createPartition levels) fun _ => Anywhere :=
  tracks_bind name_tracks fun _ => tracks_bind (keyword_tracks rfl) fun _ =>
    tracks_bind name_tracks fun _ => tracks_map options_tracks

theorem createIndex_tracks :
    Tracks levels (Somewhere .start) (createIndex levels) fun _ => Anywhere :=
  tracks_bind name_tracks fun _ => tracks_bind (keyword_tracks rfl) fun _ =>
    tracks_bind name_tracks fun _ => tracks_bind (outline_tracks rfl rfl name_tracks) fun _ =>
      tracks_map (with_tracks.narrow behindFilter_of_start)

theorem create_tracks : Tracks levels (Somewhere .start) (create levels) fun _ => Anywhere := by
  refine accept_tracks anything rfl rfl (tracks_map (name_tracks.widen fun _ => trivial)) ?_
  refine accept_tracks anything rfl rfl (tracks_map createCollection_tracks) ?_
  refine accept_tracks anything rfl rfl (tracks_map ((pair_tracks rfl).widen fun _ => trivial)) ?_
  refine accept_tracks anything rfl rfl (tracks_map createPartition_tracks) ?_
  exact accept_tracks anything rfl rfl (tracks_map createIndex_tracks) tracks_refuse

theorem drop_tracks : Tracks limit (Somewhere .start) drop fun _ => Somewhere .start := by
  refine accept_tracks anything rfl rfl (tracks_map name_tracks) ?_
  refine accept_tracks anything rfl rfl (tracks_map name_tracks) ?_
  refine accept_tracks anything rfl rfl (tracks_map (pair_tracks rfl)) ?_
  refine accept_tracks anything rfl rfl (tracks_map (pair_tracks rfl)) ?_
  exact accept_tracks anything rfl rfl (tracks_map (pair_tracks rfl)) tracks_refuse

theorem showAll_tracks : Tracks limit (Somewhere .start) showAll fun _ => Somewhere .start := by
  have plainly {found : Command} : Tracks limit (Somewhere .start) (pure found) fun _ =>
      Somewhere .start := tracks_pure fun held => held
  have named {word : Keyword} (plain : (TokenKind.keyword word).isPlain = true)
      {change : String → Command} : Tracks limit (Somewhere .start) (do
        keyword word
        return change (← identifier)) fun _ => Somewhere .start :=
    tracks_bind (keyword_tracks plain) fun _ => tracks_map name_tracks
  refine accept_tracks anything rfl rfl plainly (accept_tracks anything rfl rfl plainly ?_)
  refine accept_tracks anything rfl rfl (named rfl) (accept_tracks anything rfl rfl (named rfl) ?_)
  exact accept_tracks anything rfl rfl (named rfl) tracks_refuse

theorem load_tracks : Tracks levels (Somewhere .start) (load levels) fun _ => Anywhere := by
  refine accept_tracks anything rfl rfl ?_ (accept_tracks anything rfl rfl ?_ tracks_refuse)
  · exact tracks_bind name_tracks fun _ => tracks_map options_tracks
  · exact tracks_bind names_tracks fun _ => tracks_bind (keyword_tracks rfl) fun _ =>
      tracks_bind name_tracks fun _ => tracks_map options_tracks

theorem release_tracks : Tracks limit (Somewhere .start) release fun _ => Somewhere .start := by
  refine accept_tracks anything rfl rfl (tracks_map name_tracks) ?_
  refine accept_tracks anything rfl rfl ?_ tracks_refuse
  exact tracks_bind names_tracks fun _ => tracks_bind (keyword_tracks rfl) fun _ =>
    tracks_map name_tracks

theorem rename_tracks : Tracks limit (Somewhere .start) rename fun _ => Somewhere .start :=
  tracks_bind (keyword_tracks rfl) fun _ => tracks_bind name_tracks fun _ =>
    tracks_bind (keyword_tracks rfl) fun _ => tracks_bind name_tracks fun _ =>
      tracks_bind (keyword_tracks rfl) fun _ => tracks_map name_tracks

theorem compact_tracks : Tracks limit (Somewhere .start) compact fun _ => Somewhere .start :=
  tracks_bind (keyword_tracks rfl) fun _ => tracks_map name_tracks

/-! Statements that write rows. -/

theorem file_tracks : Tracks limit (Somewhere .start) file fun _ => Somewhere .start := by
  refine tracks_bind comma_tracks fun _ => tracks_choice (fun _ => ?_) fun _ => ?_
  · exact tracks_map (text_tracks anything rfl)
  · refine tracks_bind tracks_peek fun _ => tracks_choice (fun _ => ?_) fun _ => ?_
    · exact tracks_map ((text_tracks anything rfl).narrow fun held => held.1)
    · exact tracks_pure fun held => held.1

theorem bulkInsert_tracks :
    Tracks limit (Somewhere .start) bulkInsert fun _ => Somewhere .start := by
  have target : Tracks limit (Somewhere .start) bulkTarget fun _ => Somewhere .start := by
    refine accept_tracks anything rfl rfl (pair_tracks rfl) ?_
    exact tracks_bind (keyword_tracks rfl) fun _ => tracks_map name_tracks
  exact tracks_bind (keyword_tracks rfl) fun _ => tracks_bind target fun _ =>
    tracks_bind (keyword_tracks rfl) fun _ => tracks_map (tracks_many file_tracks)

theorem row_tracks (names : List String) :
    Tracks levels (Somewhere .start) (row levels names) fun _ => Somewhere .start := by
  have values : Tracks levels (At Place.listing isFresh) (separated (value levels)) fun _ =>
      Somewhere Place.listing :=
    tracks_separated (value_tracks (Nat.zero_add levels)) fun held kind =>
      held.plain (kind ▸ rfl) (kind ▸ rfl)
  exact tracks_map (outline_tracks rfl rfl values)

theorem write_tracks : Tracks levels (Somewhere .start) (write levels) fun _ => Somewhere .start := by
  refine tracks_bind (keyword_tracks rfl) fun _ => tracks_bind target_tracks fun _ => ?_
  refine tracks_bind (outline_tracks rfl rfl names_tracks) fun names => ?_
  refine tracks_bind (keyword_tracks rfl) fun _ => tracks_map ?_
  exact tracks_separated (row_tracks names) fun held kind => held.plain (kind ▸ rfl) rfl

/-! Statements that select rows. -/

theorem delete_tracks : Tracks levels (Somewhere .start) (delete levels) fun _ => Anywhere :=
  tracks_bind (keyword_tracks rfl) fun _ => tracks_bind target_tracks fun _ =>
    tracks_map clauses_tracks

theorem column_tracks : Tracks limit (Somewhere .start) column fun _ => Somewhere .start := by
  have star : Tracks limit (Somewhere Place.listing) (operator .star) fun _ =>
      Somewhere Place.listing := plain_tracks anything rfl rfl
  refine accept_tracks anything rfl rfl (tracks_pure fun held => held) ?_
  refine accept_tracks anything rfl rfl ?_ name_tracks
  exact tracks_bind (outline_tracks rfl rfl star) fun _ => tracks_pure fun held => held

theorem bound_tracks {word : Keyword} (plain : (TokenKind.keyword word).isPlain = true) :
    Tracks limit (Somewhere .start) (announced word integer) fun _ => Somewhere .start :=
  accept_tracks anything plain rfl (tracks_map number_tracks) (tracks_pure fun held => held)

theorem query_tracks (columns partitions : List String) (collection : String) :
    Tracks levels (Somewhere .start) (query levels columns partitions collection) fun _ => Anywhere :=
  tracks_bind (bound_tracks rfl) fun _ => tracks_bind (bound_tracks rfl) fun _ =>
    tracks_map clauses_tracks

/-- Behind the arrow of a search, a list has to follow. -/
theorem vectors_tracks : Tracks levels (At .start (· == some (.operator .greater))) (vectors levels)
    fun _ => Somewhere .start := by
  refine tracks_bind tracks_current fun opening => ?_
  have lists : Tracks levels (At .start (· == some (.operator .greater))) (list levels) fun _ =>
      Somewhere .start := by
    refine ((list_tracks (Nat.zero_add levels)).widen At.somewhere).narrow fun held => ?_
    refine ⟨held.weaken fun _ arrow => eq_of_beq arrow ▸ rfl, .inr ?_⟩
    rw [Cursor.wantsBracket, eq_of_beq held.2, held.1]
    rfl
  refine tracks_bind lists fun items => ?_
  split
  · exact tracks_pure fun held => held
  · exact tracks_refuseToken opening

theorem search_tracks (columns partitions : List String) (collection : String) :
    Tracks levels (Somewhere .start) (search levels columns partitions collection) fun _ =>
      Anywhere := by
  have arrow : Tracks levels (Somewhere .start) (operator .greater) fun _ =>
      At .start (· == some (.operator .greater)) := plain_tracks _ rfl rfl
  have word : Tracks levels BehindFilter (keyword .with) fun _ => BehindWith :=
    tracks_expect BehindFilter.announced
  refine tracks_bind (keyword_tracks rfl) fun _ => tracks_bind (keyword_tracks rfl) fun _ => ?_
  refine tracks_bind name_tracks fun target => tracks_bind (plain_tracks anything rfl rfl) fun _ => ?_
  refine tracks_bind (plain_tracks anything rfl rfl) fun _ => tracks_bind arrow fun _ => ?_
  refine tracks_bind vectors_tracks fun vectors => tracks_bind (bound_tracks rfl) fun limit => ?_
  -- Behind the filter, what `NOT` has opened is open until the `WITH`.
  exact tracks_bind compiledFilter_tracks fun _ => tracks_bind word fun _ =>
    tracks_map behindWith_tracks

theorem select_tracks : Tracks levels (Somewhere .start) (select levels) fun _ => Anywhere := by
  have columns : Tracks levels (Somewhere .start) (separated column) fun _ => Somewhere .start :=
    tracks_separated column_tracks fun held kind => held.plain (kind ▸ rfl) rfl
  have partitions : Tracks levels (Somewhere .start) selectedPartitions fun _ => Somewhere .start := by
    refine accept_tracks anything rfl rfl ?_ (tracks_pure fun held => held)
    exact tracks_bind names_tracks fun _ => tracks_bind (keyword_tracks rfl) fun _ =>
      tracks_pure fun held => held
  refine tracks_bind columns fun columns => tracks_bind (keyword_tracks rfl) fun _ => ?_
  refine tracks_bind partitions fun partitions => tracks_bind name_tracks fun collection => ?_
  refine tracks_bind tracks_peek fun _ => tracks_choice (fun _ => ?_) fun _ => ?_
  · exact tracks_map ((search_tracks columns partitions collection).narrow fun held => held.1)
  · exact tracks_map ((query_tracks columns partitions collection).narrow fun held => held.1)

theorem command_tracks : Tracks levels (Somewhere .start) (command levels) fun _ => Anywhere := by
  refine accept_tracks anything rfl rfl create_tracks ?_
  refine accept_tracks anything rfl rfl (drop_tracks.widen fun _ => trivial) ?_
  refine accept_tracks anything rfl rfl (showAll_tracks.widen fun _ => trivial) ?_
  refine accept_tracks anything rfl rfl load_tracks ?_
  refine accept_tracks anything rfl rfl (release_tracks.widen fun _ => trivial) ?_
  refine accept_tracks anything rfl rfl (tracks_map (name_tracks.widen fun _ => trivial)) ?_
  refine accept_tracks anything rfl rfl (rename_tracks.widen fun _ => trivial) ?_
  refine accept_tracks anything rfl rfl (compact_tracks.widen fun _ => trivial) ?_
  refine accept_tracks anything rfl rfl (tracks_map (bulkInsert_tracks.widen fun _ => trivial)) ?_
  refine accept_tracks anything rfl rfl (tracks_map (write_tracks.widen fun _ => trivial)) ?_
  refine accept_tracks anything rfl rfl (tracks_map (write_tracks.widen fun _ => trivial)) ?_
  refine accept_tracks anything rfl rfl (tracks_map delete_tracks) ?_
  exact accept_tracks anything rfl rfl select_tracks tracks_refuse

theorem statement_tracks : Tracks levels (Somewhere .start) (statement levels) fun _ => Anywhere := by
  have finished : Tracks levels Anywhere finished fun _ => Anywhere := by
    intro cursor tokens _
    cases tokens with
    | nil => exact .read [] [] trivial
    | cons token rest => exact .unexpected _ token
  have ends : Tracks levels Anywhere (expect (.separator .semicolon)) fun _ => Anywhere :=
    tracks_expect fun _ _ => trivial
  exact tracks_bind command_tracks fun _ => tracks_bind ends fun _ =>
    tracks_bind finished fun _ => tracks_pure fun _ => trivial

/-- A statement that is nested too deeply is cut in two: all levels are open behind the one
part, and the other starts with the token that is blamed. -/
theorem statement_tooDeep {tokens : List Token} {blamed : Option Token}
    (refused : statement levels tokens = .error (.tooDeep blamed)) : ∃ before behind,
      tokens = before ++ behind ∧ blamed = behind.head? ∧
        Blamed levels (Cursor.start.afterAll before) behind := by
  have run := @statement_tracks levels .start tokens ⟨rfl, rfl⟩
  rw [refused] at run
  cases run with
  | deep before behind found => exact ⟨before, behind, rfl, rfl, found⟩

end Grammar

namespace Limits

open Grammar

variable {limits : Limits}

theorem readTokens_tooDeep {tokens : List Token} {error : StatementError}
    (refused : limits.readTokens tokens = .error error) (code : error.diagnostic.code = "PARSE_003") :
    ∃ before behind, tokens = before ++ behind ∧
      error = .nestingTooDeep (behind.head?.map Token.fragment) limits.maxDepth ∧
      Blamed limits.maxDepth (Cursor.start.afterAll before) behind := by
  unfold readTokens at refused
  split at refused
  next => contradiction
  next fault outcome =>
    obtain rfl := Except.error.inj refused
    cases fault with
    | unexpected | endOfInput =>
      have code : "PARSE_001" = "PARSE_003" := code
      exact absurd code (by decide)
    | tooDeep blamed =>
      obtain ⟨before, behind, same, rfl, found⟩ := statement_tooDeep outcome
      exact ⟨before, behind, same, rfl, found⟩

/-- A text that is nested too deeply is a text of tokens in two parts. Behind the first part as
many levels are open as may be, and the token that is blamed is the first of the second part. It
is a bracket or `NOT` and would open one level more, or else a list or an object has to follow
there; then it may be any token, or none. -/
theorem read_tooDeep {text : String} {diagnostic : Diagnostic}
    (refused : limits.read text = .error diagnostic) (code : diagnostic.code = "PARSE_003") :
    ∃ before behind, Token.sequence text = .ok (before ++ behind) ∧
      diagnostic = ((StatementError.nestingTooDeep (behind.head?.map Token.fragment)
        limits.maxDepth).diagnostic.withStatement text) ∧
      openLevels before = limits.maxDepth ∧
      ((∃ token rest, behind = token :: rest ∧ token.kind.opensLevel = true ∧
          openLevels (before ++ [token]) = limits.maxDepth + 1) ∨
        (Cursor.start.afterAll before).wantsBracket = true) := by
  have outcomes := limits.read_outcomes text
  rw [refused] at outcomes
  obtain ⟨-, -, long, -⟩ := outcomes
  have short : ¬limits.Exceeded text := fun exceeded =>
    absurd (code.symm.trans (long.mpr exceeded)) (by decide)
  rw [read_of_sequence (checkLength_iff_not_exceeded.mpr short)] at refused
  cases split : Token.sequence text with
  | error error =>
    rw [split] at refused
    obtain rfl := Except.error.inj refused
    have grammatical := Diagnostic.isGrammatical_of_code (.inr (.inr code))
    exact absurd (grammatical.2.symm.trans (Token.isLexical_of_sequence split)) Bool.false_ne_true
  | ok tokens =>
    rw [split] at refused
    simp only [Except.bind] at refused
    cases outcome : limits.readTokens tokens with
    | ok command => simp [outcome, Except.mapError] at refused
    | error error =>
      rw [outcome] at refused
      obtain rfl := Except.error.inj refused
      obtain ⟨before, behind, rfl, rfl, full, opens⟩ := readTokens_tooDeep outcome code
      refine ⟨before, behind, rfl, rfl, full, opens.imp_left ?_⟩
      rintro ⟨token, rest, rfl, kind, more⟩
      refine ⟨token, rest, rfl, kind, ?_⟩
      rw [openLevels, Cursor.afterAll_append]
      exact more

/-- Behind `NOT` and a round bracket, the list is the third level. -/
theorem read_tooDeep_of_denied_list :
    let text := "delete from t where not (a in [1]);"
    ∃ diagnostic before token behind, (⟨none, 2⟩ : Limits).read text = .error diagnostic ∧
      diagnostic.code = "PARSE_003" ∧ Token.sequence text = .ok (before ++ token :: behind) ∧
      diagnostic.fragment = some token.fragment ∧ token.fragment = ⟨"[", 1, 31⟩ ∧
      openLevels before = 2 := by
  intro text
  have refused : (⟨none, 2⟩ : Limits).read text = .error
      ((StatementError.nestingTooDeep (some ⟨"[", 1, 31⟩) 2).diagnostic.withStatement text) := by
    decide +kernel
  obtain ⟨before, behind, split, same, full, -⟩ := read_tooDeep refused rfl
  have shown : some ⟨"[", 1, 31⟩ = behind.head?.map Token.fragment :=
    congrArg Diagnostic.fragment same
  obtain ⟨token, first, found⟩ := Option.map_eq_some_iff.mp shown.symm
  obtain ⟨rest, rfl⟩ := List.head?_eq_some_iff.mp first
  exact ⟨_, before, token, rest, refused, rfl, split, congrArg some found.symm, found, full⟩

/-- A word where an object has to follow is blamed for the limit, with no bracket in the text.
As soon as the object may open, the same word is unexpected. -/
theorem blamed_of_no_bracket :
    let text := "load collection a with x;"
    let fragment : Option Fragment := some ⟨"x", 1, 24⟩
    (⟨none, 0⟩ : Limits).read text =
      .error ((StatementError.nestingTooDeep fragment 0).diagnostic.withStatement text) ∧
    (⟨none, 1⟩ : Limits).read text =
      .error ((StatementError.unexpectedToken fragment).diagnostic.withStatement text) ∧
    (StatementError.nestingTooDeep fragment 0).diagnostic.code = "PARSE_003" ∧
    (StatementError.unexpectedToken fragment).diagnostic.code = "PARSE_001" ∧
    ∃ tokens, Token.sequence text = .ok tokens ∧
      ∀ token ∈ tokens, token.kind.opensLevel = false := by
  intro text fragment
  refine ⟨by decide +kernel, by decide +kernel, rfl, rfl,
    [⟨.keyword .load, "LOAD", 1, 1⟩, ⟨.keyword .collection, "COLLECTION", 1, 6⟩,
      ⟨.identifier, "a", 1, 17⟩, ⟨.keyword .with, "WITH", 1, 19⟩, ⟨.identifier, "x", 1, 24⟩,
      ⟨.separator .semicolon, ";", 1, 25⟩], by decide +kernel, by decide⟩

end Limits

end VectorQuery
