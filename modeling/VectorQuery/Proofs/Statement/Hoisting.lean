import VectorQuery.Proofs.Command.Hoist
import VectorQuery.Proofs.Grammar.ConditionComplete
import VectorQuery.Proofs.Statement.Roundtrip
import VectorQuery.Proofs.Value.Printed

/-! Statements with options and perhaps a filter, in any spelling. What a command holds apart is
taken out of its options, and none of the others is lost. -/
namespace VectorQuery

open Lexeme Grammar

/-- A filter as it is written. -/
structure WrittenFilter (levels : Nat) where
  lexemes : List Lexeme
  condition : Condition
  writes : Writes lexemes (ConditionsPhrase levels) condition

/-- Options as they are written. -/
structure WrittenOptions (levels : Nat) where
  lexemes : List Lexeme
  mapping : Mapping
  writes : Writes lexemes (MappingPhrase levels) mapping

/-- Query vectors as they are written, flat or one by one. -/
structure WrittenVectors (levels : Nat) where
  lexemes : List Lexeme
  items : List Value
  vectors : List (List Value)
  writes : Writes lexemes (ListPhrase levels) items
  split : Value.vectors? items = some vectors

variable {levels : Nat}

theorem MappingPhrase.distinct {tokens : List Token} {mapping : Mapping}
    (phrase : MappingPhrase levels tokens mapping) : mapping.Distinct := by
  cases phrase with
  | entries => exact Mapping.ofList_distinct _

/-- An object in a mapping that is read holds each key once as well. -/
theorem MappingPhrase.inner_distinct {tokens : List Token} {mapping : Mapping}
    (phrase : MappingPhrase levels tokens mapping) {key : String}
    {entries : List (String × Value)} (inside : (key, .object entries) ∈ mapping.entries) :
    (entries.map Prod.fst).Nodup := by
  have fits := phrase.fits
  cases levels with
  | zero => exact fits.elim
  | succ levels =>
    have inner := Value.entriesFit_iff.mp fits.2 _ inside
    cases levels with
    | zero => exact inner.elim
    | succ levels => exact inner.1

theorem WrittenOptions.phrase (given : WrittenOptions levels) :
    ∃ tokens, MappingPhrase levels tokens given.mapping :=
  ⟨_, given.writes.phrase (spells_somewhere given.lexemes)⟩

def filterClause (filter : Option (WrittenFilter levels)) : List Lexeme :=
  filter.elim [] fun filter => ofKeyword .where :: filter.lexemes

def compiled (filter : Option (WrittenFilter levels)) : Option String :=
  filter.map fun filter => filter.condition.predicate

/-- A statement that takes options, up to them. -/
inductive Outset (levels : Nat) where
  | index (name collection field : String)
  | delete (partition : Option String) (collection : String) (filter : Option (WrittenFilter levels))
  | query (columns partitions : List String) (collection : String) (limit offset : Option Int64)
      (filter : Option (WrittenFilter levels))
  | search (columns partitions : List String) (collection target : String)
      (vectors : WrittenVectors levels) (limit : Option Int64)
      (filter : Option (WrittenFilter levels))

namespace Outset

def WellFormed : Outset levels → Prop
  | .index name collection field => IsName name ∧ IsName collection ∧ IsName field
  | .delete partition collection _ => (∀ name ∈ partition, IsName name) ∧ IsName collection
  | .query columns partitions collection _ _ _ =>
    (columns ≠ [] ∧ ∀ column ∈ columns, IsColumn column) ∧
      (∀ name ∈ partitions, IsName name) ∧ IsName collection
  | .search columns partitions collection target _ _ _ =>
    (columns ≠ [] ∧ ∀ column ∈ columns, IsColumn column) ∧
      (∀ name ∈ partitions, IsName name) ∧ IsName collection ∧ IsName target

/-- The whole statement without its semicolon. -/
def lexemes (outset : Outset levels) (given : WrittenOptions levels) : List Lexeme :=
  match outset with
  | .index name collection field =>
    ofKeyword .create :: ofKeyword .index :: ofName name :: ofKeyword .on :: ofName collection ::
      ofOperator .openParen :: ofName field :: ofOperator .closeParen ::
        ofKeyword .with :: given.lexemes
  | .delete partition collection filter =>
    ofKeyword .delete :: ofKeyword .from :: (ofTarget partition collection ++
      (filterClause filter ++ ofKeyword .with :: given.lexemes))
  | .query columns partitions collection limit offset filter =>
    ofKeyword .select :: ofSelection columns partitions collection
      (ofLimit .limit limit ++ (ofLimit .offset offset ++
        (filterClause filter ++ ofKeyword .with :: given.lexemes)))
  | .search columns partitions collection target vectors limit filter =>
    ofKeyword .select :: ofSelection columns partitions collection
      (ofKeyword .order :: ofKeyword .by :: ofName target :: ofOperator .less ::
        ofOperator .minus :: ofOperator .greater :: (vectors.lexemes ++ (ofLimit .limit limit ++
          (filterClause filter ++ ofKeyword .with :: given.lexemes))))

/-- The keys that the command holds apart. -/
def hoisted : Outset levels → List String
  | .index .. => ["index_type", "metric_type"]
  | .delete .. | .query .. => ["expr"]
  | .search .. => ["expr", "metric_type", "offset"]

/-- The command with these options. -/
def command (outset : Outset levels) (options : Mapping) : Command :=
  let others := options.without outset.hoisted
  match outset with
  | .index name collection field => .index (.create name collection field
      (some ⟨options.get? "index_type", options.get? "metric_type", others⟩))
  | .delete partition collection filter =>
    .delete ⟨collection, partition, options.filterOver (compiled filter), others⟩
  | .query columns partitions collection limit offset filter =>
    .query ⟨collection, columns, partitions, limit, offset, options.filterOver (compiled filter),
      others⟩
  | .search columns partitions collection target vectors limit filter =>
    .search ⟨collection, columns, partitions, target, vectors.vectors, limit,
      options.filterOver (compiled filter), ⟨options.get? "metric_type", options.get? "offset",
        Mapping.latest (SearchOptions.spread others.entries)⟩⟩

end Outset

/-! The rules. -/

namespace Grammar

/-- The word in front of options comes next. -/
def AtOptions (rest : List Token) : Prop :=
  ∃ token others, rest = token :: others ∧ token.kind = .keyword .with

theorem AtOptions.lacks {rest : List Token} (leads : AtOptions rest) {kind : TokenKind}
    (differs : .keyword .with ≠ kind) : Lacks kind rest := by
  obtain ⟨token, others, rfl, same⟩ := leads
  exact lacks_cons (same ▸ differs) others

theorem AtOptions.endsFilter {rest : List Token} (leads : AtOptions rest) : EndsFilter rest := by
  obtain ⟨token, others, rfl, same⟩ := leads
  intro other found
  obtain rfl := Option.some.inj found
  exact .inr (.inr same)

theorem meets_options {lexemes : List Lexeme} {before : List Token → Prop} :
    Meets (ofKeyword .with :: lexemes) before AtOptions := by
  intro tokens spells rest _
  obtain ⟨token, behind, rfl, kind, -⟩ := spells.cons_cases
  exact ⟨token, behind ++ rest, rfl, kind⟩

theorem reads_filter (filter : Option (WrittenFilter levels)) :
    Reads (compiledFilter levels) (filterClause filter) (compiled filter) AtOptions := by
  cases filter with
  | none => exact (reads_unfiltered levels).weaken fun _ leads => leads.lacks (by simp)
  | some filter =>
    have conditions : Reads (Grammar.conditions levels) filter.lexemes filter.condition AtOptions :=
      ⟨filter.writes.stand, fun _ spells rest leads =>
        (conditions_ok_iff leads.endsFilter).mpr (filter.writes.phrase spells)⟩
    exact (reads_announced .where conditions).map (Option.map Condition.predicate)

theorem meets_filter {filter : Option (WrittenFilter levels)} {others : List Lexeme}
    {before : List Token → Prop} {kind : TokenKind} (differs : .keyword .where ≠ kind)
    (meets : Meets others before (Lacks kind)) :
    Meets (filterClause filter ++ others) before (Lacks kind) := by
  cases filter with
  | none => exact meets
  | some filter => exact meets_lacks differs

theorem reads_written_options (given : WrittenOptions levels) :
    Reads (mapping levels) given.lexemes given.mapping Anything :=
  ⟨given.writes.stand, fun _ spells rest _ => (given.writes.phrase spells).reads rest⟩

theorem reads_written_clauses (filter : Option (WrittenFilter levels))
    (given : WrittenOptions levels) :
    Reads (clauses levels) (filterClause filter ++ ofKeyword .with :: given.lexemes)
      (compiled filter, given.mapping) Anything :=
  (reads_filter filter).bind
    ((reads_announced .with (reads_written_options given)).finish rfl) meets_options

theorem reads_written_vectors (vectors : WrittenVectors levels) :
    Reads (Grammar.vectors levels) vectors.lexemes vectors.vectors Anything := by
  refine ⟨vectors.writes.stand, fun tokens spells rest _ => ?_⟩
  have phrase := vectors.writes.phrase spells
  have read := phrase.reads rest
  obtain ⟨opening, others, rfl, -⟩ := phrase.head
  have seen : current (opening :: others ++ rest) = .ok (opening, opening :: others ++ rest) := rfl
  rw [Grammar.vectors, bind_of_ok seen, bind_of_ok read, vectors.split]
  rfl

/-! Statements. The options of each come with what it holds apart taken out. -/

section
variable {name collection field target : String} {partition : Option String}
  {columns partitions : List String} {limit offset : Option Int64} (given : WrittenOptions levels)

theorem reads_written_index (named : IsName name) (owned : IsName collection)
    (indexed : IsName field) :
    Reads (createIndex levels)
      (ofName name :: ofKeyword .on :: ofName collection :: ofOperator .openParen ::
        ofName field :: ofOperator .closeParen :: ofKeyword .with :: given.lexemes)
      (.create name collection field (some ⟨given.mapping.get? "index_type",
        given.mapping.get? "metric_type", given.mapping.without ["index_type", "metric_type"]⟩))
      Anything := by
  have bracketed := reads_bracketed (reads_identifier indexed) fun _ _ _ => trivial
  have options := reads_announced .with (reads_written_options given)
  rw [← IndexOptions.ofMapping_eq]
  refine (reads_identifier named).then ((reads_keyword .on).then ?_)
  refine (reads_identifier owned).then (bracketed.then ?_)
  exact options.map fun given =>
    IndexCommand.create name collection field (given.map IndexOptions.ofMapping)

theorem reads_written_delete (parted : ∀ name ∈ partition, IsName name) (named : IsName collection)
    (filter : Option (WrittenFilter levels)) :
    Reads (Grammar.delete levels)
      (ofKeyword .from :: (ofTarget partition collection ++
        (filterClause filter ++ ofKeyword .with :: given.lexemes)))
      ⟨collection, partition, given.mapping.filterOver (compiled filter),
        given.mapping.without ["expr"]⟩ Anything := by
  rw [← Mapping.filterOr_eq, ← Mapping.withoutFilter_eq]
  exact (reads_keyword .from).then ((reads_target parted named).then
    ((reads_written_clauses filter given).finish rfl))

theorem reads_written_query (filter : Option (WrittenFilter levels)) :
    Reads (Grammar.query levels columns partitions collection)
      (ofLimit .limit limit ++ (ofLimit .offset offset ++
        (filterClause filter ++ ofKeyword .with :: given.lexemes)))
      ⟨collection, columns, partitions, limit, offset, given.mapping.filterOver (compiled filter),
        given.mapping.without ["expr"]⟩ Anything := by
  rw [← Mapping.filterOr_eq, ← Mapping.withoutFilter_eq]
  refine (reads_limit .limit limit).bind ?_
    (meets_limit (by simp) (meets_filter (by simp) (meets_lacks (by simp))))
  exact (reads_limit .offset offset).bind ((reads_written_clauses filter given).finish rfl)
    (meets_filter (by simp) (meets_lacks (by simp)))

/-- The filter is taken out first, and the metric and the offset out of what is left. -/
theorem searchOptions_of_given : SearchOptions.ofMapping given.mapping.withoutFilter =
    ⟨given.mapping.get? "metric_type", given.mapping.get? "offset", Mapping.latest
      (SearchOptions.spread (given.mapping.without ["expr", "metric_type", "offset"]).entries)⟩ := by
  obtain ⟨_, phrase⟩ := given.phrase
  have others : (given.mapping.without ["expr"]).without SearchOptions.apart =
      given.mapping.without ["expr", "metric_type", "offset"] :=
    Mapping.without_without given.mapping ["expr"] SearchOptions.apart
  have kept {key : String} (other : key ≠ "expr") :
      (given.mapping.without ["expr"]).get? key = given.mapping.get? key := by
    rw [← Mapping.erase_eq_without, Mapping.get?_erase_other other]
  rw [Mapping.withoutFilter_eq,
    SearchOptions.ofMapping_eq (Mapping.without_distinct phrase.distinct _),
    kept (by decide), kept (by decide), others]

theorem reads_written_search (aimed : IsName target) (vectors : WrittenVectors levels)
    (filter : Option (WrittenFilter levels)) :
    Reads (Grammar.search levels columns partitions collection)
      (ofKeyword .order :: ofKeyword .by :: ofName target :: ofOperator .less ::
        ofOperator .minus :: ofOperator .greater :: (vectors.lexemes ++
          (ofLimit .limit limit ++ (filterClause filter ++ ofKeyword .with :: given.lexemes))))
      ⟨collection, columns, partitions, target, vectors.vectors, limit,
        given.mapping.filterOver (compiled filter), given.mapping.get? "metric_type",
        given.mapping.get? "offset", Mapping.latest (SearchOptions.spread
          (given.mapping.without ["expr", "metric_type", "offset"]).entries)⟩ Anything := by
  rw [← Mapping.filterOr_eq, ← searchOptions_of_given]
  refine (reads_keyword .order).then ((reads_keyword .by).then ?_)
  refine (reads_identifier aimed).then ((reads_operator .less).then ?_)
  refine (reads_operator .minus).then ((reads_operator .greater).then ?_)
  apply (reads_written_vectors vectors).then
  refine (reads_limit .limit limit).bind ?_ (meets_filter (by simp) (meets_lacks (by simp)))
  refine (reads_filter filter).bind ?_ meets_options
  exact (reads_keyword .with).then ((reads_written_options given).finish rfl)

end

theorem reads_outset {outset : Outset levels} (wellFormed : outset.WellFormed)
    (given : WrittenOptions levels) :
    Reads (Grammar.command levels) (outset.lexemes given) (outset.command given.mapping)
      Anything := by
  cases outset with
  | index name collection field =>
    obtain ⟨named, owned, indexed⟩ := wellFormed
    have inner := reads_written_index given named owned indexed
    apply reads_command_create
    iterate 4 refine reads_accept_skip ?_ (by simp)
    exact reads_accept_keyword .index (inner.map Command.index)
  | delete partition collection filter =>
    obtain ⟨parted, named⟩ := wellFormed
    have inner := reads_written_delete given parted named filter
    iterate 11 refine reads_accept_skip ?_ (by simp)
    exact reads_accept_keyword .delete (inner.map Command.delete)
  | query columns partitions collection limit offset filter =>
    obtain ⟨chosen, parted, named⟩ := wellFormed
    apply reads_command_select
    apply reads_selection chosen parted named
    apply reads_peek_of_lacks ((reads_written_query given filter).map Command.query)
    exact meets_limit (by simp) (meets_limit (by simp) (meets_filter (by simp)
      (meets_lacks (by simp))))
  | search columns partitions collection target vectors limit filter =>
    obtain ⟨chosen, parted, named, aimed⟩ := wellFormed
    apply reads_command_select
    apply reads_selection chosen parted named
    exact reads_peek (ofKeyword .order)
      ((reads_written_search given aimed vectors filter).map Command.search)

end Grammar

namespace Limits

/-- Of the options, the command holds some apart, and the others stay with it. In a search, an
object under `params` gives way to its entries, and only a key that is there already takes one
from another. -/
theorem read_hoisted {limits : Limits} {outset : Outset limits.maxDepth}
    (wellFormed : outset.WellFormed) (given : WrittenOptions limits.maxDepth) {text : String}
    {tokens : List Token} (short : limits.checkLength text = .ok ())
    (split : Token.sequence text = .ok tokens)
    (spells : Spells (outset.lexemes given ++ [.semicolon]) tokens) :
    let others := given.mapping.without outset.hoisted
    limits.read text = .ok (outset.command given.mapping) ∧
      given.mapping.entries.Perm (given.mapping.taken outset.hoisted ++ others.entries) ∧
      (SearchOptions.Unclashing others →
        Mapping.latest (SearchOptions.spread others.entries) =
          ⟨SearchOptions.spread others.entries⟩) := by
  intro others
  obtain ⟨_, phrase⟩ := given.phrase
  have reads := reads_ended (reads_outset wellFormed given).anywhere
  have read := reads.reads spells [] rfl
  rw [List.append_nil] at read
  refine ⟨?_, ?_, fun unclashing => ?_⟩
  · rw [Limits.read, readText_of_tokens short split read]
    rfl
  · have different : outset.hoisted.Nodup := by
      cases outset <;> simp [Outset.hoisted]
    exact Mapping.perm_without phrase.distinct different
  · refine SearchOptions.latest_spread (Mapping.without_distinct phrase.distinct _) ?_ unclashing
    intro entries found
    obtain ⟨front, behind, whole, -⟩ := List.lookup_eq_some_iff.mp found
    have inside : ("params", .object entries) ∈ others.entries := by
      rw [whole]
      simp
    exact phrase.inner_distinct (List.mem_of_mem_filter inside)

/-- A search with a number for its filter, and with one option also under `params`. -/
theorem read_hoisted_of_search :
    let text := "SELECT a FROM c ORDER BY v <-> [1, 2] LIMIT 3 WHERE x IS null WITH \x7b'metric_type': 'L2', 'n': 1, 'params': \x7b'm': 3, 'n': 2\x7d, 'expr': 5, 'k': 4\x7d;"
    let options : Mapping := ⟨[("metric_type", .text "L2"), ("n", .integer 1),
      ("params", .object [("m", .integer 3), ("n", .integer 2)]), ("expr", .integer 5),
      ("k", .integer 4)]⟩
    ({} : Limits).read text = .ok (.search ⟨"c", ["a"], [], "v", [[.integer 1, .integer 2]], some 3,
        some "5", ⟨some (.text "L2"), none, ⟨[("n", .integer 2), ("m", .integer 3),
          ("k", .integer 4)]⟩⟩⟩) ∧
      options.entries.Perm ([("expr", .integer 5), ("metric_type", .text "L2")] ++
        [("n", .integer 1), ("params", .object [("m", .integer 3), ("n", .integer 2)]),
          ("k", .integer 4)]) := by
  intro text options
  have lacks (text : String) (lacking : '\'' ∉ text.toList) : LacksQuote text :=
    ⟨'\'', rfl, lacking⟩
  have isNull : Means [ofName "x", ofKeyword .is, Lexeme.null] (ConditionsPhrase 64)
      (.isNull (.path ⟨"x", []⟩) false) := by
    intro tokens spells
    obtain ⟨x, behind, rfl, identifier, named, spells⟩ := spells.cons_cases
    obtain ⟨is, behind, rfl, word, -, spells⟩ := spells.cons_cases
    obtain ⟨null, behind, rfl, literal, -, spells⟩ := spells.cons_cases
    rw [spells.nil_cases]
    have path : PathPhrase [x] ⟨x.text, []⟩ := .path identifier .none
    rw [named] at path
    exact .unary (.predicate (.term (.unsigned (.path path))) (.isNull word .absent literal))
  have x : IsName "x" := isName_of_checked (by decide)
  let filter : WrittenFilter 64 :=
    ⟨[ofName "x", ofKeyword .is, Lexeme.null], .isNull (.path ⟨"x", []⟩) false, by
      simp [stands_ofName x, stands_ofKeyword, stands_null], isNull⟩
  let vectors : WrittenVectors 64 := ⟨_, [.integer 1, .integer 2], [[.integer 1, .integer 2]],
    writes_list (Value.items_write [.integer 1, .integer 2] 63 ⟨trivial, trivial, trivial⟩
      (by simp)), rfl⟩
  have inner : Value.Writable (.object [("m", .integer 3), ("n", .integer 2)]) 63 :=
    ⟨by decide, lacks "m" (by decide), trivial, lacks "n" (by decide), trivial, trivial⟩
  have writable : Value.EntriesWritable options.entries 63 :=
    ⟨lacks "metric_type" (by decide), lacks "L2" (by decide), lacks "n" (by decide), trivial,
      lacks "params" (by decide), inner, lacks "expr" (by decide), trivial,
      lacks "k" (by decide), trivial, trivial⟩
  let given : WrittenOptions 64 := ⟨_, options,
    writes_mapping (by decide) (Value.entries_write options.entries 63 [] (.inl rfl) writable)⟩
  let outset : Outset 64 := .search ["a"] [] "c" "v" vectors (some 3) (some filter)
  have wellFormed : outset.WellFormed := by
    refine ⟨⟨by simp, ?_⟩, nofun, isName_of_checked (by decide), isName_of_checked (by decide)⟩
    intro column inside
    obtain rfl := List.mem_singleton.mp inside
    exact .inr (.inr (isName_of_checked (by decide)))
  let tokens : List Token :=
    [⟨.keyword .select, "SELECT", 1, 1⟩, ⟨.identifier, "a", 1, 8⟩, ⟨.keyword .from, "FROM", 1, 10⟩,
      ⟨.identifier, "c", 1, 15⟩, ⟨.keyword .order, "ORDER", 1, 17⟩, ⟨.keyword .by, "BY", 1, 23⟩,
      ⟨.identifier, "v", 1, 26⟩, ⟨.operator .less, "<", 1, 28⟩, ⟨.operator .minus, "-", 1, 29⟩,
      ⟨.operator .greater, ">", 1, 30⟩, ⟨.operator .openBracket, "[", 1, 32⟩,
      ⟨.literal .integer, "1", 1, 33⟩, ⟨.separator .comma, ",", 1, 34⟩,
      ⟨.literal .integer, "2", 1, 36⟩, ⟨.operator .closeBracket, "]", 1, 37⟩,
      ⟨.keyword .limit, "LIMIT", 1, 39⟩, ⟨.literal .integer, "3", 1, 45⟩,
      ⟨.keyword .where, "WHERE", 1, 47⟩, ⟨.identifier, "x", 1, 53⟩, ⟨.keyword .is, "IS", 1, 55⟩,
      ⟨.literal .null, "null", 1, 58⟩, ⟨.keyword .with, "WITH", 1, 63⟩,
      ⟨.operator .openBrace, "\x7b", 1, 68⟩, ⟨.literal .text, "metric_type", 1, 69⟩,
      ⟨.operator .colon, ":", 1, 82⟩, ⟨.literal .text, "L2", 1, 84⟩,
      ⟨.separator .comma, ",", 1, 88⟩, ⟨.literal .text, "n", 1, 90⟩, ⟨.operator .colon, ":", 1, 93⟩,
      ⟨.literal .integer, "1", 1, 95⟩, ⟨.separator .comma, ",", 1, 96⟩,
      ⟨.literal .text, "params", 1, 98⟩, ⟨.operator .colon, ":", 1, 106⟩,
      ⟨.operator .openBrace, "\x7b", 1, 108⟩, ⟨.literal .text, "m", 1, 109⟩,
      ⟨.operator .colon, ":", 1, 112⟩, ⟨.literal .integer, "3", 1, 114⟩,
      ⟨.separator .comma, ",", 1, 115⟩, ⟨.literal .text, "n", 1, 117⟩,
      ⟨.operator .colon, ":", 1, 120⟩, ⟨.literal .integer, "2", 1, 122⟩,
      ⟨.operator .closeBrace, "\x7d", 1, 123⟩, ⟨.separator .comma, ",", 1, 124⟩,
      ⟨.literal .text, "expr", 1, 126⟩, ⟨.operator .colon, ":", 1, 132⟩,
      ⟨.literal .integer, "5", 1, 134⟩, ⟨.separator .comma, ",", 1, 135⟩,
      ⟨.literal .text, "k", 1, 137⟩, ⟨.operator .colon, ":", 1, 140⟩,
      ⟨.literal .integer, "4", 1, 142⟩, ⟨.operator .closeBrace, "\x7d", 1, 143⟩,
      ⟨.separator .semicolon, ";", 1, 144⟩]
  have short : ({} : Limits).checkLength text = .ok () := rfl
  have split : Token.sequence text = .ok tokens := by decide +kernel
  have spells : Spells (outset.lexemes given ++ [.semicolon]) tokens := spells_of_same (by rfl)
  have ⟨read, accounted, _⟩ := read_hoisted wellFormed given short split spells
  exact ⟨read, accounted⟩

end Limits

end VectorQuery
