import VectorQuery.Proofs.Statement.Draft
import VectorQuery.Proofs.Statement.Roundtrip

/-! Statements that write rows from tuples, of any lengths and with literals in any spelling.
Each tuple makes one row, and no value leaves the place of its name. -/
namespace VectorQuery

open Lexeme Grammar

/-- What a row holds of the values at the places of these names: each name once, with the value
at its last place. -/
structure Aligned (names : List String) (values : List Value) (row : Mapping) : Prop where
  keys : row.keys = (names.take values.length).eraseDups
  last : ∀ place name, names[place]? = some name → place < values.length →
    (∀ later, place < later → later < values.length → names[later]? ≠ some name) →
    row.get? name = values[place]?

theorem map_fst_zip (names : List String) (values : List Value) :
    (names.zip values).map Prod.fst = names.take values.length := by
  induction names generalizing values with
  | nil => simp
  | cons name names ih => cases values <;> simp [ih]

/-- Of the places of a name, the last one is met first from behind. -/
theorem lookup_reverse_zip {names : List String} {values : List Value} {place : Nat}
    {name : String} (named : names[place]? = some name) (within : place < values.length)
    (last : ∀ later, place < later → later < values.length → names[later]? ≠ some name) :
    (names.zip values).reverse.lookup name = values[place]? := by
  obtain ⟨short, rfl⟩ := List.getElem?_eq_some_iff.mp named
  have inside : place < (names.zip values).length := by simp [short, within]
  have split : names.zip values = (names.zip values).take place ++
      (names[place], values[place]) :: (names.zip values).drop (place + 1) := by
    rw [← List.getElem_zip (h := inside), ← List.drop_eq_getElem_cons inside, List.take_append_drop]
  have apart : ∀ entry ∈ (names.zip values).drop (place + 1), names[place] ≠ entry.1 := by
    intro entry member same
    obtain ⟨offset, bound, rfl⟩ := List.getElem_of_mem member
    simp only [List.length_drop, List.length_zip] at bound
    have later : place + 1 + offset < names.length := by omega
    refine last (place + 1 + offset) (by omega) (by omega) ?_
    rw [List.getElem?_eq_getElem later, same]
    simp
  rw [List.getElem?_eq_getElem within]
  refine List.lookup_eq_some_iff.mpr ⟨((names.zip values).drop (place + 1)).reverse,
    ((names.zip values).take place).reverse, ?_, fun entry member => ?_⟩
  · conv_lhs => rw [split]
    simp
  · simpa using apart entry (List.mem_reverse.mp member)

/-- A statement that inserts rows or puts them in the place of others. -/
structure Insertion where
  replaces : Bool
  collection : String
  partition : Option String
  names : List String
  tuples : List (List Draft)

namespace Insertion

/-- Names stand in any order and as often as one likes, and tuples may be shorter or longer. -/
structure WellFormed (insertion : Insertion) (levels : Nat) : Prop where
  collection : IsName insertion.collection
  partition : ∀ name ∈ insertion.partition, IsName name
  named : insertion.names ≠ []
  names : ∀ name ∈ insertion.names, IsName name
  filled : insertion.tuples ≠ []
  full : ∀ tuple ∈ insertion.tuples, tuple ≠ []
  proper : ∀ tuple ∈ insertion.tuples, ∀ draft ∈ tuple, draft.Proper ∧ draft.nesting ≤ levels

def tupleLexemes (tuple : List Draft) : List Lexeme :=
  ofOperator .openParen :: (Draft.itemLexemes tuple ++ [ofOperator .closeParen])

def lexemes (insertion : Insertion) : List Lexeme :=
  ofKeyword (if insertion.replaces then .upsert else .insert) :: ofKeyword .into ::
    (ofTarget insertion.partition insertion.collection ++
      ((ofOperator .openParen :: (ofNames insertion.names ++ [ofOperator .closeParen])) ++
        ofKeyword .values :: separatedBy [] tupleLexemes insertion.tuples))

/-- The row of a tuple. No other tuple has a part in it. -/
def row (insertion : Insertion) (tuple : List Draft) : Mapping :=
  Mapping.latest (insertion.names.zip (Draft.values tuple))

def command (insertion : Insertion) : Command :=
  let write : Write :=
    ⟨insertion.collection, insertion.partition, insertion.tuples.map insertion.row⟩
  .write (if insertion.replaces then .upsert write else .insert write)

theorem row_aligned (insertion : Insertion) (tuple : List Draft) :
    Aligned insertion.names (Draft.values tuple) (insertion.row tuple) := by
  rw [row, ← Mapping.ofList_eq_latest]
  refine ⟨?_, fun place name named within last => ?_⟩
  · rw [Mapping.keys_ofList, map_fst_zip]
  · rw [Mapping.get?_ofList, lookup_reverse_zip named within last]

end Insertion

namespace Draft

theorem itemsProper_of_forall {items : List Draft} (proper : ∀ draft ∈ items, draft.Proper) :
    ItemsProper items := by
  induction items with
  | nil => trivial
  | cons item items ih =>
    obtain ⟨first, others⟩ := List.forall_mem_cons.mp proper
    exact ⟨first, ih others⟩

theorem itemsNesting_le_of_forall {items : List Draft} {levels : Nat}
    (flat : ∀ draft ∈ items, draft.nesting ≤ levels) : itemsNesting items ≤ levels := by
  induction items with
  | nil => exact Nat.zero_le levels
  | cons item items ih =>
    obtain ⟨first, others⟩ := List.forall_mem_cons.mp flat
    exact Nat.max_le.mpr ⟨first, ih others⟩

end Draft

namespace Grammar

theorem settles_row (insertion : Insertion) {tuple : List Draft} (full : tuple ≠ [])
    (levels : Nat) :
    Settles (row levels insertion.names) (Insertion.tupleLexemes tuple)
      (Draft.ItemsProper tuple ∧ Draft.itemsNesting tuple ≤ levels) (insertion.row tuple)
      Anything := by
  have values := settles_bracketed (Draft.settles_items tuple levels full)
    fun token rest closes => lacks_cons (by simp [closes]) rest
  rw [Insertion.row, ← Mapping.ofList_eq_latest]
  exact values.map fun values => Mapping.ofList (insertion.names.zip values)

theorem settles_write {insertion : Insertion} {levels : Nat}
    (wellFormed : insertion.WellFormed levels) :
    Settles (write levels)
      (ofKeyword .into :: (ofTarget insertion.partition insertion.collection ++
        ((ofOperator .openParen :: (ofNames insertion.names ++ [ofOperator .closeParen])) ++
          ofKeyword .values :: separatedBy [] Insertion.tupleLexemes insertion.tuples)))
      True ⟨insertion.collection, insertion.partition, insertion.tuples.map insertion.row⟩
      (Lacks (.separator .comma)) := by
  have header : Settles (bracketed (separated identifier))
      (ofOperator .openParen :: (ofNames insertion.names ++ [ofOperator .closeParen])) True
      insertion.names Anything :=
    (reads_bracketed (reads_names wellFormed.named wellFormed.names) fun token rest closes =>
      lacks_cons (by simp [closes]) rest).settles
  have target := (reads_target wellFormed.partition wellFormed.collection).settles
  have rows := settles_items (row_shrinking (value_sound levels).shrinking insertion.names)
    wellFormed.filled fun tuple inside =>
      settles_row insertion (wellFormed.full tuple inside) levels
  have proper : ∀ tuple ∈ insertion.tuples,
      Draft.ItemsProper tuple ∧ Draft.itemsNesting tuple ≤ levels := fun tuple inside =>
    ⟨Draft.itemsProper_of_forall fun draft member => (wellFormed.proper tuple inside draft member).1,
      Draft.itemsNesting_le_of_forall fun draft member =>
        (wellFormed.proper tuple inside draft member).2⟩
  have into := (reads_keyword .into).settles
  have values := (reads_keyword .values).settles
  refine (into.then (target.then (header.then (values.then (rows.map fun rows =>
    (⟨insertion.collection, insertion.partition, rows⟩ : Write)))))).congr ?_
  exact iff_of_true ⟨trivial, trivial, trivial, trivial, proper⟩ trivial

theorem settles_insertion {insertion : Insertion} {levels : Nat}
    (wellFormed : insertion.WellFormed levels) :
    Settles (command levels) insertion.lexemes True insertion.command EndsStatement := by
  have write := (settles_write wellFormed).weaken fun _ ends => EndsStatement.lacks ends (by simp)
  rw [Insertion.lexemes, Insertion.command]
  cases insertion.replaces with
  | false =>
    iterate 9 refine settles_accept_skip ?_ (by simp)
    exact settles_accept_keyword .insert (write.map fun write => Command.write (.insert write))
  | true =>
    iterate 10 refine settles_accept_skip ?_ (by simp)
    exact settles_accept_keyword .upsert (write.map fun write => Command.write (.upsert write))

theorem settles_ended {found : Command} {levels : Nat} {lexemes : List Lexeme} {accepted : Prop}
    (settles : Settles (command levels) lexemes accepted found EndsStatement) :
    Settles (statement levels) (lexemes ++ [.semicolon]) accepted found (· = []) := by
  have ending : Meets [.semicolon] (· = []) EndsStatement := by
    intro tokens spells rest _
    obtain ⟨token, behind, rfl, kind, -⟩ := spells.cons_cases
    exact ⟨token, behind ++ rest, rfl, kind⟩
  have stop : Reads (expect (.separator .semicolon) >>= fun _ => finished >>= fun _ => pure found)
      [.semicolon] found (· = []) :=
    (reads_expect stands_semicolon).then (reads_finished.map fun _ => found)
  exact (settles.bind stop.settles ending).congr (and_iff_left trivial)

end Grammar

namespace Limits

/-- A statement of tuples writes one row for each of them, in their order. In a row, a name has
the value at its last place, and what has no partner is dropped. -/
theorem read_rows {limits : Limits} {insertion : Insertion}
    (wellFormed : insertion.WellFormed limits.maxDepth) {text : String} {tokens : List Token}
    (short : limits.checkLength text = .ok ()) (split : Token.sequence text = .ok tokens)
    (spells : Spells (insertion.lexemes ++ [.semicolon]) tokens) :
    limits.read text = .ok insertion.command ∧
      ∀ tuple ∈ insertion.tuples,
        Aligned insertion.names (Draft.values tuple) (insertion.row tuple) := by
  have read := (settles_ended (settles_insertion wellFormed)).reads trivial spells [] rfl
  rw [List.append_nil] at read
  refine ⟨?_, fun tuple _ => insertion.row_aligned tuple⟩
  rw [Limits.read, readText_of_tokens short split read]
  rfl

/-- A name given twice, a tuple with less than the names and one with more. -/
theorem read_rows_of_repeated_name :
    let number (number : Int64) : Draft :=
      .scalar ⟨ofInteger number, .integer number, means_ofInteger number⟩
    let insertion : Insertion := ⟨true, "t", some "p", ["a", "b", "a", "c"],
      [[number 1, .list [number 2, number 3]], [number 4, number 5, number 6, number 7, number 8]]⟩
    let text := "Upsert into partition p on t(a, b, a, c) VALUES (1, [2, 3]), (4, 5, 6, 7, 8);"
    insertion.WellFormed 64 ∧
      ({} : Limits).read text = .ok (.write (.upsert ⟨"t", some "p",
        [⟨[("a", .integer 1), ("b", .array [.integer 2, .integer 3])]⟩,
          ⟨[("a", .integer 6), ("b", .integer 5), ("c", .integer 7)]⟩]⟩)) ∧
      ∀ tuple ∈ insertion.tuples,
        Aligned insertion.names (Draft.values tuple) (insertion.row tuple) := by
  intro number insertion text
  have names : ∀ name ∈ insertion.names, IsName name := by
    simp only [insertion, List.forall_mem_cons]
    have a : IsName "a" := isName_of_checked (by decide)
    exact ⟨a, isName_of_checked (by decide), a, isName_of_checked (by decide), nofun⟩
  have wellFormed : insertion.WellFormed 64 := by
    refine ⟨isName_of_checked (by decide), ?_, by decide, names, nofun, ?_, ?_⟩
    · rintro name given
      obtain rfl := Option.some.inj given
      exact isName_of_checked (by decide)
    · simp [insertion]
    · simp [insertion, number, Draft.Proper, Draft.ItemsProper, Draft.nesting, Draft.itemsNesting]
  let tokens : List Token :=
    [⟨.keyword .upsert, "UPSERT", 1, 1⟩, ⟨.keyword .into, "INTO", 1, 8⟩,
      ⟨.keyword .partition, "PARTITION", 1, 13⟩, ⟨.identifier, "p", 1, 23⟩,
      ⟨.keyword .on, "ON", 1, 25⟩, ⟨.identifier, "t", 1, 28⟩, ⟨.operator .openParen, "(", 1, 29⟩,
      ⟨.identifier, "a", 1, 30⟩, ⟨.separator .comma, ",", 1, 31⟩, ⟨.identifier, "b", 1, 33⟩,
      ⟨.separator .comma, ",", 1, 34⟩, ⟨.identifier, "a", 1, 36⟩, ⟨.separator .comma, ",", 1, 37⟩,
      ⟨.identifier, "c", 1, 39⟩, ⟨.operator .closeParen, ")", 1, 40⟩,
      ⟨.keyword .values, "VALUES", 1, 42⟩, ⟨.operator .openParen, "(", 1, 49⟩,
      ⟨.literal .integer, "1", 1, 50⟩, ⟨.separator .comma, ",", 1, 51⟩,
      ⟨.operator .openBracket, "[", 1, 53⟩, ⟨.literal .integer, "2", 1, 54⟩,
      ⟨.separator .comma, ",", 1, 55⟩, ⟨.literal .integer, "3", 1, 57⟩,
      ⟨.operator .closeBracket, "]", 1, 58⟩, ⟨.operator .closeParen, ")", 1, 59⟩,
      ⟨.separator .comma, ",", 1, 60⟩, ⟨.operator .openParen, "(", 1, 62⟩,
      ⟨.literal .integer, "4", 1, 63⟩, ⟨.separator .comma, ",", 1, 64⟩,
      ⟨.literal .integer, "5", 1, 66⟩, ⟨.separator .comma, ",", 1, 67⟩,
      ⟨.literal .integer, "6", 1, 69⟩, ⟨.separator .comma, ",", 1, 70⟩,
      ⟨.literal .integer, "7", 1, 72⟩, ⟨.separator .comma, ",", 1, 73⟩,
      ⟨.literal .integer, "8", 1, 75⟩, ⟨.operator .closeParen, ")", 1, 76⟩,
      ⟨.separator .semicolon, ";", 1, 77⟩]
  have split : Token.sequence text = .ok tokens := by decide +kernel
  have spells : Spells (insertion.lexemes ++ [.semicolon]) tokens := spells_of_same (by rfl)
  have short : ({} : Limits).checkLength text = .ok () := rfl
  have ⟨read, aligned⟩ := read_rows wellFormed short split spells
  exact ⟨wellFormed, read, aligned⟩

end Limits

end VectorQuery
