import VectorQuery.Proofs.Grammar.Settles
import VectorQuery.Proofs.Statement.Value
import VectorQuery.Proofs.Value.Latest

/-! Literals as they are written, right or wrong. A draft may hold keys again and again, any
number of commas in front of an entry, keys without quotes and entries without a colon. The
rules read just those drafts that have no such flaw and nest within the levels, and the value
they read takes the last of equal keys, at every level. -/
namespace VectorQuery

open Lexeme Grammar

/-- A literal other than a list or an object, in any spelling. -/
structure Scalar where
  lexeme : Lexeme
  value : Value
  means : Means [lexeme] LiteralPhrase value

/-- What stands in front of the value of an entry: commas, a key and perhaps a colon. -/
structure EntryHead where
  commas : Nat
  key : Lexeme
  colon : Bool
  isKey : key.kind ≠ .separator .comma ∧ key.kind ≠ .operator .closeBrace

namespace EntryHead

def assignment (head : EntryHead) : List Lexeme :=
  if head.colon then [ofOperator .colon] else []

/-- At most one comma, a quoted key, and a colon. -/
structure Proper (head : EntryHead) : Prop where
  commas : head.commas ≤ 1
  quoted : head.key.kind = .literal .text
  colon : head.colon = true

end EntryHead

/-- A literal as it is written. The number counts the commas in front of the closing brace. -/
inductive Draft where
  | scalar (scalar : Scalar)
  | list (items : List Draft)
  | object (entries : List (EntryHead × Draft)) (commas : Nat)

namespace Draft

mutual
def lexemes : Draft → List Lexeme
  | .scalar literal => [literal.lexeme]
  | .list items => ofOperator .openBracket :: (itemLexemes items ++ [ofOperator .closeBracket])
  | .object entries commas =>
    ofOperator .openBrace :: (entryLexemes entries ++
      (List.replicate commas .comma ++ [ofOperator .closeBrace]))

def itemLexemes : List Draft → List Lexeme
  | [] => []
  | [item] => item.lexemes
  | item :: second :: rest => item.lexemes ++ .comma :: itemLexemes (second :: rest)

def entryLexemes : List (EntryHead × Draft) → List Lexeme
  | [] => []
  | (head, value) :: rest =>
    (List.replicate head.commas .comma ++ head.key :: (head.assignment ++ value.lexemes)) ++
      entryLexemes rest
end

mutual
/-- The value that is meant. -/
def value : Draft → Value
  | .scalar literal => literal.value
  | .list items => .array (values items)
  | .object entries _ => (Mapping.latest (entryValues entries)).toValue

def values : List Draft → List Value
  | [] => []
  | item :: rest => item.value :: values rest

def entryValues : List (EntryHead × Draft) → List (String × Value)
  | [] => []
  | (head, value) :: rest => (head.key.text, value.value) :: entryValues rest
end

mutual
/-- No object of the draft, at any level, has two commas together, a key without quotes or an
entry without a colon. -/
def Proper : Draft → Prop
  | .scalar _ => True
  | .list items => ItemsProper items
  | .object entries commas => EntriesProper entries ∧ commas ≤ 1

def ItemsProper : List Draft → Prop
  | [] => True
  | item :: rest => item.Proper ∧ ItemsProper rest

def EntriesProper : List (EntryHead × Draft) → Prop
  | [] => True
  | (head, value) :: rest => head.Proper ∧ value.Proper ∧ EntriesProper rest
end

mutual
/-- How many brackets are open at once, those of entries that give way included. -/
def nesting : Draft → Nat
  | .scalar _ => 0
  | .list items => itemsNesting items + 1
  | .object entries _ => entriesNesting entries + 1

def itemsNesting : List Draft → Nat
  | [] => 0
  | item :: rest => max item.nesting (itemsNesting rest)

def entriesNesting : List (EntryHead × Draft) → Nat
  | [] => 0
  | (_, value) :: rest => max value.nesting (entriesNesting rest)
end

end Draft

namespace Grammar

/-! Entries. -/

theorem settles_assignment (head : EntryHead) :
    Settles (operator .colon) head.assignment (head.colon = true) ()
      (Lacks (.operator .colon)) := by
  cases colon : head.colon with
  | true =>
    rw [EntryHead.assignment, colon]
    exact ((settles_operator .colon).weaken fun _ _ => trivial).congr (by simp)
  | false =>
    rw [EntryHead.assignment, colon]
    refine settles_of_refuses (by simp) fun tokens spells rest lacks => ?_
    rw [spells.nil_cases]
    exact expect_of_lacks lacks

/-- An entry or the end of the mapping, behind the comma. -/
def entryBody (item : Rule Value) : Rule (Option (String × Value)) := do
  if ← accept (.operator .closeBrace) then return none
  else
    let key ← text
    operator .colon
    return some (key, ← item)

theorem entryBody_of_comma (item : Rule Value) (token : Token) (rest : List Token)
    (kind : token.kind = .separator .comma) :
    ∃ fault, entryBody item (token :: rest) = .error fault := by
  have lacks : Lacks (.operator .closeBrace) (token :: rest) := lacks_cons (by simp [kind]) rest
  refine ⟨.unexpected token, ?_⟩
  rw [entryBody, accept_bind_of_lacks lacks]
  exact bind_of_error (by simp [text, take, kind]) _

theorem settles_close (item : Rule Value) (commas : Nat) :
    Settles (entry item) (List.replicate commas .comma ++ [ofOperator .closeBrace]) (commas ≤ 1)
      none Anything := by
  have closes : Settles (entryBody item) [ofOperator .closeBrace] True none Anything :=
    (settles_pure none).behind fun token rest kind => accept_bind_cons kind rest
  exact (settles_commas (entryBody_of_comma item) closes (meets_lacks (by simp)) commas).congr
    (and_iff_left trivial)

theorem settles_entry {item : Rule Value} {lexemes : List Lexeme} {accepted : Prop} {value : Value}
    (head : EntryHead) (settles : Settles item lexemes accepted value Anything)
    (lacks : Meets lexemes Anything (Lacks (.operator .colon))) :
    Settles (entry item)
      (List.replicate head.commas .comma ++ head.key :: (head.assignment ++ lexemes))
      (head.Proper ∧ accepted) (some (head.key.text, value)) Anything := by
  have keyed : Settles (text >>= fun key => operator .colon >>= fun _ => item >>= fun value =>
      pure (some (key, value))) (head.key :: (head.assignment ++ lexemes))
      (head.key.kind = .literal .text ∧ head.colon = true ∧ accepted)
      (some (head.key.text, value)) Anything :=
    (settles_text head.key).bind
      ((settles_assignment head).bind (settles.map _) lacks) meets_anything
  have body : Settles (entryBody item) (head.key :: (head.assignment ++ lexemes))
      (head.key.kind = .literal .text ∧ head.colon = true ∧ accepted)
      (some (head.key.text, value)) Anything := by
    refine keyed.of_eq fun tokens spells rest held => ?_
    exact accept_bind_of_lacks (meets_lacks head.isKey.2 spells rest held)
  refine (settles_commas (entryBody_of_comma item) body (meets_lacks head.isKey.1)
    head.commas).congr ⟨?_, ?_⟩
  · rintro ⟨few, quoted, colon, holds⟩
    exact ⟨⟨few, quoted, colon⟩, holds⟩
  · rintro ⟨⟨few, quoted, colon⟩, holds⟩
    exact ⟨few, quoted, colon, holds⟩

end Grammar

/-! Drafts. -/

theorem Scalar.literal?_eq (scalar : Scalar) {token : Token} (kind : token.kind = scalar.lexeme.kind)
    (text : token.text = scalar.lexeme.text) : token.literal? = some scalar.value := by
  obtain ⟨token', same, meaning⟩ := scalar.means (.cons ⟨kind, text⟩ .nil)
  obtain rfl := List.singleton_inj.mp same
  exact meaning

namespace Draft

/-- No draft starts with a symbol that stands between drafts. -/
theorem lexemes_head (draft : Draft) :
    ∃ first others, draft.lexemes = first :: others ∧ first.kind ≠ .separator .comma ∧
      first.kind ≠ .operator .colon ∧ first.kind ≠ .operator .closeBracket := by
  cases draft with
  | scalar literal =>
    obtain ⟨form, kind⟩ := literal?_kind
      (@Scalar.literal?_eq literal ⟨literal.lexeme.kind, literal.lexeme.text, 0, 0⟩ rfl rfl)
    have kind : literal.lexeme.kind = .literal form := kind
    exact ⟨literal.lexeme, [], by simp [lexemes], by simp [kind]⟩
  | list items =>
    exact ⟨ofOperator .openBracket, _, by rw [lexemes], by simp⟩
  | object entries commas =>
    exact ⟨ofOperator .openBrace, _, by rw [lexemes], by simp⟩

theorem itemLexemes_head (item : Draft) (items : List Draft) :
    ∃ first others, itemLexemes (item :: items) = first :: others ∧
      first.kind ≠ .operator .closeBracket := by
  obtain ⟨first, others, written, -, -, differs⟩ := item.lexemes_head
  cases items with
  | nil => exact ⟨first, others, by rw [itemLexemes, written], differs⟩
  | cons second rest => exact ⟨first, _, by rw [itemLexemes, written, List.cons_append], differs⟩

theorem meets_lacks_colon (draft : Draft) {before : List Token → Prop} :
    Meets draft.lexemes before (Lacks (.operator .colon)) := by
  obtain ⟨first, others, written, -, differs, -⟩ := draft.lexemes_head
  rw [written]
  exact meets_lacks differs

theorem settles_scalar (literal : Scalar) (levels : Nat) :
    Settles (Grammar.value levels) [literal.lexeme] True literal.value Anything := by
  refine settles_of_reads trivial fun tokens spells rest _ => ?_
  obtain ⟨token, behind, rfl, kind, text, finish⟩ := spells.cons_cases
  rw [finish.nil_cases, value_eq]
  exact valueWith_of_literal (literal.literal?_eq kind text) rest

theorem settles_tooDeep {α : Type} {lexemes : List Lexeme} {accepted : Prop} {value : α}
    (fails : ¬accepted) : Settles tooDeep lexemes accepted value Anything :=
  settles_of_refuses fails fun tokens _ rest _ => ⟨.tooDeep (tokens ++ rest).head?, rfl⟩

/-- A value that opens with a bracket is the list that it opens. -/
theorem settles_value_of_list {levels : Nat} {lexemes : List Lexeme} {accepted : Prop}
    {items : List Value}
    (settles : Settles (Grammar.list levels) (ofOperator .openBracket :: lexemes) accepted items
      Anything) :
    Settles (Grammar.value levels) (ofOperator .openBracket :: lexemes) accepted (.array items)
      Anything := by
  refine (settles.map Value.array).of_eq fun tokens spells rest _ => ?_
  obtain ⟨token, behind, rfl, kind, -, -⟩ := spells.cons_cases
  have opens : token.kind = .operator .openBracket := kind
  rw [value_eq, valueWith, List.cons_append, bind_of_ok (peek_apply _)]
  simp only [List.head?_cons, Option.map_some, opens]

theorem settles_value_of_mapping {levels : Nat} {lexemes : List Lexeme} {accepted : Prop}
    {mapping : Mapping}
    (settles : Settles (Grammar.mapping levels) (ofOperator .openBrace :: lexemes) accepted mapping
      Anything) :
    Settles (Grammar.value levels) (ofOperator .openBrace :: lexemes) accepted mapping.toValue
      Anything := by
  refine (settles.map Mapping.toValue).of_eq fun tokens spells rest _ => ?_
  obtain ⟨token, behind, rfl, kind, -, -⟩ := spells.cons_cases
  have opens : token.kind = .operator .openBrace := kind
  rw [value_eq, valueWith, List.cons_append, bind_of_ok (peek_apply _)]
  simp only [List.head?_cons, Option.map_some, opens]

theorem settles_listOf_nil (item : Rule Value) :
    Settles (listOf item) [ofOperator .openBracket, ofOperator .closeBracket] True [] Anything := by
  have closes : Settles (accept (.operator .closeBracket) >>= fun found =>
      if found = true then pure [] else separated item >>= fun items =>
        operator .closeBracket >>= fun _ => pure items)
      [ofOperator .closeBracket] True [] Anything :=
    (settles_pure []).behind fun token rest kind => accept_bind_cons kind rest
  exact ((settles_operator .openBracket).bind closes meets_anything).congr (by simp)

theorem settles_listOf {item : Rule Value} {lexemes : List Lexeme} {accepted : Prop}
    {items : List Value}
    (settles : Settles (separated item) lexemes accepted items (Lacks (.separator .comma)))
    (lacks : Meets (lexemes ++ [ofOperator .closeBracket]) Anything
      (Lacks (.operator .closeBracket))) :
    Settles (listOf item) (ofOperator .openBracket :: (lexemes ++ [ofOperator .closeBracket]))
      accepted items Anything := by
  have filled : Settles (separated item >>= fun items => operator .closeBracket >>= fun _ =>
      pure items) (lexemes ++ [ofOperator .closeBracket]) (accepted ∧ True) items Anything :=
    settles.bind ((settles_operator .closeBracket).map fun _ => items) (meets_lacks (by simp))
  refine ((settles_operator .openBracket).bind (filled.of_eq fun tokens spells rest held => ?_)
    meets_anything).congr (by simp)
  exact accept_bind_of_lacks (lacks spells rest held)

theorem settles_mappingOf {item : Rule Value} {lexemes : List Lexeme} {accepted : Prop}
    {entries : List (String × Value)}
    (settles : Settles (many (entry item)) lexemes accepted entries Anything) :
    Settles (mappingOf item) (ofOperator .openBrace :: lexemes) accepted (Mapping.latest entries)
      Anything := by
  rw [← Mapping.ofList_eq_latest]
  exact ((settles_operator .openBrace).bind (settles.map Mapping.ofList) meets_anything).congr
    (by simp)

theorem settles_mapping {entries : List (EntryHead × Draft)} {commas : Nat} (levels : Nat)
    (inner : ∀ levels, Settles (many (entry (Grammar.value levels)))
      (entryLexemes entries ++ (List.replicate commas .comma ++ [ofOperator .closeBrace]))
      ((EntriesProper entries ∧ commas ≤ 1) ∧ entriesNesting entries ≤ levels)
      (entryValues entries) Anything) :
    Settles (Grammar.mapping levels) (object entries commas).lexemes
      ((object entries commas).Proper ∧ (object entries commas).nesting ≤ levels)
      (Mapping.latest (entryValues entries)) Anything := by
  rw [lexemes]
  cases levels with
  | zero => exact settles_tooDeep (by simp [nesting])
  | succ levels =>
    exact (settles_mappingOf (inner levels)).congr (by simp [Proper, nesting])

-- The induction is on the draft; a list or an object hands one level less to what is in it.
mutual
theorem settles : (draft : Draft) → (levels : Nat) →
    Settles (Grammar.value levels) draft.lexemes (draft.Proper ∧ draft.nesting ≤ levels)
      draft.value Anything
  | .scalar literal, levels => by
    rw [lexemes, value]
    exact (settles_scalar literal levels).congr (by simp [Proper, nesting])
  | .list items, levels => by
    rw [lexemes, value]
    apply settles_value_of_list
    cases levels with
    | zero => exact settles_tooDeep (by simp [nesting])
    | succ levels =>
      have inner := settles_items items levels
      cases items with
      | nil =>
        rw [itemLexemes, List.nil_append]
        exact (settles_listOf_nil _).congr (by simp [Proper, ItemsProper, nesting, itemsNesting])
      | cons item items =>
        obtain ⟨first, others, written, differs⟩ := itemLexemes_head item items
        refine (settles_listOf (inner (by simp)) ?_).congr (by simp [Proper, nesting])
        rw [written]
        exact meets_lacks differs
  | .object entries commas, levels => by
    have mapping := settles_mapping levels (settles_entries entries commas)
    rw [lexemes] at mapping ⊢
    rw [value]
    exact settles_value_of_mapping mapping

theorem settles_items : (items : List Draft) → (levels : Nat) → items ≠ [] →
    Settles (separated (Grammar.value levels)) (itemLexemes items)
      (ItemsProper items ∧ itemsNesting items ≤ levels) (values items) (Lacks (.separator .comma))
  | [], _, filled => absurd rfl filled
  | [item], levels, _ => by
    have one := settles_separated_one (value_sound levels).shrinking (settles item levels)
    exact one.congr (by simp [ItemsProper, itemsNesting])
  | item :: second :: rest, levels, _ => by
    have behind := settles_items (second :: rest) levels (by simp)
    rw [itemLexemes, values]
    refine (settles_separated_cons (value_sound levels).shrinking (settles item levels)
      behind).congr ?_
    change _ ↔ (item.Proper ∧ ItemsProper (second :: rest)) ∧
      max item.nesting (itemsNesting (second :: rest)) ≤ levels
    rw [Nat.max_le]
    exact and_and_and_comm

theorem settles_entries : (entries : List (EntryHead × Draft)) → (commas levels : Nat) →
    Settles (many (entry (Grammar.value levels)))
      (entryLexemes entries ++ (List.replicate commas .comma ++ [ofOperator .closeBrace]))
      ((EntriesProper entries ∧ commas ≤ 1) ∧ entriesNesting entries ≤ levels)
      (entryValues entries) Anything
  | [], commas, levels => by
    rw [entryLexemes, entryValues, List.nil_append]
    exact (settles_many_nil (entry_consuming (value_sound levels).shrinking)
      (settles_close _ commas)).congr (by simp [EntriesProper, entriesNesting])
  | (head, value) :: rest, commas, levels => by
    have first := settles_entry head (settles value levels) value.meets_lacks_colon
    have behind := settles_entries rest commas levels
    rw [entryLexemes, entryValues, List.append_assoc]
    refine (settles_many_cons (entry_consuming (value_sound levels).shrinking) first behind).congr ?_
    rw [EntriesProper, entriesNesting, Nat.max_le]
    grind
end

end Draft

namespace Grammar

/-- An object is read up to its brace, and of its entries those that come latest stand, at every
level. Two commas together, a key without quotes or an entry without a colon are not read. -/
theorem mapping_merges (entries : List (EntryHead × Draft)) (commas levels : Nat)
    {tokens : List Token} (spells : Spells (Draft.object entries commas).lexemes tokens)
    (rest : List Token) :
    ((Draft.object entries commas).Proper → (Draft.object entries commas).nesting ≤ levels →
      mapping levels (tokens ++ rest) =
        .ok (Mapping.latest (Draft.entryValues entries), rest)) ∧
    (¬(Draft.object entries commas).Proper →
      ∃ fault, mapping levels (tokens ++ rest) = .error fault) := by
  have settled := Draft.settles_mapping levels (Draft.settles_entries entries commas)
  refine ⟨fun proper flat => ?_, fun flawed => ?_⟩
  · exact settled.reads ⟨proper, flat⟩ spells rest trivial
  · exact settled.refuses (fun both => flawed both.1) spells rest trivial

/-- Keys given twice on both levels, with commas and without; and two commas in an object that
is in another. -/
theorem mapping_merges_nested :
    let number (number : Int64) : Draft :=
      .scalar ⟨ofInteger number, .integer number, means_ofInteger number⟩
    let key (commas : Nat) (name : String) : EntryHead :=
      ⟨commas, ofText name, true, by simp [ofText], by simp [ofText]⟩
    let inner : Draft := .object [(key 0 "k", number 1), (key 1 "k", .list [number 2])] 1
    let entries := [(key 1 "a", number 3), (key 0 "b", inner), (key 1 "a", number 4)]
    let flawed := [(key 0 "a", Draft.object [] 2)]
    let text := "\x7b, 'a': 3 'b': \x7b'k': 1, 'k': [2],\x7d, 'a': 4\x7d;"
    let text' := "\x7b'a': \x7b,,\x7d\x7d;"
    (∃ tokens rest, Token.sequence text = .ok (tokens ++ rest) ∧
      Spells (Draft.object entries 0).lexemes tokens ∧
      mapping 3 (tokens ++ rest) = .ok (⟨[("a", .integer 4),
        ("b", .object [("k", .array [.integer 2])])]⟩, rest)) ∧
    (∃ tokens rest, Token.sequence text' = .ok (tokens ++ rest) ∧
      Spells (Draft.object flawed 0).lexemes tokens ∧
      ∃ fault, mapping 2 (tokens ++ rest) = .error fault) := by
  intro number key inner entries flawed text text'
  let tokens : List Token :=
    [⟨.operator .openBrace, "\x7b", 1, 1⟩, ⟨.separator .comma, ",", 1, 2⟩,
      ⟨.literal .text, "a", 1, 4⟩, ⟨.operator .colon, ":", 1, 7⟩, ⟨.literal .integer, "3", 1, 9⟩,
      ⟨.literal .text, "b", 1, 11⟩, ⟨.operator .colon, ":", 1, 14⟩,
      ⟨.operator .openBrace, "\x7b", 1, 16⟩, ⟨.literal .text, "k", 1, 17⟩,
      ⟨.operator .colon, ":", 1, 20⟩, ⟨.literal .integer, "1", 1, 22⟩,
      ⟨.separator .comma, ",", 1, 23⟩, ⟨.literal .text, "k", 1, 25⟩,
      ⟨.operator .colon, ":", 1, 28⟩, ⟨.operator .openBracket, "[", 1, 30⟩,
      ⟨.literal .integer, "2", 1, 31⟩, ⟨.operator .closeBracket, "]", 1, 32⟩,
      ⟨.separator .comma, ",", 1, 33⟩, ⟨.operator .closeBrace, "\x7d", 1, 34⟩,
      ⟨.separator .comma, ",", 1, 35⟩, ⟨.literal .text, "a", 1, 37⟩,
      ⟨.operator .colon, ":", 1, 40⟩, ⟨.literal .integer, "4", 1, 42⟩,
      ⟨.operator .closeBrace, "\x7d", 1, 43⟩]
  let others : List Token :=
    [⟨.operator .openBrace, "\x7b", 1, 1⟩, ⟨.literal .text, "a", 1, 2⟩,
      ⟨.operator .colon, ":", 1, 5⟩, ⟨.operator .openBrace, "\x7b", 1, 7⟩,
      ⟨.separator .comma, ",", 1, 8⟩, ⟨.separator .comma, ",", 1, 9⟩,
      ⟨.operator .closeBrace, "\x7d", 1, 10⟩, ⟨.operator .closeBrace, "\x7d", 1, 11⟩]
  have spells : Spells (Draft.object entries 0).lexemes tokens := spells_of_same (by rfl)
  have spells' : Spells (Draft.object flawed 0).lexemes others := spells_of_same (by rfl)
  have headed (commas : Nat) (name : String) (few : commas ≤ 1) : (key commas name).Proper :=
    ⟨few, rfl, rfl⟩
  have proper : (Draft.object entries 0).Proper := by
    simp [entries, inner, number, headed, Draft.Proper, Draft.EntriesProper, Draft.ItemsProper]
  have broken : ¬(Draft.object flawed 0).Proper := by
    simp [flawed, Draft.Proper, Draft.EntriesProper]
  refine ⟨⟨tokens, [⟨.separator .semicolon, ";", 1, 44⟩], by decide +kernel, spells, ?_⟩,
    ⟨others, [⟨.separator .semicolon, ";", 1, 12⟩], by decide +kernel, spells', ?_⟩⟩
  · exact (mapping_merges entries 0 3 spells _).1 proper (by decide)
  · exact (mapping_merges flawed 0 2 spells' _).2 broken

end Grammar

end VectorQuery
