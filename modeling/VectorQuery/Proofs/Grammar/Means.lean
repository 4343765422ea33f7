import VectorQuery.Proofs.Grammar.Phrase
import VectorQuery.Proofs.Token.Spelling
import VectorQuery.Proofs.Value.Mapping

/-! What lexemes mean: whatever tokens they become are a phrase of the grammar. Only the
kinds and the texts of the tokens count, so it is settled here how literals, lists and
objects are put together, and not how they are spelled or set apart. -/
namespace VectorQuery

open Lexeme

/-- Tokens of these lexemes are a phrase for the value. -/
def Means {α : Type} (lexemes : List Lexeme) (phrase : List Token → α → Prop) (value : α) : Prop :=
  ∀ ⦃tokens⦄, Spells lexemes tokens → phrase tokens value

/-- The token of a literal. -/
def LiteralPhrase (tokens : List Token) (value : Value) : Prop :=
  ∃ token, tokens = [token] ∧ token.literal? = some value

theorem LiteralPhrase.value {levels : Nat} {tokens : List Token} {value : Value}
    (phrase : LiteralPhrase tokens value) : ValuePhrase levels tokens value := by
  obtain ⟨token, rfl, meaning⟩ := phrase
  exact .literal meaning

/-! Literals. -/

theorem means_literal {lexeme : Lexeme} {value : Value}
    (meaning : ∀ token : Token, token.kind = lexeme.kind → token.text = lexeme.text →
      token.literal? = some value) : Means [lexeme] LiteralPhrase value := by
  intro tokens spells
  obtain ⟨token, behind, rfl, kind, text, finish⟩ := spells.cons_cases
  rw [finish.nil_cases]
  exact ⟨token, rfl, meaning token kind text⟩

theorem means_null : Means [null] LiteralPhrase .null :=
  means_literal fun _ kind _ => by rw [Token.literal?, kind]; rfl

theorem means_boolean (truth : Bool) : Means [ofBoolean truth] LiteralPhrase (.boolean truth) :=
  means_literal fun _ kind _ => by rw [Token.literal?, kind]; rfl

theorem means_integer {lexeme : Lexeme} {number : Int64} (kind : lexeme.kind = .literal .integer)
    (reads : readInteger? lexeme.text.toList = some number) :
    Means [lexeme] LiteralPhrase (.integer number) :=
  means_literal fun token kind' text => by simp [Token.literal?, kind', kind, text, reads]

theorem means_ofInteger (number : Int64) :
    Means [ofInteger number] LiteralPhrase (.integer number) :=
  means_integer rfl (by simp [ofInteger, readInteger?_writeInteger])

theorem means_ofFloatAs (layout : Binary64.Layout) {number : Binary64}
    (finite : number.isFinite = true) :
    Means [ofFloatAs layout number] LiteralPhrase (.float number) :=
  means_literal fun token kind text => by
    simp [Token.literal?, kind, text, ofFloatAs, Binary64.read?_write layout finite]

theorem means_text {lexeme : Lexeme} (kind : lexeme.kind = .literal .text) :
    Means [lexeme] LiteralPhrase (.text lexeme.text) :=
  means_literal fun token kind' text => by simp [Token.literal?, kind', kind, text]

/-! Lists and objects. -/

theorem spells_bracketed {opening closing : Lexeme} {lexemes : List Lexeme} {tokens : List Token}
    (spells : Spells (opening :: (lexemes ++ [closing])) tokens) :
    ∃ first middle last, tokens = first :: middle ++ [last] ∧ first.kind = opening.kind ∧
      last.kind = closing.kind ∧ Spells lexemes middle := by
  obtain ⟨first, behind, rfl, opens, -, inner⟩ := spells.cons_cases
  obtain ⟨middle, ending, rfl, inside, finish⟩ := inner.append_cases
  obtain ⟨last, nothing, rfl, closes, -, done⟩ := finish.cons_cases
  rw [done.nil_cases]
  exact ⟨first, middle, last, rfl, opens, closes, inside⟩

section
variable {levels : Nat} {lexemes first others : List Lexeme}

theorem means_list {items : List Value} (inner : Means lexemes (ItemsPhrase levels) items) :
    Means (ofOperator .openBracket :: (lexemes ++ [ofOperator .closeBracket]))
      (ListPhrase (levels + 1)) items := by
  intro tokens spells
  obtain ⟨first, middle, last, rfl, opens, closes, inside⟩ := spells_bracketed spells
  exact .items opens (inner inside) closes

theorem means_empty_list (levels : Nat) :
    Means [ofOperator .openBracket, ofOperator .closeBracket] (ListPhrase (levels + 1)) [] := by
  intro tokens spells
  have around : Spells (ofOperator .openBracket :: ([] ++ [ofOperator .closeBracket])) tokens :=
    spells
  obtain ⟨first, middle, last, rfl, opens, closes, inside⟩ := spells_bracketed around
  rw [inside.nil_cases]
  exact .empty opens closes

theorem means_item {item : Value} (inner : Means lexemes (ValuePhrase levels) item) :
    Means lexemes (ItemsPhrase levels) [item] :=
  fun _ spells => .one (inner spells)

theorem means_items {item : Value} {rest : List Value}
    (start : Means first (ValuePhrase levels) item)
    (behind : Means others (ItemsPhrase levels) rest) :
    Means (first ++ comma :: others) (ItemsPhrase levels) (item :: rest) := by
  intro tokens spells
  obtain ⟨front, later, rfl, head, tail⟩ := spells.append_cases
  obtain ⟨separator, last, rfl, separates, -, tail⟩ := tail.cons_cases
  exact .more (start head) separates (behind tail)

theorem means_mapping {entries : List (String × Value)} (distinct : (entries.map Prod.fst).Nodup)
    (inner : Means lexemes (EntriesPhrase levels) entries) :
    Means (ofOperator .openBrace :: (lexemes ++ [ofOperator .closeBrace]))
      (MappingPhrase (levels + 1)) ⟨entries⟩ := by
  intro tokens spells
  obtain ⟨first, middle, last, rfl, opens, closes, inside⟩ := spells_bracketed spells
  rw [← Mapping.ofList_of_distinct distinct]
  exact .entries opens (inner inside) closes

theorem means_separator {separator : List Lexeme} (isSeparator : IsSeparator separator) :
    Means separator (fun tokens _ => OptionalComma tokens) () := by
  intro tokens spells
  rcases isSeparator with rfl | rfl
  · rw [spells.nil_cases]
    exact .absent
  · obtain ⟨comma, behind, rfl, separates, -, finish⟩ := spells.cons_cases
    rw [finish.nil_cases]
    exact .present separates

theorem means_no_entries (levels : Nat) : Means [] (EntriesPhrase levels) [] := by
  intro tokens spells
  rw [spells.nil_cases]
  exact .none .absent

theorem means_entries {separator : List Lexeme} {key : Lexeme} {value : Value}
    {entries : List (String × Value)} (isSeparator : IsSeparator separator)
    (named : key.kind = .literal .text) (start : Means first (ValuePhrase levels) value)
    (behind : Means others (EntriesPhrase levels) entries) :
    Means (separator ++ key :: ofOperator .colon :: first ++ others) (EntriesPhrase levels)
      ((key.text, value) :: entries) := by
  intro tokens spells
  obtain ⟨front, later, rfl, head, tail⟩ := spells.append_cases
  obtain ⟨comma, entry, rfl, separates, inner⟩ := head.append_cases
  obtain ⟨token, assigned, rfl, kind, text, inner⟩ := inner.cons_cases
  obtain ⟨colon, body, rfl, assigns, -, inner⟩ := inner.cons_cases
  have phrase := EntriesPhrase.more (means_separator isSeparator separates) (kind.trans named)
    assigns (start inner) (behind tail)
  rw [text] at phrase
  exact phrase

end

end VectorQuery
