import VectorQuery.Proofs.Grammar.Means
import VectorQuery.Proofs.Grammar.Reads
import VectorQuery.Proofs.Grammar.Value
import VectorQuery.Proofs.Statement.Written

/-! Written values are phrases of the grammar, and the rules for values read them back. -/
namespace VectorQuery

open Grammar Lexeme

/-- The lexemes stand by themselves, and their tokens are a phrase for the value. -/
structure Writes {α : Type} (lexemes : List Lexeme) (phrase : List Token → α → Prop)
    (value : α) : Prop where
  stand : ∀ lexeme ∈ lexemes, lexeme.Stands
  phrase : Means lexemes phrase value

theorem writes_literal {levels : Nat} {lexeme : Lexeme} {value : Value} (stands : lexeme.Stands)
    (means : Means [lexeme] LiteralPhrase value) : Writes [lexeme] (ValuePhrase levels) value :=
  ⟨by simpa using stands, fun _ spells => (means spells).value⟩

theorem stand_bracketed {opening closing : Operator} {lexemes : List Lexeme}
    (stand : ∀ lexeme ∈ lexemes, lexeme.Stands) :
    ∀ lexeme ∈ ofOperator opening :: (lexemes ++ [ofOperator closing]), lexeme.Stands := by
  intro lexeme inside
  simp only [List.mem_cons, List.mem_append, List.not_mem_nil, or_false] at inside
  rcases inside with rfl | inside | rfl
  · exact stands_ofOperator opening
  · exact stand lexeme inside
  · exact stands_ofOperator closing

theorem writes_list {levels : Nat} {lexemes : List Lexeme} {items : List Value}
    (inner : Writes lexemes (ItemsPhrase levels) items) :
    Writes (ofOperator .openBracket :: (lexemes ++ [ofOperator .closeBracket]))
      (ListPhrase (levels + 1)) items :=
  ⟨stand_bracketed inner.stand, means_list inner.phrase⟩

theorem writes_empty_list (levels : Nat) :
    Writes [ofOperator .openBracket, ofOperator .closeBracket] (ListPhrase (levels + 1)) [] := by
  have stand : ∀ lexeme ∈ ([] : List Lexeme), lexeme.Stands := by simp
  exact ⟨stand_bracketed stand, means_empty_list levels⟩

theorem writes_mapping {levels : Nat} {lexemes : List Lexeme} {entries : List (String × Value)}
    (distinct : (entries.map Prod.fst).Nodup)
    (inner : Writes lexemes (EntriesPhrase levels) entries) :
    Writes (ofOperator .openBrace :: (lexemes ++ [ofOperator .closeBrace]))
      (MappingPhrase (levels + 1)) ⟨entries⟩ :=
  ⟨stand_bracketed inner.stand, means_mapping distinct inner.phrase⟩

theorem writes_items {levels : Nat} {first others : List Lexeme} {item : Value} {rest : List Value}
    (start : Writes first (ValuePhrase levels) item)
    (behind : Writes others (ItemsPhrase levels) rest) :
    Writes (first ++ .comma :: others) (ItemsPhrase levels) (item :: rest) := by
  refine ⟨fun lexeme inside => ?_, means_items start.phrase behind.phrase⟩
  rcases List.mem_append.mp inside with inside | inside
  · exact start.stand lexeme inside
  · rcases List.mem_cons.mp inside with rfl | inside
    · exact stands_comma
    · exact behind.stand lexeme inside

theorem stand_separator {separator : List Lexeme} (isSeparator : IsSeparator separator) :
    ∀ lexeme ∈ separator, lexeme.Stands := by
  rcases isSeparator with rfl | rfl
  · simp
  · simpa using stands_comma

theorem writes_entries {levels : Nat} {separator first others : List Lexeme} {key : String}
    {value : Value} {entries : List (String × Value)} (isSeparator : IsSeparator separator)
    (lacks : LacksQuote key) (start : Writes first (ValuePhrase levels) value)
    (behind : Writes others (EntriesPhrase levels) entries) :
    Writes (separator ++ ofText key :: ofOperator .colon :: first ++ others)
      (EntriesPhrase levels) ((key, value) :: entries) := by
  refine ⟨fun lexeme inside => ?_, means_entries isSeparator rfl start.phrase behind.phrase⟩
  simp only [List.mem_append, List.mem_cons] at inside
  rcases inside with (inside | rfl | rfl | inside) | inside
  · exact stand_separator isSeparator lexeme inside
  · exact stands_ofText lacks
  · exact stands_ofOperator .colon
  · exact start.stand lexeme inside
  · exact behind.stand lexeme inside

mutual
theorem Value.writes : (value : Value) → (levels : Nat) → value.Writable levels →
    Writes value.lexemes (ValuePhrase levels) value
  | .null, _, _ => writes_literal stands_null means_null
  | .boolean truth, _, _ => writes_literal (stands_ofBoolean truth) (means_boolean truth)
  | .integer number, _, _ => writes_literal (stands_ofInteger number) (means_ofInteger number)
  | .float _, _, finite => writes_literal (stands_ofFloat finite) (means_ofFloatAs _ finite)
  | .text _, _, lacks => writes_literal (stands_ofText lacks) (means_text rfl)
  | .array items, levels, writable => by
    have inner := Value.items_write items
    cases levels with
    | zero => exact writable.elim
    | succ levels =>
      have list : Writes (Value.array items).lexemes (ListPhrase (levels + 1)) items := by
        by_cases empty : items = []
        · subst empty
          exact writes_empty_list levels
        · exact writes_list (inner levels writable empty)
      exact ⟨list.stand, fun _ spells => .list (list.phrase spells)⟩
  | .object entries, levels, writable => by
    have inner := Value.entries_write entries
    cases levels with
    | zero => exact writable.elim
    | succ levels =>
      obtain ⟨distinct, writable⟩ := writable
      have mapping := writes_mapping distinct (inner levels [] (.inl rfl) writable)
      exact ⟨mapping.stand, fun _ spells => .mapping (mapping.phrase spells)⟩

theorem Value.items_write : (items : List Value) → (levels : Nat) →
    Value.ItemsWritable items levels → items ≠ [] →
    Writes (Value.itemLexemes [] items) (ItemsPhrase levels) items
  | [], _, _, filled => absurd rfl filled
  | item :: rest, levels, ⟨writable, others⟩, _ => by
    have start := Value.writes item levels writable
    have behind := Value.items_write rest levels others
    cases rest with
    | nil =>
      have written : Value.itemLexemes [] [item] = item.lexemes := by simp [Value.itemLexemes]
      rw [written]
      exact ⟨start.stand, means_item start.phrase⟩
    | cons second rest =>
      have written : Value.itemLexemes [] (item :: second :: rest) =
          item.lexemes ++ .comma :: Value.itemLexemes [] (second :: rest) := by
        simp [Value.itemLexemes]
      rw [written]
      exact writes_items start (behind (by simp))

theorem Value.entries_write : (entries : List (String × Value)) → (levels : Nat) →
    (separator : List Lexeme) → IsSeparator separator → Value.EntriesWritable entries levels →
    Writes (Value.entryLexemes separator entries) (EntriesPhrase levels) entries
  | [], levels, _, _, _ => ⟨by simp [Value.entryLexemes], means_no_entries levels⟩
  | (_, value) :: rest, levels, _, isSeparator, ⟨lacks, writable, others⟩ =>
    writes_entries isSeparator lacks (Value.writes value levels writable)
      (Value.entries_write rest levels [.comma] (.inr rfl) others)
end

/-! More levels do not harm. -/

mutual
theorem Value.Writable.mono : (value : Value) → (levels levels' : Nat) → levels ≤ levels' →
    value.Writable levels → value.Writable levels'
  | .null, _, _, _, _ => trivial
  | .boolean _, _, _, _, _ => trivial
  | .integer _, _, _, _, _ => trivial
  | .float _, _, _, _, finite => finite
  | .text _, _, _, _, lacks => lacks
  | .array items, levels, levels', more, writable => by
    have inner := Value.ItemsWritable.mono items
    obtain _ | levels := levels
    · exact writable.elim
    · obtain ⟨levels', rfl⟩ : ∃ fewer, levels' = fewer + 1 := ⟨levels' - 1, by omega⟩
      exact inner levels levels' (by omega) writable
  | .object entries, levels, levels', more, writable => by
    have inner := Value.EntriesWritable.mono entries
    obtain _ | levels := levels
    · exact writable.elim
    · obtain ⟨levels', rfl⟩ : ∃ fewer, levels' = fewer + 1 := ⟨levels' - 1, by omega⟩
      exact ⟨writable.1, inner levels levels' (by omega) writable.2⟩

theorem Value.ItemsWritable.mono : (items : List Value) → (levels levels' : Nat) →
    levels ≤ levels' → Value.ItemsWritable items levels → Value.ItemsWritable items levels'
  | [], _, _, _, _ => trivial
  | item :: rest, levels, levels', more, ⟨writable, others⟩ =>
    ⟨Value.Writable.mono item levels levels' more writable,
      Value.ItemsWritable.mono rest levels levels' more others⟩

theorem Value.EntriesWritable.mono : (entries : List (String × Value)) → (levels levels' : Nat) →
    levels ≤ levels' → Value.EntriesWritable entries levels → Value.EntriesWritable entries levels'
  | [], _, _, _, _ => trivial
  | (_, value) :: rest, levels, levels', more, ⟨lacks, writable, others⟩ =>
    ⟨lacks, Value.Writable.mono value levels levels' more writable,
      Value.EntriesWritable.mono rest levels levels' more others⟩
end

theorem Mapping.Writable.mono {mapping : Mapping} {levels levels' : Nat} (more : levels ≤ levels')
    (writable : mapping.Writable levels) : mapping.Writable levels' :=
  ⟨writable.1, Value.EntriesWritable.mono mapping.entries levels levels' more writable.2⟩

/-! The rules. -/

namespace Grammar

theorem reads_value {value : Value} {levels : Nat} (writable : value.Writable levels) :
    Reads (Grammar.value levels) value.lexemes value Anything :=
  have writes := value.writes levels writable
  ⟨writes.stand, fun _ spells rest _ => (writes.phrase spells).reads rest⟩

theorem reads_mapping {mapping : Mapping} {levels : Nat} (writable : mapping.Writable levels) :
    Reads (Grammar.mapping (levels + 1)) mapping.toValue.lexemes mapping Anything :=
  have writes := writes_mapping writable.1
    (Value.entries_write mapping.entries levels [] (.inl rfl) writable.2)
  ⟨writes.stand, fun _ spells rest _ => (writes.phrase spells).reads rest⟩

theorem reads_list {items : List Value} {levels : Nat}
    (writable : Value.ItemsWritable items levels) (filled : items ≠ []) :
    Reads (list (levels + 1)) (Value.array items).lexemes items Anything :=
  have writes := writes_list (Value.items_write items levels writable filled)
  ⟨writes.stand, fun _ spells rest _ => (writes.phrase spells).reads rest⟩

end Grammar

end VectorQuery
