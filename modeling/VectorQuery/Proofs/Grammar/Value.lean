import VectorQuery.Proofs.Grammar.Phrase
import VectorQuery.Proofs.Grammar.Rule

/-! Values read from tokens. A rule for values succeeds exactly on the phrases of its
grammar, whatever follows them, and answers with the value of the phrase. -/
namespace VectorQuery.Grammar

variable {α : Type} {levels : Nat}

theorem literal_ok_iff {tokens rest : List Token} {value : Value} :
    literal tokens = .ok (value, rest) ↔
      ∃ token, tokens = token :: rest ∧ token.literal? = some value :=
  take_ok_iff

theorem valueWith_sound {list : Rule (List Value)} {mapping : Rule Mapping}
    (lists : Sound list (ListPhrase levels)) (mappings : Sound mapping (MappingPhrase levels)) :
    Sound (valueWith list mapping) (ValuePhrase levels) := by
  intro tokens value rest read
  rw [valueWith, bind_of_ok (peek_apply tokens)] at read
  generalize tokens.head?.map Token.kind = kind at read
  split at read
  · simp only [bind_ok_iff, pure_ok_iff] at read
    obtain ⟨items, middle, inner, rfl, rfl⟩ := read
    obtain ⟨taken, rfl, phrase⟩ := lists inner
    exact ⟨taken, rfl, .list phrase⟩
  · simp only [bind_ok_iff, pure_ok_iff] at read
    obtain ⟨entries, middle, inner, rfl, rfl⟩ := read
    obtain ⟨taken, rfl, phrase⟩ := mappings inner
    exact ⟨taken, rfl, .mapping phrase⟩
  · obtain ⟨token, rfl, meaning⟩ := literal_ok_iff.mp read
    exact ⟨[token], rfl, .literal meaning⟩

theorem items_sound {item : Rule Value} (sound : Sound item (ValuePhrase levels)) :
    Sound (separated item) (ItemsPhrase levels) := by
  intro tokens values rest read
  refine separated_induction sound.shrinking
    (motive := fun tokens values rest => ∃ read, tokens = read ++ rest ∧ ItemsPhrase levels read values)
    ?_ ?_ read
  · intro tokens value rest taken _
    obtain ⟨first, rfl, phrase⟩ := sound taken
    exact ⟨first, rfl, .one phrase⟩
  · rintro tokens value comma middle values rest taken separates ⟨others, rfl, items⟩
    obtain ⟨first, rfl, phrase⟩ := sound taken
    exact ⟨first ++ comma :: others, by simp, .more phrase separates items⟩

theorem listOf_sound {item : Rule Value} (sound : Sound item (ValuePhrase levels)) :
    Sound (listOf item) (ListPhrase (levels + 1)) := by
  intro tokens items rest read
  simp only [listOf, operator, ↓accept_bind_ok_iff, bind_ok_iff, expect_ok_iff, pure_ok_iff] at read
  obtain ⟨_, _, ⟨opening, rfl, opens⟩, ⟨closing, middle, rfl, closes, rfl, rfl⟩ |
    ⟨_, items, middle, inner, _, _, ⟨closing, rfl, closes⟩, rfl, rfl⟩⟩ := read
  · exact ⟨[opening, closing], rfl, .empty opens closes⟩
  · obtain ⟨taken, rfl, phrase⟩ := items_sound sound inner
    exact ⟨opening :: taken ++ [closing], by simp, .items opens phrase closes⟩

theorem comma_sound : Sound comma fun read _ => OptionalComma read := by
  intro tokens found rest read
  rcases accept_ok_cases read with ⟨token, rfl, rfl, separates⟩ | ⟨rfl, rfl, _⟩
  · exact ⟨[token], rfl, .present separates⟩
  · exact ⟨[], rfl, .absent⟩

theorem entry_ok_cases {item : Rule Value} {tokens rest : List Token}
    {found : Option (String × Value)} (read : entry item tokens = .ok (found, rest)) :
    ∃ separator, OptionalComma separator ∧
      ((∃ closing, found = none ∧ tokens = separator ++ closing :: rest ∧
        closing.kind = .operator .closeBrace) ∨
      ∃ key colon middle value, found = some (key.text, value) ∧
        tokens = separator ++ key :: colon :: middle ∧ key.kind = .literal .text ∧
        colon.kind = .operator .colon ∧ item middle = .ok (value, rest)) := by
  rw [entry] at read
  simp only [↓accept_bind_ok_iff, bind_ok_iff, operator, text_ok_iff, expect_ok_iff,
    pure_ok_iff] at read
  obtain ⟨_, middle, separated, read⟩ := read
  obtain ⟨separator, rfl, optional⟩ := comma_sound separated
  refine ⟨separator, optional, ?_⟩
  rcases read with ⟨closing, middle, rfl, closes, rfl, rfl⟩ |
    ⟨_, _, _, ⟨key, rfl, named, rfl⟩, _, _, ⟨colon, rfl, assigns⟩, value, last, taken, rfl, rfl⟩
  · exact .inl ⟨closing, rfl, rfl, closes⟩
  · exact .inr ⟨key, colon, _, value, rfl, rfl, named, assigns, taken⟩

theorem entry_consuming {item : Rule Value} (shrinking : Shrinking item) :
    Consuming (entry item) := by
  intro tokens value rest read
  obtain ⟨separator, _, ⟨_, absent, _⟩ | ⟨key, colon, middle, _, _, rfl, _, _, taken⟩⟩ :=
    entry_ok_cases read
  · contradiction
  · have := shrinking taken
    simp only [List.length_append, List.length_cons]
    omega

/-- Entries are read up to a closing brace. -/
theorem entries_sound {item : Rule Value} (sound : Sound item (ValuePhrase levels))
    {tokens rest : List Token} {entries : List (String × Value)}
    (loop : many (entry item) tokens = .ok (entries, rest)) :
    ∃ read closing, tokens = read ++ closing :: rest ∧
      closing.kind = .operator .closeBrace ∧ EntriesPhrase levels read entries := by
  refine many_induction (entry_consuming sound.shrinking) (motive := fun tokens entries rest =>
    ∃ read closing, tokens = read ++ closing :: rest ∧
      closing.kind = .operator .closeBrace ∧ EntriesPhrase levels read entries) ?_ ?_ loop
  · intro tokens rest found
    obtain ⟨separator, optional, ⟨closing, _, rfl, closes⟩ | ⟨_, _, _, _, present, _⟩⟩ :=
      entry_ok_cases found
    · exact ⟨separator, closing, rfl, closes, .none optional⟩
    · contradiction
  · rintro tokens value middle entries rest found ⟨others, closing, rfl, closes, phrase⟩
    obtain ⟨separator, optional, ⟨_, absent, _⟩ | ⟨key, colon, later, item, present, rfl, named,
      assigns, taken⟩⟩ := entry_ok_cases found
    · contradiction
    · obtain rfl := Option.some.inj present
      obtain ⟨first, rfl, value⟩ := sound taken
      exact ⟨separator ++ key :: colon :: first ++ others, closing, by simp, closes,
        .more optional named assigns value phrase⟩

theorem mappingOf_sound {item : Rule Value} (sound : Sound item (ValuePhrase levels)) :
    Sound (mappingOf item) (MappingPhrase (levels + 1)) := by
  intro tokens mapping rest read
  simp only [mappingOf, operator, bind_ok_iff, expect_ok_iff, pure_ok_iff] at read
  obtain ⟨_, middle, ⟨opening, rfl, opens⟩, entries, after, loop, rfl, rfl⟩ := read
  obtain ⟨read, closing, rfl, closes, phrase⟩ := entries_sound sound loop
  exact ⟨opening :: read ++ [closing], by simp, .entries opens phrase closes⟩

theorem value_sound (levels : Nat) : Sound (value levels) (ValuePhrase levels) := by
  induction levels with
  | zero => exact valueWith_sound (tooDeep_sound _) (tooDeep_sound _)
  | succ levels ih => exact valueWith_sound (listOf_sound ih) (mappingOf_sound ih)

theorem list_sound : (levels : Nat) → Sound (list levels) (ListPhrase levels)
  | 0 => tooDeep_sound _
  | levels + 1 => listOf_sound (value_sound levels)

theorem mapping_sound : (levels : Nat) → Sound (mapping levels) (MappingPhrase levels)
  | 0 => tooDeep_sound _
  | levels + 1 => mappingOf_sound (value_sound levels)

/-! Every phrase is read. -/

theorem value_eq (levels : Nat) : value levels = valueWith (list levels) (mapping levels) := by
  cases levels <;> rfl

theorem literal?_kind {token : Token} {value : Value} (meaning : token.literal? = some value) :
    ∃ form, token.kind = .literal form := by
  cases kind : token.kind <;> simp_all [Token.literal?]

theorem valueWith_of_literal {list : Rule (List Value)} {mapping : Rule Mapping} {token : Token}
    {value : Value} (meaning : token.literal? = some value) (rest : List Token) :
    valueWith list mapping (token :: rest) = .ok (value, rest) := by
  obtain ⟨form, kind⟩ := literal?_kind meaning
  rw [valueWith, bind_of_ok (peek_apply _)]
  simp only [List.head?_cons, Option.map_some, kind]
  exact literal_ok_iff.mpr ⟨token, rfl, meaning⟩

theorem value_of_list {token : Token} (opens : token.kind = .operator .openBracket)
    {tokens rest : List Token} {items : List Value}
    (read : list levels (token :: tokens) = .ok (items, rest)) :
    value levels (token :: tokens) = .ok (.array items, rest) := by
  rw [value_eq, valueWith, bind_of_ok (peek_apply _)]
  simp only [List.head?_cons, Option.map_some, opens, bind_of_ok read, pure_apply]

theorem value_of_mapping {token : Token} (opens : token.kind = .operator .openBrace)
    {tokens rest : List Token} {mapping : Mapping}
    (read : Grammar.mapping levels (token :: tokens) = .ok (mapping, rest)) :
    value levels (token :: tokens) = .ok (mapping.toValue, rest) := by
  rw [value_eq, valueWith, bind_of_ok (peek_apply _)]
  simp only [List.head?_cons, Option.map_some, opens, bind_of_ok read, pure_apply]

theorem comma_of_optional {separator tokens : List Token} (optional : OptionalComma separator)
    (lacks : Lacks (.separator .comma) tokens) :
    ∃ found, comma (separator ++ tokens) = .ok (found, tokens) := by
  cases optional with
  | absent => exact ⟨false, accept_of_lacks lacks⟩
  | present separates => exact ⟨true, accept_cons separates tokens⟩

theorem entry_of_close {item : Rule Value} {separator : List Token} {closing : Token}
    (optional : OptionalComma separator) (closes : closing.kind = .operator .closeBrace)
    (rest : List Token) : entry item (separator ++ closing :: rest) = .ok (none, rest) := by
  have lacks : Lacks (.separator .comma) (closing :: rest) := lacks_cons (by simp [closes]) rest
  obtain ⟨found, separated⟩ := comma_of_optional optional lacks
  rw [entry, bind_of_ok separated, accept_bind_cons closes, pure_apply]

theorem entry_of_key {item : Rule Value} {separator tokens rest : List Token} {key colon : Token}
    {value : Value} (optional : OptionalComma separator) (named : key.kind = .literal .text)
    (assigns : colon.kind = .operator .colon) (read : item tokens = .ok (value, rest)) :
    entry item (separator ++ key :: colon :: tokens) = .ok (some (key.text, value), rest) := by
  have lacks (kind : TokenKind) (differs : kind ≠ .literal .text) :
      Lacks kind (key :: colon :: tokens) := lacks_cons (by simpa [named] using differs.symm) _
  obtain ⟨found, separated⟩ := comma_of_optional optional (lacks (.separator .comma) (by simp))
  rw [entry, bind_of_ok separated, accept_bind_of_lacks (lacks _ (by simp)),
    bind_of_ok (text_ok_iff.mpr ⟨key, rfl, named, rfl⟩), operator,
    bind_of_ok (expect_cons assigns tokens), bind_of_ok read, pure_apply]

end VectorQuery.Grammar

namespace VectorQuery
open Grammar

theorem ListPhrase.head {levels : Nat} {tokens : List Token} {items : List Value}
    (phrase : ListPhrase levels tokens items) :
    ∃ opening others, tokens = opening :: others ∧ opening.kind = .operator .openBracket := by
  cases phrase with
  | empty opens _ => exact ⟨_, _, rfl, opens⟩
  | items opens _ _ => exact ⟨_, _, rfl, opens⟩

theorem MappingPhrase.head {levels : Nat} {tokens : List Token} {mapping : Mapping}
    (phrase : MappingPhrase levels tokens mapping) :
    ∃ opening others, tokens = opening :: others ∧ opening.kind = .operator .openBrace := by
  cases phrase with
  | entries opens _ _ => exact ⟨_, _, rfl, opens⟩

theorem ValuePhrase.lacks {levels : Nat} {tokens : List Token} {value : Value}
    (phrase : ValuePhrase levels tokens value) (rest : List Token) :
    Lacks (.operator .closeBracket) (tokens ++ rest) := by
  cases phrase with
  | literal meaning =>
    obtain ⟨form, kind⟩ := literal?_kind meaning
    exact lacks_cons (by simp [kind]) rest
  | list phrase =>
    obtain ⟨opening, others, rfl, opens⟩ := phrase.head
    exact lacks_cons (by simp [opens]) _
  | mapping phrase =>
    obtain ⟨opening, others, rfl, opens⟩ := phrase.head
    exact lacks_cons (by simp [opens]) _

theorem ItemsPhrase.lacks {levels : Nat} {tokens : List Token} {items : List Value}
    (phrase : ItemsPhrase levels tokens items) (rest : List Token) :
    Lacks (.operator .closeBracket) (tokens ++ rest) := by
  cases phrase with
  | one item => exact item.lacks rest
  | more item _ _ =>
    rw [List.append_assoc]
    exact item.lacks _

mutual
theorem ValuePhrase.reads {levels : Nat} {tokens : List Token} {value : Value} :
    ValuePhrase levels tokens value →
      ∀ rest, Grammar.value levels (tokens ++ rest) = .ok (value, rest)
  | .literal meaning, rest => by
    rw [value_eq]
    exact valueWith_of_literal meaning rest
  | .list phrase, rest => by
    have inner := phrase.reads rest
    obtain ⟨opening, others, rfl, opens⟩ := phrase.head
    exact value_of_list opens inner
  | .mapping phrase, rest => by
    have inner := phrase.reads rest
    obtain ⟨opening, others, rfl, opens⟩ := phrase.head
    exact value_of_mapping opens inner

theorem ListPhrase.reads {levels : Nat} {tokens : List Token} {items : List Value} :
    ListPhrase levels tokens items → ∀ rest, list levels (tokens ++ rest) = .ok (items, rest)
  | .empty opens closes, rest => by
    simp only [list, listOf, operator, List.cons_append, List.nil_append]
    rw [bind_of_ok (expect_cons opens _), accept_bind_cons closes, pure_apply]
  | @ListPhrase.items _ _ closing tokens _ opens inner closes, rest => by
    have behind : Lacks (.separator .comma) (closing :: rest) := lacks_cons (by simp [closes]) rest
    simp only [list, listOf, operator, List.cons_append, List.append_assoc, List.nil_append]
    rw [bind_of_ok (expect_cons opens _), accept_bind_of_lacks (inner.lacks _),
      bind_of_ok (inner.reads _ behind), bind_of_ok (expect_cons closes rest), pure_apply]

theorem ItemsPhrase.reads {levels : Nat} {tokens : List Token} {items : List Value} :
    ItemsPhrase levels tokens items → ∀ rest, Lacks (.separator .comma) rest →
      separated (value levels) (tokens ++ rest) = .ok (items, rest)
  | .one item, rest, lacks => separated_of_lacks (value_sound _).shrinking (item.reads rest) lacks
  | @ItemsPhrase.more _ first others comma _ _ item separates items, rest, lacks => by
    have start := item.reads (comma :: others ++ rest)
    exact separated_cons (value_sound _).shrinking (by simpa using start) separates
      (items.reads rest lacks)

theorem MappingPhrase.reads {levels : Nat} {tokens : List Token} {mapping : Mapping} :
    MappingPhrase levels tokens mapping →
      ∀ rest, Grammar.mapping levels (tokens ++ rest) = .ok (mapping, rest)
  | .entries opens inner closes, rest => by
    simp only [Grammar.mapping, mappingOf, operator, List.cons_append, List.append_assoc,
      List.nil_append]
    rw [bind_of_ok (expect_cons opens _), bind_of_ok (inner.reads closes rest)]
    rfl

theorem EntriesPhrase.reads {levels : Nat} {tokens : List Token} {closing : Token}
    {entries : List (String × Value)} : EntriesPhrase levels tokens entries →
      closing.kind = .operator .closeBrace → ∀ rest,
      many (entry (value levels)) (tokens ++ closing :: rest) = .ok (entries, rest)
  | .none optional, closes, rest =>
    many_of_none (entry_consuming (value_sound _).shrinking) (entry_of_close optional closes rest)
  | @EntriesPhrase.more _ separator first others key colon _ _ optional named assigns value entries,
      closes, rest => by
    have start := entry_of_key optional named assigns (value.reads (others ++ closing :: rest))
    have loop := many_of_some (entry_consuming (value_sound levels).shrinking) start
    rw [entries.reads closes rest] at loop
    simpa [Except.map] using loop
end

end VectorQuery
