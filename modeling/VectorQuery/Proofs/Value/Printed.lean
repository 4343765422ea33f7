import VectorQuery.Proofs.Grammar.Means
import VectorQuery.Proofs.Grammar.Value
import VectorQuery.Proofs.Value.Unique

/-! Written values read back. Texts that need no escapes stand between their quotes as they
are, so that a written value is a layout of lexemes, and their tokens are a phrase for the
value, whichever form it was written in. -/
namespace VectorQuery

open Lexeme Grammar

/-! Plain texts. -/

namespace Text

/-- No character of the text is written as an escape. -/
def isPlain (text : String) : Bool :=
  text.toList.all fun character =>
    character ≠ '"' && character ≠ '\\' && decide (0x20 ≤ character.toNat)

theorem isPlain_iff {text : String} : isPlain text = true ↔
    ∀ character ∈ text.toList, character ≠ '"' ∧ character ≠ '\\' ∧ 0x20 ≤ character.toNat := by
  simp [isPlain, and_assoc]

theorem escaped_of_plain {character : Char}
    (plain : character ≠ '"' ∧ character ≠ '\\' ∧ 0x20 ≤ character.toNat) :
    escaped character = [character] := by
  obtain ⟨quote, slash, printed⟩ := plain
  have visible {other : Char} (control : other.toNat < 0x20) : character ≠ other := by
    rintro rfl
    omega
  rw [escaped, if_neg quote, if_neg slash, if_neg (visible (by decide)),
    if_neg (visible (by decide)), if_neg (visible (by decide)), if_neg (visible (by decide)),
    if_neg (visible (by decide)), if_neg (by omega)]

theorem quoted_of_plain {text : String} (plain : isPlain text = true) :
    (quoted text).toList = (between '"' text).spelling := by
  have same : text.toList.flatMap escaped = text.toList := by
    rw [isPlain_iff] at plain
    generalize text.toList = characters at plain
    induction characters with
    | nil => rfl
    | cons character characters ih =>
      obtain ⟨first, later⟩ := List.forall_mem_cons.mp plain
      rw [List.flatMap_cons, escaped_of_plain first, ih later, List.singleton_append]
  rw [quoted_toList, same, between, List.cons_append]

theorem leads_of_plain {text : String} (plain : isPlain text = true) (rest : List Char) :
    (between '"' text).Leads rest :=
  leads_between rfl (fun inside => (isPlain_iff.mp plain _ inside).1 rfl) rest

end Text

namespace Value

mutual
/-- Every text and every key within is plain. -/
def isPlain : Value → Bool
  | .text content => Text.isPlain content
  | .array items => arePlain items
  | .object entries => entriesPlain entries
  | _ => true

def arePlain : List Value → Bool
  | [] => true
  | item :: rest => isPlain item && arePlain rest

def entriesPlain : List (String × Value) → Bool
  | [] => true
  | (key, value) :: rest => Text.isPlain key && isPlain value && entriesPlain rest
end

mutual
/-- Objects hold each key once, and at most this many brackets are open at once. -/
def Fits : Value → Nat → Prop
  | .array items, levels + 1 => ItemsFit items levels
  | .object entries, levels + 1 => (entries.map Prod.fst).Nodup ∧ EntriesFit entries levels
  | .array _, 0 | .object _, 0 => False
  | _, _ => True

def ItemsFit : List Value → Nat → Prop
  | [], _ => True
  | item :: rest, levels => Fits item levels ∧ ItemsFit rest levels

def EntriesFit : List (String × Value) → Nat → Prop
  | [], _ => True
  | (_, value) :: rest, levels => Fits value levels ∧ EntriesFit rest levels
end

def isScalar : Value → Bool
  | .array _ | .object _ => false
  | _ => true

end Value

/-! What was read fits the levels it was read with. -/

theorem Value.entriesFit_iff {entries : List (String × Value)} {levels : Nat} :
    Value.EntriesFit entries levels ↔ ∀ entry ∈ entries, entry.2.Fits levels := by
  induction entries with
  | nil => simp [Value.EntriesFit]
  | cons entry rest ih =>
    obtain ⟨key, value⟩ := entry
    simp [Value.EntriesFit, ih]

theorem Token.isScalar_of_literal? {token : Token} {value : Value}
    (meaning : token.literal? = some value) : value.isScalar = true := by
  unfold Token.literal? at meaning
  split at meaning
  next =>
    obtain ⟨number, -, rfl⟩ := Option.map_eq_some_iff.mp meaning
    rfl
  next =>
    obtain ⟨number, -, rfl⟩ := Option.map_eq_some_iff.mp meaning
    rfl
  all_goals first
    | exact Option.some.inj meaning ▸ rfl
    | contradiction

theorem Value.fits_of_isScalar {value : Value} (scalar : value.isScalar = true) (levels : Nat) :
    value.Fits levels := by
  cases value <;> trivial

mutual
theorem ValuePhrase.fits {levels : Nat} {tokens : List Token} {value : Value} :
    ValuePhrase levels tokens value → value.Fits levels
  | .literal meaning => Value.fits_of_isScalar (Token.isScalar_of_literal? meaning) levels
  | .list phrase => phrase.fits
  | .mapping phrase => phrase.fits

theorem ListPhrase.fits {levels : Nat} {tokens : List Token} {items : List Value} :
    ListPhrase levels tokens items → (Value.array items).Fits levels
  | .empty _ _ => trivial
  | .items _ phrase _ => phrase.fits

theorem ItemsPhrase.fits {levels : Nat} {tokens : List Token} {items : List Value} :
    ItemsPhrase levels tokens items → Value.ItemsFit items levels
  | .one phrase => ⟨phrase.fits, trivial⟩
  | .more first _ others => ⟨first.fits, others.fits⟩

theorem MappingPhrase.fits {levels : Nat} {tokens : List Token} {mapping : Mapping} :
    MappingPhrase levels tokens mapping → mapping.toValue.Fits levels
  | .entries _ phrase _ => ⟨Mapping.ofList_distinct _, Value.entriesFit_iff.mpr fun entry inside =>
      Value.entriesFit_iff.mp phrase.fits entry (Mapping.mem_ofList inside)⟩

theorem EntriesPhrase.fits {levels : Nat} {tokens : List Token}
    {entries : List (String × Value)} :
    EntriesPhrase levels tokens entries → Value.EntriesFit entries levels
  | .none _ => trivial
  | .more _ _ _ value others => ⟨value.fits, others.fits⟩
end

/-! Operators and brackets laid out. -/

theorem lays_operator (operator : Operator) :
    Lays [ofOperator operator] operator.spelling.toList (Text.Ends operator.joins) :=
  lays_lexeme fun _ => leads_ofOperator operator

/-- Brackets lay out what they stand around. -/
theorem lays_bracketed (opening closing : Operator)
    (alone : ∀ character, opening.joins character = false ∧ closing.joins character = false)
    {lexemes : List Lexeme} {characters : List Char} {admits : List Char → Prop}
    (lays : Lays lexemes characters admits)
    (meets : ∀ rest, admits (closing.spelling.toList ++ rest)) :
    Lays (ofOperator opening :: (lexemes ++ [ofOperator closing]))
      (opening.spelling.toList ++ (characters ++ closing.spelling.toList)) fun _ => True := by
  have ends : Lays [ofOperator closing] closing.spelling.toList fun _ => True :=
    (lays_operator closing).weaken fun _ _ character _ => (alone character).2
  have inner := lays.append ends fun rest _ => meets rest
  exact (lays_operator opening).append inner fun _ _ character _ => (alone character).1

/-! Characters that print a phrase. -/

/-- In front of every text that this admits, the characters are lexemes whose tokens are a
phrase for the value. -/
def Prints {α : Type} (characters : List Char) (admits : List Char → Prop)
    (phrase : List Token → α → Prop) (value : α) : Prop :=
  ∃ lexemes, Lays lexemes characters admits ∧ Means lexemes phrase value

/-- One token of this kind and with this text. -/
def TokenPhrase (kind : TokenKind) (tokens : List Token) (text : String) : Prop :=
  ∃ token, tokens = [token] ∧ token.kind = kind ∧ token.text = text

theorem prints_lexeme {lexeme : Lexeme} {admits : List Char → Prop}
    (leads : ∀ ⦃rest⦄, admits rest → lexeme.Leads rest) :
    Prints lexeme.spelling admits (TokenPhrase lexeme.kind) lexeme.text := by
  refine ⟨[lexeme], lays_lexeme leads, fun tokens spells => ?_⟩
  obtain ⟨token, behind, rfl, kind, text, finish⟩ := spells.cons_cases
  rw [finish.nil_cases]
  exact ⟨token, rfl, kind, text⟩

section
variable {α β : Type} {characters : List Char} {admits : List Char → Prop}
  {phrase : List Token → α → Prop} {value : α} {phrase' : List Token → β → Prop} {value' : β}

theorem Prints.map
    (prints : Prints characters admits phrase value)
    (means : ∀ tokens, phrase tokens value → phrase' tokens value') :
    Prints characters admits phrase' value' := by
  obtain ⟨lexemes, lays, meaning⟩ := prints
  exact ⟨lexemes, lays, fun tokens spells => means tokens (meaning spells)⟩

theorem Prints.weaken {admits' : List Char → Prop} (prints : Prints characters admits phrase value)
    (weaker : ∀ rest, admits' rest → admits rest) : Prints characters admits' phrase value := by
  obtain ⟨lexemes, lays, meaning⟩ := prints
  exact ⟨lexemes, lays.weaken weaker, meaning⟩

theorem Prints.append {γ : Type} {characters' : List Char} {admits' : List Char → Prop}
    {whole : List Token → γ → Prop} {result : γ} (front : Prints characters admits phrase value)
    (behind : Prints characters' admits' phrase' value')
    (meets : ∀ rest, admits' rest → admits (characters' ++ rest))
    (joins : ∀ tokens tokens', phrase tokens value → phrase' tokens' value' →
      whole (tokens ++ tokens') result) :
    Prints (characters ++ characters') admits' whole result := by
  obtain ⟨lexemes, lays, meaning⟩ := front
  obtain ⟨lexemes', lays', meaning'⟩ := behind
  refine ⟨lexemes ++ lexemes', lays.append lays' meets, fun tokens spells => ?_⟩
  obtain ⟨first, second, rfl, start, finish⟩ := spells.append_cases
  exact joins first second (meaning start) (meaning' finish)

theorem Prints.bracketed (inner : Prints characters admits phrase value)
    (opening closing : Operator)
    (alone : ∀ character, opening.joins character = false ∧ closing.joins character = false)
    (meets : ∀ rest, admits (closing.spelling.toList ++ rest))
    (joins : ∀ first tokens last, first.kind = .operator opening → phrase tokens value →
      last.kind = .operator closing → phrase' (first :: tokens ++ [last]) value') :
    Prints (opening.spelling.toList ++ (characters ++ closing.spelling.toList)) (fun _ => True)
      phrase' value' := by
  obtain ⟨lexemes, lays, meaning⟩ := inner
  refine ⟨_, lays_bracketed opening closing alone lays meets, fun tokens spells => ?_⟩
  obtain ⟨first, middle, last, rfl, opens, closes, inside⟩ := spells_bracketed spells
  exact joins first middle last opens (meaning inside) closes

theorem Prints.sequence (prints : Prints characters admits phrase value) (alone : admits []) :
    ∃ tokens, Token.sequence (String.ofList characters) = .ok tokens ∧ phrase tokens value := by
  obtain ⟨lexemes, lays, meaning⟩ := prints
  obtain ⟨tokens, read, spells⟩ := lays.sequence alone
  exact ⟨tokens, read, meaning spells⟩

end

namespace Value
open Form

variable {form : Form}

theorem prints_scalar (legible : form.Legible) {value : Value} (scalar : value.isScalar = true)
    (finite : value.isFinite = true) (plain : value.isPlain = true) :
    Prints (form.characters value) Delimited LiteralPhrase value := by
  cases value with
  | null =>
    exact ⟨[Lexeme.null], Form.characters_null form ▸
      lays_lexeme fun _ ends => leads_null (ends.ends rfl), means_null⟩
  | boolean truth =>
    exact ⟨[ofBoolean truth], Form.characters_boolean form truth ▸
      lays_lexeme fun _ ends => leads_ofBoolean truth (ends.ends rfl), means_boolean truth⟩
  | integer number =>
    exact ⟨[ofInteger number], Form.characters_integer form number ▸
      lays_lexeme fun _ ends => leads_ofInteger number (ends.ends rfl), means_ofInteger number⟩
  | float number =>
    obtain ⟨layout, writes⟩ := legible.float
    have same : form.characters (.float number) = layout.write number :=
      (Form.characters_float form number).trans (writes number finite)
    exact ⟨[ofFloatAs layout number], same ▸
      lays_lexeme fun _ ends => leads_ofFloatAs layout finite (ends.ends rfl),
      means_ofFloatAs layout finite⟩
  | text content =>
    have same : form.characters (.text content) = (between '"' content).spelling :=
      (Form.characters_text form content).trans (Text.quoted_of_plain plain)
    exact ⟨[between '"' content], same ▸ lays_lexeme fun rest _ => Text.leads_of_plain plain rest,
      means_text rfl⟩
  | array items => contradiction
  | object entries => contradiction

namespace Form

/-- Entries behind this front, and a separator before each other. -/
def ledEntries (form : Form) (front : List Char) : List (String × Value) → List Char
  | [] => []
  | entry :: rest =>
    front ++ (form.entryCharacters entry ++ ledEntries form form.separator.toList rest)

theorem intercalate_entries (entries : List (String × Value)) :
    form.separator.toList.intercalate (entries.map form.entryCharacters) =
      ledEntries form [] entries := by
  cases entries with
  | nil => rfl
  | cons entry rest =>
    induction rest generalizing entry with
    | nil => simp [ledEntries]
    | cons second rest ih => simpa [ledEntries] using ih second

theorem Legible.ledEntries_delimited (legible : form.Legible) (entries : List (String × Value))
    {rest : List Char} (delimited : Delimited rest) :
    Delimited (ledEntries form form.separator.toList entries ++ rest) := by
  obtain ⟨gap, separator, -⟩ := legible.separator
  cases entries with
  | nil => exact delimited
  | cons entry others =>
    rw [ledEntries, separator]
    exact delimited_cons (by decide) _

theorem Legible.lays_separator (legible : form.Legible) :
    Lays [Lexeme.comma] form.separator.toList fun _ => True := by
  obtain ⟨gap, separator, blank⟩ := legible.separator
  have lays := (lays_lexeme fun rest (_ : True) => leads_comma rest).append (lays_blank blank)
    fun _ _ => trivial
  rw [separator]
  exact lays

theorem Legible.lays_key (legible : form.Legible) {key : String} (plain : Text.isPlain key = true) :
    Lays [between '"' key, ofOperator .colon] ((Text.quoted key).toList ++ form.colon.toList)
      fun _ => True := by
  obtain ⟨gap, colon, blank⟩ := legible.colon
  have named : Lays [between '"' key] (between '"' key).spelling fun _ => True :=
    lays_lexeme fun rest _ => Text.leads_of_plain plain rest
  have assigns := (lays_operator .colon).append (lays_blank blank) fun _ _ _ _ => rfl
  rw [Text.quoted_of_plain plain, colon]
  exact named.append assigns fun _ _ => trivial

theorem prints_list_of_items {items : List Value} {levels : Nat}
    (inner : items ≠ [] → Prints (form.separator.toList.intercalate (items.map form.characters))
      Delimited (ItemsPhrase levels) items) :
    Prints (form.characters (.array items)) Delimited (ListPhrase (levels + 1)) items := by
  rw [Form.characters_array]
  by_cases empty : items = []
  · subst empty
    have brackets := lays_bracketed .openBracket .closeBracket (fun _ => ⟨rfl, rfl⟩)
      (lays_blank List.all_nil) fun _ => trivial
    exact ⟨_, brackets.weaken fun _ _ => trivial, means_empty_list levels⟩
  · obtain ⟨lexemes, lays, means⟩ := inner empty
    have brackets := lays_bracketed .openBracket .closeBracket (fun _ => ⟨rfl, rfl⟩) lays
      fun rest => delimited_cons (by decide) rest
    exact ⟨_, brackets.weaken fun _ _ => trivial, means_list means⟩

mutual
/-- A written value prints a phrase for the value. -/
theorem Legible.prints (legible : form.Legible) : (value : Value) → (levels : Nat) →
    value.isFinite = true → value.isPlain = true → value.Fits levels →
      Prints (form.characters value) Delimited (ValuePhrase levels) value
  | .null, _, finite, plain, _ => (prints_scalar legible rfl finite plain).map fun _ => (·.value)
  | .boolean _, _, finite, plain, _ =>
    (prints_scalar legible rfl finite plain).map fun _ => (·.value)
  | .integer _, _, finite, plain, _ =>
    (prints_scalar legible rfl finite plain).map fun _ => (·.value)
  | .float _, _, finite, plain, _ =>
    (prints_scalar legible rfl finite plain).map fun _ => (·.value)
  | .text _, _, finite, plain, _ =>
    (prints_scalar legible rfl finite plain).map fun _ => (·.value)
  | .array items, levels, finite, plain, fits => by
    have inner := legible.prints_items items
    cases levels with
    | zero => exact fits.elim
    | succ levels =>
      exact (prints_list_of_items (inner levels finite plain fits)).map fun _ => .list
  | .object entries, levels, finite, plain, fits => by
    have inner := legible.prints_entries entries
    cases levels with
    | zero => exact fits.elim
    | succ levels =>
      obtain ⟨distinct, fits⟩ := fits
      obtain ⟨lexemes, lays, means⟩ :=
        inner levels finite plain fits (.inl rfl) (lays_blank List.all_nil)
      have braces := lays_bracketed .openBrace .closeBrace (fun _ => ⟨rfl, rfl⟩) lays
        fun rest => delimited_cons (by decide) rest
      rw [Form.characters_object, intercalate_entries]
      exact ⟨_, braces.weaken fun _ _ => trivial,
        fun _ spells => .mapping (means_mapping distinct means spells)⟩

theorem Legible.prints_items (legible : form.Legible) : (items : List Value) → (levels : Nat) →
    areFinite items = true → arePlain items = true → ItemsFit items levels → items ≠ [] →
      Prints (form.separator.toList.intercalate (items.map form.characters)) Delimited
        (ItemsPhrase levels) items
  | [], _, _, _, _, filled => absurd rfl filled
  | item :: rest, levels, finite, plain, fits, _ => by
    rw [areFinite, Bool.and_eq_true] at finite
    rw [arePlain, Bool.and_eq_true] at plain
    have start := legible.prints item levels finite.1 plain.1 fits.1
    have behind := legible.prints_items rest levels finite.2 plain.2 fits.2
    cases rest with
    | nil => simpa using start.map fun _ => ItemsPhrase.one
    | cons second rest =>
      obtain ⟨first, lays, means⟩ := start
      obtain ⟨others, lays', means'⟩ := behind (by simp)
      obtain ⟨gap, separator, -⟩ := legible.separator
      have later := legible.lays_separator.append lays' fun _ _ => trivial
      have whole := lays.append later fun rest _ => by
        rw [separator]
        exact delimited_cons (by decide) _
      rw [List.map_cons, List.map_cons, List.intercalate_cons_cons]
      exact ⟨first ++ Lexeme.comma :: others, by simpa using whole, means_items means means'⟩

theorem Legible.prints_entries (legible : form.Legible) : (entries : List (String × Value)) →
    (levels : Nat) → entriesFinite entries = true → entriesPlain entries = true →
      EntriesFit entries levels → ∀ {separator : List Lexeme} {front : List Char},
        IsSeparator separator → Lays separator front (fun _ => True) →
          Prints (ledEntries form front entries) Delimited (EntriesPhrase levels) entries
  | [], levels, _, _, _, _, _, _, _ => ⟨[], fun _ _ _ layout => layout, means_no_entries levels⟩
  | (key, value) :: rest, levels, finite, plain, fits, separator, front, isSeparator, lays => by
    rw [entriesFinite, Bool.and_eq_true] at finite
    rw [entriesPlain, Bool.and_eq_true, Bool.and_eq_true] at plain
    obtain ⟨first, inner, means⟩ := legible.prints value levels finite.1 plain.1.2 fits.1
    obtain ⟨others, later, means'⟩ := legible.prints_entries rest levels finite.2 plain.2 fits.2
      (.inr rfl) legible.lays_separator
    have tail := inner.append later fun _ => legible.ledEntries_delimited rest
    have entry := (legible.lays_key plain.1.1).append tail fun _ _ => trivial
    have whole := lays.append entry fun _ _ => trivial
    refine ⟨separator ++ between '"' key :: ofOperator .colon :: first ++ others, ?_,
      means_entries isSeparator rfl means means'⟩
    simpa [ledEntries, entryCharacters] using whole
end

theorem Legible.prints_list (legible : form.Legible) {items : List Value} {levels : Nat}
    (finite : areFinite items = true) (plain : arePlain items = true)
    (fits : Fits (.array items) levels) :
    Prints (form.characters (.array items)) Delimited (ListPhrase levels) items := by
  cases levels with
  | zero => exact fits.elim
  | succ levels => exact prints_list_of_items (legible.prints_items items levels finite plain fits)

theorem Legible.reads (legible : form.Legible) {value : Value} {levels : Nat}
    (finite : value.isFinite = true) (plain : value.isPlain = true) (fits : value.Fits levels) :
    ∃ tokens, Token.sequence (value.write form) = .ok tokens ∧
      Grammar.value levels tokens = .ok (value, []) := by
  obtain ⟨tokens, read, phrase⟩ :=
    (legible.prints value levels finite plain fits).sequence delimited_nil
  have parsed := phrase.reads []
  rw [List.append_nil] at parsed
  rw [characters, String.ofList_toList] at read
  exact ⟨tokens, read, parsed⟩

end Form

/-- As a literal and as JSON, a value reads back as it is. -/
theorem written_reads {value : Value} {levels : Nat} (finite : value.isFinite = true)
    (plain : value.isPlain = true) (fits : value.Fits levels) :
    (∃ tokens, Token.sequence value.literal = .ok tokens ∧
      Grammar.value levels tokens = .ok (value, [])) ∧
    ∃ tokens, Token.sequence value.json = .ok tokens ∧
      Grammar.value levels tokens = .ok (value, []) :=
  ⟨literalForm_legible.reads finite plain fits, jsonForm_legible.reads finite plain fits⟩

/-- `{"k": [-1, 10000000000000000.0, []], "": {}}`, whose float is `1e+16` in JSON. -/
theorem written_reads_nested :
    let value : Value := .object [("k", .array [.integer (-1), .float (.ofDecimal false ⟨1, 16⟩),
      .array []]), ("", .object [])]
    value.isFinite = true ∧ value.isPlain = true ∧ value.Fits 3 ∧
      (∃ tokens, Token.sequence value.literal = .ok tokens ∧
        Grammar.value 3 tokens = .ok (value, [])) ∧
      ∃ tokens, Token.sequence value.json = .ok tokens ∧
        Grammar.value 3 tokens = .ok (value, []) := by
  intro value
  have finite : value.isFinite = true := by decide +kernel
  have plain : value.isPlain = true := by decide +kernel
  have fits : value.Fits 3 := by simp [value, Fits, EntriesFit, ItemsFit]
  exact ⟨finite, plain, fits, written_reads finite plain fits⟩

end Value

end VectorQuery
