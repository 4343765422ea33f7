import Mathlib
import VectorQuery.Proofs.Token.Cut

/-! The lexicon: every lexeme that a text can hold. Each of them stands by itself, so that
lexemes written with white space between them become one token each; and no other lexeme is
ever read. -/
namespace VectorQuery
open Text

namespace Numeral

/-- The integer that digits behind a sign stand for. -/
def number (negative : Bool) (digits : List Char) : Int :=
  if negative then -(Decimal.ofDigits digits : Int) else Decimal.ofDigits digits

theorem readInteger?_signed (negative : Bool) {digits : List Char} (written : IsFraction digits) :
    readInteger? (signed negative digits) = int64? (number negative digits) := by
  cases negative with
  | true => exact readInteger?_minus written
  | false => exact readInteger?_digits written

theorem readInteger?_isSome_iff (negative : Bool) {digits : List Char} (written : IsWhole digits) :
    (readInteger? (signed negative digits)).isSome = true ↔
      Int64.minValue.toInt ≤ number negative digits ∧
        number negative digits ≤ Int64.maxValue.toInt := by
  rw [readInteger?_signed negative written.isFraction, int64?]
  split_ifs with fits
  · simp only [Option.isSome_some, true_iff]
    exact fits
  · simp only [Option.isSome_none, Bool.false_eq_true, false_iff]
    exact fits

end Numeral

namespace Lexeme

/-- The word in upper case of a truth value or of null. -/
def literalWord? : LiteralForm → Option String
  | .boolean true => some "TRUE"
  | .boolean false => some "FALSE"
  | .null => some "NULL"
  | _ => none

/-- The lexemes there are. Words may be spelled in any letter case, those for truth values and
null are no names, and integers fit into 64 bits. -/
inductive Lexicon : Lexeme → Prop
  | keyword {keyword : Keyword} {spelling : List Char} :
      upper (String.ofList spelling) = keyword.word →
        Lexicon ⟨.keyword keyword, keyword.word, spelling⟩
  | literalWord {form : LiteralForm} {word : String} {spelling : List Char} :
      literalWord? form = some word → upper (String.ofList spelling) = word →
        Lexicon ⟨.literal form, String.ofList spelling, spelling⟩
  | name {name : String} : IsName name → Lexicon (ofName name)
  | integer {negative : Bool} {digits : List Char} : IsWhole digits →
      Int64.minValue.toInt ≤ Numeral.number negative digits →
      Numeral.number negative digits ≤ Int64.maxValue.toInt →
        Lexicon ⟨.literal .integer, String.ofList (Numeral.signed negative digits),
          Numeral.signed negative digits⟩
  | float {negative : Bool} {whole places power : List Char} : IsWhole whole →
      IsPlaces places → IsPower power → places ≠ [] ∨ power ≠ [] →
        Lexicon ⟨.literal .float,
          String.ofList (Numeral.signed negative whole ++ (places ++ power)),
          Numeral.signed negative whole ++ (places ++ power)⟩
  | text {quote : Char} {body : String} : isQuote quote = true → quote ∉ body.toList →
      Lexicon (between quote body)
  | operator (operator : Operator) : Lexicon (ofOperator operator)
  | comma : Lexicon comma
  | semicolon : Lexicon semicolon

/-! Every lexeme of the lexicon stands by itself. -/

theorem upper_upper (text : String) : upper (upper text) = upper text := by
  simp [upper, Function.comp_def]

theorem isWordStart_toUpper (character : Char) :
    isWordStart character.toUpper = isWordStart character :=
  character.isAlpha_toUpper_eq_isAlpha

theorem isWordPart_toUpper (character : Char) :
    isWordPart character.toUpper = isWordPart character := by
  cases lower : character.isLower with
  | true =>
    have start : isWordStart character = true := by rw [isWordStart, lower, Bool.or_true]
    simp only [isWordPart, isWordStart_toUpper, start, Bool.true_or]
  | false => rw [Char.toUpper_eq_of_not_isLower (Bool.eq_false_iff.mp lower)]

theorem isWord_upper {word : String} (isWord : IsWord word.toList) : IsWord (upper word).toList := by
  obtain ⟨⟨first, others, leads, start⟩, parts⟩ := isWord
  rw [upper, String.toList_ofList]
  refine ⟨⟨first.toUpper, others.map Char.toUpper, by rw [leads, List.map_cons],
    (isWordStart_toUpper first).trans start⟩, fun character inside => ?_⟩
  obtain ⟨before, held, rfl⟩ := List.mem_map.mp inside
  exact (isWordPart_toUpper before).trans (parts before held)

/-- The characters of a word in upper case were those of a word before. -/
theorem isWord_of_upper {spelling : List Char} {word : String}
    (same : upper (String.ofList spelling) = word) (isWord : IsWord word.toList) :
    IsWord spelling := by
  subst same
  rw [upper, String.toList_ofList, String.toList_ofList] at isWord
  obtain ⟨⟨first, others, leads, start⟩, parts⟩ := isWord
  refine ⟨?_, fun character inside => ?_⟩
  · cases spelling with
    | nil => simp at leads
    | cons character spelling =>
      obtain ⟨rfl, -⟩ := List.cons.inj leads
      exact ⟨character, spelling, rfl, (isWordStart_toUpper character).symm.trans start⟩
  · exact (isWordPart_toUpper character).symm.trans (parts _ (List.mem_map_of_mem inside))

theorem ofWord_of_keyword {keyword : Keyword} {spelling : List Char}
    (same : upper (String.ofList spelling) = keyword.word) :
    ofWord spelling = ⟨.keyword keyword, keyword.word, spelling⟩ := by
  obtain ⟨yes, no, null⟩ := keyword.word_free
  simp only [ofWord, same, if_neg yes, if_neg no, if_neg null, keyword.ofWord?_word]

theorem ofWord_of_literalWord {form : LiteralForm} {word : String} {spelling : List Char}
    (known : literalWord? form = some word) (same : upper (String.ofList spelling) = word) :
    ofWord spelling = ⟨.literal form, String.ofList spelling, spelling⟩ := by
  unfold literalWord? at known
  split at known <;> cases known <;> simp [ofWord, same]

theorem isWord_literalWord {form : LiteralForm} {word : String}
    (known : literalWord? form = some word) : IsWord word.toList := by
  unfold literalWord? at known
  split at known <;> cases known <;> exact isWord_of_checked rfl rfl

/-- The characters are those of this word, in any letter case. The word is no literal. -/
structure IsSpelling (spelling : List Char) (word : String) : Prop where
  isWord : IsWord spelling
  upper : Text.upper (String.ofList spelling) = word
  free : word ≠ "TRUE" ∧ word ≠ "FALSE" ∧ word ≠ "NULL"

theorem isSpelling_self {name : String} (isWord : IsTypeWord name) : IsSpelling name.toList name :=
  ⟨isWord.word, by rw [String.ofList_toList, isWord.upper], isWord.free⟩

/-- A word that is spelled in any letter case is a bare word, whether it is reserved or
not. -/
theorem ofWord_of_isSpelling {spelling : List Char} {word : String}
    (spelled : IsSpelling spelling word) :
    (ofWord spelling).kind.isWord = true ∧ Text.upper (ofWord spelling).text = word := by
  obtain ⟨-, upper, yes, no, null⟩ := spelled
  simp only [ofWord, upper, if_neg yes, if_neg no, if_neg null]
  split
  · exact ⟨rfl, upper ▸ upper_upper _⟩
  · exact ⟨rfl, upper⟩

theorem Lexicon.stands {lexeme : Lexeme} (known : Lexicon lexeme) : lexeme.Stands := by
  have numeric (character : Char) (more : Numeral.goesOn character = true) :
      isBlank character = false := not_isBlank_of_goesOn more
  cases known with
  | @keyword keyword spelling same =>
    rw [← ofWord_of_keyword same]
    exact stands_ofWord (isWord_of_upper same (isWord_keyword keyword))
  | literalWord known same =>
    rw [← ofWord_of_literalWord known same]
    exact stands_ofWord (isWord_of_upper same (isWord_literalWord known))
  | name isName => exact stands_ofName isName
  | @integer negative digits written least most =>
    refine stands_of_leads numeric fun rest ends => ?_
    have fits := (Numeral.readInteger?_isSome_iff negative written).mpr ⟨least, most⟩
    have spelled : Numeral.signed negative digits = Numeral.signed negative digits ++ ([] ++ []) := by
      simp
    apply leads_numeral written (.inl rfl) (.inl rfl) spelled ends
    rw [List.isEmpty_nil, ofNumeral, if_neg (by decide), if_pos fits]
  | @float negative whole places power before behind last filled =>
    refine stands_of_leads numeric fun rest ends => ?_
    have isFloat : (!places.isEmpty || !power.isEmpty) = true := by simpa using filled
    apply leads_numeral before behind last rfl ends
    rw [isFloat]
    rfl
  | text quotes absent => exact fun rest _ => leads_between quotes absent rest
  | operator operator => exact stands_ofOperator operator
  | comma => exact stands_comma
  | semicolon => exact stands_semicolon

/-! Nothing else is ever read. -/

theorem ofNumeral_lexicon {text : List Char} {lexeme : Lexeme}
    (starts : Numeral.starts text = true)
    (read : ofNumeral (Numeral.scan text).spelling (Numeral.scan text).isFloat = .ok lexeme) :
    Lexicon lexeme := by
  obtain ⟨negative, whole, places, power, before, behind, last, spelling, isFloat⟩ :=
    Numeral.scan_form starts
  rw [spelling, isFloat] at read
  unfold ofNumeral at read
  split_ifs at read with point fits
  · obtain rfl := Except.ok.inj read
    exact .float before behind last (by simpa using point)
  · obtain rfl := Except.ok.inj read
    have bare : places = [] ∧ power = [] := by simpa using point
    rw [bare.1, bare.2, List.append_nil, List.append_nil] at fits ⊢
    obtain ⟨least, most⟩ := (Numeral.readInteger?_isSome_iff negative before).mp fits
    exact .integer before least most

theorem ofWord_lexicon {spelling : List Char} (isWord : IsWord spelling) :
    Lexicon (ofWord spelling) := by
  unfold ofWord
  simp only
  split_ifs with yes no null
  · exact .literalWord rfl yes
  · exact .literalWord rfl no
  · exact .literalWord rfl null
  · split
    next keyword found =>
      have same := List.find?_some found
      rw [beq_iff_eq] at same
      rw [← same]
      exact .keyword same.symm
    next free =>
      have letters : (String.ofList spelling).toList = spelling := String.toList_ofList
      have isName : IsName (String.ofList spelling) :=
        ⟨letters.symm ▸ isWord, ⟨yes, no, null⟩, free⟩
      have known := Lexicon.name isName
      rwa [ofName, ofSymbol, letters] at known

theorem first_lexicon {character : Char} {rest : List Char} {lexeme : Lexeme}
    (read : first character rest = .ok lexeme) : Lexicon lexeme := by
  by_cases numeral : Numeral.starts (character :: rest) = true
  · rw [first_of_starts numeral] at read
    exact ofNumeral_lexicon numeral read
  · unfold first at read
    split_ifs at read with word quotes
    · obtain rfl := Except.ok.inj read
      exact ofWord_lexicon (takeWhile_word word rest)
    · split at read
      next found =>
        obtain rfl := Except.ok.inj read
        obtain ⟨content, _, absent, rfl, -⟩ := quotedText?_cases found
        exact .text quotes absent
      next => contradiction
    · split at read
      next found =>
        obtain rfl := Except.ok.inj read
        rcases symbol?_cases (Bool.eq_false_iff.mpr numeral) found with
          ⟨operator, _, rfl, -⟩ | ⟨_, rfl | rfl, -⟩
        · exact .operator operator
        · exact .comma
        · exact .semicolon
      next => contradiction

theorem Leads.lexicon {lexeme : Lexeme} {rest : List Char} (leads : lexeme.Leads rest) :
    Lexicon lexeme := by
  obtain ⟨_, _, -, -, read⟩ := leads
  exact first_lexicon read

end Lexeme

/-! Texts of the lexicon. -/

namespace Lexeme

/-- Lexemes one after another, with white space between neighbours. -/
inductive Joined : List Lexeme → List Char → Prop
  | nil : Joined [] []
  | one (lexeme : Lexeme) : Joined [lexeme] lexeme.spelling
  | cons {lexeme next : Lexeme} {lexemes : List Lexeme} {gap text : List Char} :
      gap ≠ [] → gap.all isBlank = true → Joined (next :: lexemes) text →
        Joined (lexeme :: next :: lexemes) (lexeme.spelling ++ (gap ++ text))

theorem Joined.layout {lexemes : List Lexeme} {text : List Char} (joined : Joined lexemes text)
    (stand : ∀ lexeme ∈ lexemes, lexeme.Stands) : Layout lexemes text := by
  induction joined with
  | nil => exact .nil
  | one lexeme =>
    have leads := stand lexeme (by simp) [] (by simp [Apart])
    simpa using Layout.lexeme leads .nil
  | @cons lexeme next lexemes gap text filled blank _ ih =>
    obtain ⟨first, others⟩ := List.forall_mem_cons.mp stand
    have behind := lays_blank blank trivial (ih others)
    refine .lexeme (first _ ?_) behind
    cases gap with
    | nil => contradiction
    | cons character gap =>
      exact apart_cons (List.all_eq_true.mp blank character (by simp)) _

end Lexeme

namespace Token

/-- A lexeme of the lexicon stands behind every token. -/
theorem sequence_lexicon {text : String} {tokens : List Token} (read : sequence text = .ok tokens) :
    ∀ token ∈ tokens, ∃ lexeme, Lexeme.Lexicon lexeme ∧ token.kind = lexeme.kind ∧
      token.text = lexeme.text :=
  sequenceFrom_forall
    (fun _ _ lexeme _ found => ⟨lexeme, Lexeme.first_lexicon found, rfl, rfl⟩) (by simp) read

/-- Lexemes written one after another, with any white space between neighbours, become one
token each. -/
theorem sequence_joined {lexemes : List Lexeme} {text : List Char}
    (known : ∀ lexeme ∈ lexemes, Lexeme.Lexicon lexeme) (joined : Lexeme.Joined lexemes text) :
    ∃ tokens, sequence (String.ofList text) = .ok tokens ∧ Lexeme.Spells lexemes tokens := by
  have layout := joined.layout fun lexeme inside => (known lexeme inside).stands
  rw [← String.toList_ofList (l := text)] at layout
  exact Lexeme.sequence_layout layout

/-- A sign apart from its number, a quote inside another and words in mixed case. -/
theorem sequence_joined_of_filter :
    let keyword : Lexeme := ⟨.keyword .not, "NOT", "nOt".toList⟩
    let float : Lexeme := ⟨.literal .float, "-0.5E+07", "-0.5E+07".toList⟩
    let minus := Lexeme.ofOperator .minus
    let integer : Lexeme := ⟨.literal .integer, "9223372036854775807", "9223372036854775807".toList⟩
    let null : Lexeme := ⟨.literal .null, "Null", "Null".toList⟩
    let text := Lexeme.between '"' "it's"
    let lexemes := [keyword, float, minus, integer, null, text]
    let characters := keyword.spelling ++ (['\n'] ++ (float.spelling ++ ([' '] ++ (minus.spelling ++
      ([' ', '\t'] ++ (integer.spelling ++ ([' '] ++ (null.spelling ++
        (['\x0c'] ++ text.spelling)))))))))
    (∀ lexeme ∈ lexemes, Lexeme.Lexicon lexeme) ∧ Lexeme.Joined lexemes characters ∧
      ∃ tokens, sequence (String.ofList characters) = .ok tokens ∧
        Lexeme.Spells lexemes tokens := by
  intro keyword float minus integer null text lexemes characters
  have fraction {digits : String} (filled : digits.toList ≠ [])
      (all : digits.toList.all Char.isDigit = true) : IsFraction digits.toList :=
    ⟨filled, List.all_eq_true.mp all⟩
  have floats : Lexeme.Lexicon float :=
    @Lexeme.Lexicon.float true "0".toList ".5".toList "E+07".toList (isWhole_singleton (by decide))
      (.inr ⟨"5".toList, rfl, fraction (by decide) (by decide)⟩)
      (.inr ⟨'E', "+".toList, "07".toList, rfl, .inr rfl, .inr (.inl rfl),
        fraction (by decide) (by decide)⟩) (.inl (by decide))
  have integers : Lexeme.Lexicon integer := by
    obtain ⟨filled, all⟩ : IsFraction "9223372036854775807".toList :=
      fraction (by decide) (by decide)
    exact @Lexeme.Lexicon.integer false _ ⟨filled, all, by decide⟩ (by decide) (by decide)
  have known : ∀ lexeme ∈ lexemes, Lexeme.Lexicon lexeme := by
    simp only [lexemes, List.forall_mem_cons, List.not_mem_nil, false_imp_iff, implies_true,
      and_true]
    exact ⟨.keyword rfl, floats, .operator .minus, integers, .literalWord rfl rfl,
      .text rfl (by decide)⟩
  have joined : Lexeme.Joined lexemes characters :=
    .cons (by decide) (by decide) (.cons (by decide) (by decide) (.cons (by decide) (by decide)
      (.cons (by decide) (by decide) (.cons (by decide) (by decide) (.one text)))))
  exact ⟨known, joined, sequence_joined known joined⟩

end Token

end VectorQuery
