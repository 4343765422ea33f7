import VectorQuery.Proofs.Token.Layout

/-! How each kind of token is spelled: words, numbers, texts between a quote that they
lack, and symbols. Each spelling leads where no character that goes on with it follows,
and so it stands by itself. -/
namespace VectorQuery

/-- Some quote does not occur in the text. -/
def LacksQuote (text : String) : Prop :=
  ∃ quote, Lexeme.isQuote quote = true ∧ quote ∉ text.toList

/-- A word in upper case that is no literal. -/
structure IsTypeWord (name : String) : Prop where
  word : IsWord name.toList
  upper : Text.upper name = name
  free : name ≠ "TRUE" ∧ name ≠ "FALSE" ∧ name ≠ "NULL"

theorem Keyword.upper_word (keyword : Keyword) : Text.upper keyword.word = keyword.word := by
  cases keyword <;> decide +kernel

theorem Keyword.ofWord?_word (keyword : Keyword) : ofWord? keyword.word = some keyword := by
  cases keyword <;> decide +kernel

theorem Keyword.word_free (keyword : Keyword) :
    keyword.word ≠ "TRUE" ∧ keyword.word ≠ "FALSE" ∧ keyword.word ≠ "NULL" := by
  cases keyword <;> decide +kernel

def Operator.spelling : Operator → String
  | .equal => "="
  | .notEqual => "<>"
  | .bangEqual => "!="
  | .less => "<"
  | .lessEqual => "<="
  | .greater => ">"
  | .greaterEqual => ">="
  | .plus => "+"
  | .minus => "-"
  | .star => "*"
  | .doubleStar => "**"
  | .slash => "/"
  | .percent => "%"
  | .dot => "."
  | .colon => ":"
  | .openParen => "("
  | .closeParen => ")"
  | .openBracket => "["
  | .closeBracket => "]"
  | .openBrace => "\x7b"
  | .closeBrace => "\x7d"

/-- The characters that make another token of the operator in front of them. -/
def Operator.joins : Operator → Char → Bool
  | .minus, character => character.isDigit
  | .less, character => character == '>' || character == '='
  | .greater, character => character == '='
  | .star, character => character == '*'
  | _, _ => false

namespace Lexeme
open Text

def ofKeyword (keyword : Keyword) : Lexeme :=
  ofSymbol (.keyword keyword) keyword.word

def ofName (name : String) : Lexeme :=
  ofSymbol .identifier name

def ofOperator (operator : Operator) : Lexeme :=
  ofSymbol (.operator operator) operator.spelling

def comma : Lexeme :=
  ofSymbol (.separator .comma) ","

def semicolon : Lexeme :=
  ofSymbol (.separator .semicolon) ";"

/-- Items, the first of them behind this separator and the others behind a comma. -/
def separatedBy {α : Type} (separator : List Lexeme) (write : α → List Lexeme) :
    List α → List Lexeme
  | [] => []
  | item :: items => separator ++ write item ++ separatedBy [comma] write items

/-- Nothing, or one comma. -/
def IsSeparator (separator : List Lexeme) : Prop :=
  separator = [] ∨ separator = [comma]

def ofBoolean (truth : Bool) : Lexeme :=
  ofSymbol (.literal (.boolean truth)) (if truth then "true" else "false")

def null : Lexeme :=
  ofSymbol (.literal .null) "null"

def ofInteger (number : Int64) : Lexeme :=
  ⟨.literal .integer, String.ofList (writeInteger number), writeInteger number⟩

/-- A float as this layout writes it. -/
def ofFloatAs (layout : Binary64.Layout) (number : Binary64) : Lexeme :=
  ⟨.literal .float, String.ofList (layout.write number), layout.write number⟩

def ofFloat (number : Binary64) : Lexeme :=
  ⟨.literal .float, String.ofList (Binary64.plain.write number), Binary64.plain.write number⟩

/-- The first quote that the text lacks, and the last one where it holds all. -/
def quoteFor (text : String) : Char :=
  if '\'' ∈ text.toList then
    if '"' ∈ text.toList then '\x60' else '"'
  else '\''

/-- A text between two of this quote. -/
def between (quote : Char) (text : String) : Lexeme :=
  ⟨.literal .text, text, quote :: text.toList ++ [quote]⟩

def ofText (text : String) : Lexeme :=
  ⟨.literal .text, text, quoteFor text :: text.toList ++ [quoteFor text]⟩

section
variable (keyword : Keyword) (operator : Operator) (name text : String) (number : Int64)

@[simp] theorem ofKeyword_kind : (ofKeyword keyword).kind = .keyword keyword := rfl
@[simp] theorem ofName_kind : (ofName name).kind = .identifier := rfl
@[simp] theorem ofOperator_kind : (ofOperator operator).kind = .operator operator := rfl
@[simp] theorem ofText_kind : (ofText text).kind = .literal .text := rfl
@[simp] theorem ofInteger_kind : (ofInteger number).kind = .literal .integer := rfl
@[simp] theorem comma_kind : comma.kind = .separator .comma := rfl
@[simp] theorem semicolon_kind : semicolon.kind = .separator .semicolon := rfl

end

theorem stands_of_leads {lexeme : Lexeme} {kind : Char → Bool}
    (visible : ∀ character, kind character = true → isBlank character = false)
    (leads : ∀ ⦃rest⦄, Ends kind rest → lexeme.Leads rest) : lexeme.Stands :=
  fun _ apart => leads (apart.ends visible)

/-! Words. -/

section
variable {rest : List Char}

theorem not_isBlank_of_isWordPart {character : Char} (part : isWordPart character = true) :
    isBlank character = false := by
  simp only [isWordPart, Bool.or_eq_true, beq_iff_eq] at part
  rcases part with (start | digit) | rfl
  · have code := isWordStart_code start
    apply not_isBlank
    omega
  · exact not_isBlank_of_isDigit digit
  · decide

theorem starts_of_isWordStart {character : Char} (start : isWordStart character = true)
    (rest : List Char) : Numeral.starts (character :: rest) = false := by
  have code := isWordStart_code start
  have plain : character.isDigit = false := by
    by_contra digit
    have := isDigit_code (by simpa using digit)
    omega
  unfold Numeral.starts
  split
  next others same =>
    obtain ⟨rfl, -⟩ := List.cons.inj same
    contradiction
  next => simpa [Numeral.startsWithDigit] using plain

theorem ofWord_spelling (spelling : List Char) : (ofWord spelling).spelling = spelling := by
  unfold ofWord
  simp only
  split_ifs
  · rfl
  · rfl
  · rfl
  · split <;> rfl

theorem leads_ofWord {spelling : List Char} (word : IsWord spelling)
    (ends : Ends isWordPart rest) : (ofWord spelling).Leads rest := by
  obtain ⟨⟨character, others, rfl, start⟩, parts⟩ := word
  have visible : isBlank character = false :=
    not_isBlank_of_isWordPart (parts character (by simp))
  have run : (character :: others ++ rest).takeWhile isWordPart = character :: others :=
    takeWhile_of_ends parts ends
  have numeral := starts_of_isWordStart start (others ++ rest)
  refine ⟨character, others, ofWord_spelling _, visible, ?_⟩
  rw [first, numeral, start, ← List.cons_append, run]
  rfl

theorem stands_ofWord {spelling : List Char} (word : IsWord spelling) :
    (ofWord spelling).Stands :=
  stands_of_leads (fun _ => not_isBlank_of_isWordPart) fun _ => leads_ofWord word

theorem ofWord_of_isName {name : String} (isName : IsName name) :
    ofWord name.toList = ofName name := by
  obtain ⟨_, ⟨yes, no, null⟩, unreserved⟩ := isName
  have whole : String.ofList name.toList = name := String.ofList_toList
  simp only [ofWord, whole, if_neg yes, if_neg no, if_neg null, unreserved]
  rfl

theorem leads_ofName {name : String} (isName : IsName name) (ends : Ends isWordPart rest) :
    (ofName name).Leads rest :=
  ofWord_of_isName isName ▸ leads_ofWord isName.word ends

theorem stands_ofName {name : String} (isName : IsName name) : (ofName name).Stands :=
  ofWord_of_isName isName ▸ stands_ofWord isName.word

theorem ofWord_keyword (keyword : Keyword) : ofWord keyword.word.toList = ofKeyword keyword := by
  obtain ⟨yes, no, null⟩ := keyword.word_free
  simp only [ofWord, String.ofList_toList, keyword.upper_word, if_neg yes, if_neg no, if_neg null,
    keyword.ofWord?_word]
  rfl

theorem isWord_keyword (keyword : Keyword) : IsWord keyword.word.toList := by
  cases keyword <;> exact isWord_of_checked rfl rfl

theorem leads_ofKeyword (keyword : Keyword) (ends : Ends isWordPart rest) :
    (ofKeyword keyword).Leads rest :=
  ofWord_keyword keyword ▸ leads_ofWord (isWord_keyword keyword) ends

theorem stands_ofKeyword (keyword : Keyword) : (ofKeyword keyword).Stands :=
  ofWord_keyword keyword ▸ stands_ofWord (isWord_keyword keyword)

theorem leads_ofBoolean (truth : Bool) (ends : Ends isWordPart rest) :
    (ofBoolean truth).Leads rest := by
  cases truth with
  | true =>
    have word : IsWord "true".toList := isWord_of_checked rfl rfl
    have same : ofWord "true".toList = ofBoolean true := rfl
    exact same ▸ leads_ofWord word ends
  | false =>
    have word : IsWord "false".toList := isWord_of_checked rfl rfl
    have same : ofWord "false".toList = ofBoolean false := rfl
    exact same ▸ leads_ofWord word ends

theorem stands_ofBoolean (truth : Bool) : (ofBoolean truth).Stands :=
  stands_of_leads (fun _ => not_isBlank_of_isWordPart) fun _ => leads_ofBoolean truth

theorem leads_null (ends : Ends isWordPart rest) : null.Leads rest := by
  have word : IsWord "null".toList := isWord_of_checked rfl rfl
  have same : ofWord "null".toList = null := rfl
  exact same ▸ leads_ofWord word ends

theorem stands_null : null.Stands :=
  stands_of_leads (fun _ => not_isBlank_of_isWordPart) fun _ => leads_null

/-! Numbers. -/

theorem not_isBlank_of_goesOn {character : Char} (more : Numeral.goesOn character = true) :
    isBlank character = false := by
  simp only [Numeral.goesOn, Bool.or_eq_true, beq_iff_eq] at more
  rcases more with ((digit | rfl) | rfl) | rfl
  · exact not_isBlank_of_isDigit digit
  · decide
  · decide
  · decide

theorem signed_cons (negative : Bool) {digits : List Char} (written : IsFraction digits) :
    ∃ character others, Numeral.signed negative digits = character :: others ∧
      isBlank character = false := by
  cases negative with
  | true => exact ⟨'-', digits, rfl, by decide⟩
  | false =>
    obtain ⟨filled, all⟩ := written
    cases digits with
    | nil => contradiction
    | cons digit others => exact ⟨digit, others, rfl, not_isBlank_of_isDigit (all digit (by simp))⟩

/-- What a scanned numeral is read as. -/
def ofNumeral (spelling : List Char) (isFloat : Bool) : Except LexicalFault Lexeme :=
  if isFloat then .ok ⟨.literal .float, String.ofList spelling, spelling⟩
  else if (readInteger? spelling).isSome then
    .ok ⟨.literal .integer, String.ofList spelling, spelling⟩
  else .error (.integerOutOfRange spelling)

theorem first_of_starts {character : Char} (starts : Numeral.starts (character :: rest) = true) :
    first character rest = ofNumeral (Numeral.scan (character :: rest)).spelling
      (Numeral.scan (character :: rest)).isFloat :=
  if_pos starts

/-- A spelling in the form of a numeral leads where nothing goes on with it. -/
theorem leads_numeral {lexeme : Lexeme} {negative : Bool} {whole places power : List Char}
    (before : IsWhole whole) (behind : IsPlaces places) (last : IsPower power)
    (spelled : lexeme.spelling = Numeral.signed negative whole ++ (places ++ power))
    (ends : Ends Numeral.goesOn rest)
    (reads : ofNumeral lexeme.spelling (!places.isEmpty || !power.isEmpty) = .ok lexeme) :
    lexeme.Leads rest := by
  obtain ⟨character, others, split, visible⟩ := signed_cons negative before.isFraction
  have spelling : lexeme.spelling = character :: (others ++ (places ++ power)) := by
    rw [spelled, split, List.cons_append]
  have starts := Numeral.starts_signed negative before.isFraction (places ++ (power ++ rest))
  have scanned := Numeral.scan_numeral negative before behind last ends
  rw [← spelled] at scanned
  rw [split, List.cons_append] at starts scanned
  refine ⟨character, _, spelling, visible, ?_⟩
  simp only [List.append_assoc]
  rw [first_of_starts starts, scanned]
  exact reads

theorem leads_ofInteger (number : Int64) (ends : Ends Numeral.goesOn rest) :
    (ofInteger number).Leads rest := by
  obtain ⟨negative, digits, whole, spelled⟩ := Numeral.writeInteger_eq number
  have readable : (readInteger? (ofInteger number).spelling).isSome = true := by
    rw [ofInteger, readInteger?_writeInteger]
    rfl
  refine leads_numeral whole (.inl rfl) (.inl rfl) (by simpa [ofInteger] using spelled) ends ?_
  rw [List.isEmpty_nil, ofNumeral, if_neg (by decide), if_pos readable]
  rfl

theorem stands_ofInteger (number : Int64) : (ofInteger number).Stands :=
  stands_of_leads (fun _ => not_isBlank_of_goesOn) fun _ => leads_ofInteger number

theorem leads_ofFloatAs (layout : Binary64.Layout) {number : Binary64}
    (finite : number.isFinite = true) (ends : Ends Numeral.goesOn rest) :
    (ofFloatAs layout number).Leads rest := by
  obtain ⟨negative, whole, places, power, before, behind, last, filled, spelled⟩ :=
    Numeral.write_eq layout finite
  have isFloat : (!places.isEmpty || !power.isEmpty) = true := by simpa using filled
  refine leads_numeral before behind last spelled ends ?_
  rw [isFloat]
  rfl

theorem stands_ofFloat {number : Binary64} (finite : number.isFinite = true) :
    (ofFloat number).Stands :=
  stands_of_leads (fun _ => not_isBlank_of_goesOn) fun _ => leads_ofFloatAs Binary64.plain finite

/-! Texts. -/

theorem quoteFor_spec {text : String} (lacks : LacksQuote text) :
    isQuote (quoteFor text) = true ∧ quoteFor text ∉ text.toList := by
  obtain ⟨quote, isQuote, absent⟩ := lacks
  unfold quoteFor
  split_ifs with single double
  · refine ⟨rfl, ?_⟩
    simp only [Lexeme.isQuote, Bool.or_eq_true, beq_iff_eq] at isQuote
    rcases isQuote with (rfl | rfl) | rfl
    · exact absurd single absent
    · exact absurd double absent
    · exact absent
  · exact ⟨rfl, double⟩
  · exact ⟨rfl, single⟩

theorem leads_between {quote : Char} {text : String} (quotes : isQuote quote = true)
    (absent : quote ∉ text.toList) (rest : List Char) : (between quote text).Leads rest := by
  have known : quote = '\'' ∨ quote = '"' ∨ quote = '\x60' := by
    simpa [isQuote, or_assoc] using quotes
  refine ⟨quote, text.toList ++ [quote], rfl, ?_, ?_⟩
  · rcases known with rfl | rfl | rfl <;> decide
  · have body : (text.toList ++ quote :: rest).takeWhile (· ≠ quote) = text.toList := by
      refine takeWhile_of_ends (fun character inside => ?_) (ends_cons (by simp) rest)
      have differs : character ≠ quote := fun same => absent (same ▸ inside)
      simpa using differs
    have plain : Numeral.starts (quote :: (text.toList ++ [quote] ++ rest)) = false ∧
        isWordStart quote = false := by
      rcases known with rfl | rfl | rfl <;> exact ⟨rfl, rfl⟩
    have quoted : quotedText? quote (text.toList ++ [quote] ++ rest) =
        some (between quote text) := by
      rw [List.append_assoc, List.singleton_append, quotedText?]
      simp only [body, between, String.ofList_toList]
      simp
    rw [first, plain.1, plain.2, quotes, quoted]
    rfl

theorem stands_ofText {text : String} (lacks : LacksQuote text) : (ofText text).Stands := by
  obtain ⟨quotes, absent⟩ := quoteFor_spec lacks
  exact fun rest _ => leads_between quotes absent rest

/-! Symbols. -/

theorem leads_symbol {kind : TokenKind} {spelling : String} (character : Char)
    (others : List Char) (spelled : spelling.toList = character :: others)
    (bare : isBlank character = false ∧ isWordStart character = false ∧ isQuote character = false)
    (plain : Numeral.starts (character :: (others ++ rest)) = false)
    (found : symbol? (character :: (others ++ rest)) = some (ofSymbol kind spelling)) :
    (ofSymbol kind spelling).Leads rest := by
  obtain ⟨visible, letterless, quoteless⟩ := bare
  refine ⟨character, others, spelled, visible, ?_⟩
  rw [first, plain, letterless, quoteless, found]
  rfl

theorem ends_ne {kind : Char → Bool} (ends : Ends kind rest) (character : Char)
    (joins : kind character = true) (others : List Char) : rest ≠ character :: others := by
  rintro rfl
  have stops := ends character rfl
  simp [joins] at stops

theorem leads_ofOperator (operator : Operator) (ends : Ends operator.joins rest) :
    (ofOperator operator).Leads rest := by
  cases operator
  case minus =>
    have unsigned : Numeral.starts ('-' :: rest) = false := by
      cases rest with
      | nil => rfl
      | cons character others => exact ends character rfl
    exact leads_symbol '-' [] rfl ⟨rfl, rfl, rfl⟩ unsigned rfl
  case less =>
    have single (others : List Char) : rest ≠ '>' :: others ∧ rest ≠ '=' :: others :=
      ⟨ends_ne ends '>' rfl others, ends_ne ends '=' rfl others⟩
    refine leads_symbol '<' [] rfl ⟨rfl, rfl, rfl⟩ rfl ?_
    simp [symbol?, single, Operator.spelling]
  case greater =>
    refine leads_symbol '>' [] rfl ⟨rfl, rfl, rfl⟩ rfl ?_
    simp [symbol?, ends_ne ends '=' rfl, Operator.spelling]
  case star =>
    refine leads_symbol '*' [] rfl ⟨rfl, rfl, rfl⟩ rfl ?_
    simp [symbol?, ends_ne ends '*' rfl, Operator.spelling]
  case notEqual => exact leads_symbol '<' ['>'] rfl ⟨rfl, rfl, rfl⟩ rfl rfl
  case bangEqual => exact leads_symbol '!' ['='] rfl ⟨rfl, rfl, rfl⟩ rfl rfl
  case lessEqual => exact leads_symbol '<' ['='] rfl ⟨rfl, rfl, rfl⟩ rfl rfl
  case greaterEqual => exact leads_symbol '>' ['='] rfl ⟨rfl, rfl, rfl⟩ rfl rfl
  case doubleStar => exact leads_symbol '*' ['*'] rfl ⟨rfl, rfl, rfl⟩ rfl rfl
  all_goals exact leads_symbol _ [] rfl ⟨rfl, rfl, rfl⟩ rfl rfl

theorem not_isBlank_of_joins {operator : Operator} {character : Char}
    (joins : operator.joins character = true) : isBlank character = false := by
  cases operator
  case minus => exact not_isBlank_of_isDigit joins
  case less =>
    simp only [Operator.joins, Bool.or_eq_true, beq_iff_eq] at joins
    rcases joins with rfl | rfl <;> decide
  case greater =>
    obtain rfl := eq_of_beq joins
    decide
  case star =>
    obtain rfl := eq_of_beq joins
    decide
  all_goals contradiction

theorem stands_ofOperator (operator : Operator) : (ofOperator operator).Stands :=
  stands_of_leads (fun _ => not_isBlank_of_joins) fun _ => leads_ofOperator operator

theorem leads_comma (rest : List Char) : comma.Leads rest :=
  leads_symbol ',' [] rfl ⟨rfl, rfl, rfl⟩ rfl rfl

theorem stands_comma : comma.Stands :=
  fun rest _ => leads_comma rest

theorem leads_semicolon (rest : List Char) : semicolon.Leads rest :=
  leads_symbol ';' [] rfl ⟨rfl, rfl, rfl⟩ rfl rfl

theorem stands_semicolon : semicolon.Stands :=
  fun rest _ => leads_semicolon rest

end

end Lexeme

end VectorQuery
