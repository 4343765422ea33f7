import VectorQuery.Proofs.Token.Scan
import VectorQuery.Proofs.Token.Spelling

/-! What the front of a text is read as. The lexeme stands there as its token is spelled,
and it is read alike where less of the text follows; a fault names characters that stand
there. -/
namespace VectorQuery
open Text

/-- The characters that a token may stand for: a keyword in any letter case, a text between
two of a quote that it lacks, and everything else just as it is. -/
def TokenKind.Spelled (kind : TokenKind) (text : String) (spelling : List Char) : Prop :=
  match kind with
  | .keyword word => text = word.word ∧ text = upper (String.ofList spelling)
  | .literal .text => ∃ quote, Lexeme.isQuote quote = true ∧ quote ∉ text.toList ∧
      spelling = quote :: text.toList ++ [quote]
  | _ => text.toList = spelling

namespace Lexeme

/-- The lexeme is read off the front of a text, and where less follows it as well. -/
def Cuts (lexeme : Lexeme) (text : List Char) : Prop :=
  ∃ tail, text = lexeme.spelling ++ tail ∧ ∀ ⦃rest⦄, rest <+: tail → lexeme.Leads rest

theorem cuts_of_leads {lexeme : Lexeme} {kind : Char → Bool} {tail : List Char}
    (ends : Ends kind tail) (leads : ∀ ⦃rest⦄, Ends kind rest → lexeme.Leads rest) :
    lexeme.Cuts (lexeme.spelling ++ tail) :=
  ⟨tail, rfl, fun _ shorter => leads (ends.shorten shorter)⟩

section
variable {character : Char} {rest : List Char} {lexeme : Lexeme}

theorem ofNumeral_spelled {spelling : List Char} {isFloat : Bool}
    (read : ofNumeral spelling isFloat = .ok lexeme) :
    lexeme.spelling = spelling ∧ lexeme.kind.Spelled lexeme.text lexeme.spelling := by
  unfold ofNumeral at read
  split_ifs at read
  · obtain rfl := Except.ok.inj read
    exact ⟨rfl, String.toList_ofList⟩
  · obtain rfl := Except.ok.inj read
    exact ⟨rfl, String.toList_ofList⟩

theorem cuts_of_numeral (starts : Numeral.starts (character :: rest) = true)
    (visible : isBlank character = false) (read : first character rest = .ok lexeme) :
    lexeme.Cuts (character :: rest) ∧ lexeme.kind.Spelled lexeme.text lexeme.spelling := by
  rw [first_of_starts starts] at read
  obtain ⟨spelling, spelled⟩ := ofNumeral_spelled read
  obtain ⟨split, scans⟩ := Numeral.scan_cuts (character :: rest)
  refine ⟨⟨(Numeral.scan (character :: rest)).rest, spelling ▸ split,
    fun less shorter => ?_⟩, spelled⟩
  obtain ⟨negative, whole, places, power, before, -, -, form, -⟩ := Numeral.scan_form starts
  obtain ⟨head, others, signs, -⟩ := signed_cons negative before.isFraction
  have starting := Numeral.starts_signed negative before.isFraction (places ++ (power ++ less))
  have scanned := scans shorter
  rw [form, signs] at split
  obtain rfl := (List.cons.inj split).1
  rw [form] at scanned
  simp only [signs, List.cons_append, List.append_assoc] at scanned starting
  refine ⟨character, others ++ (places ++ power), ?_, visible, ?_⟩
  · rw [spelling, form, signs, List.cons_append]
  · simp only [List.append_assoc]
    rw [first_of_starts starting, scanned, ← read, form, signs, List.cons_append]

theorem ofWord_spelled (spelling : List Char) :
    (ofWord spelling).kind.Spelled (ofWord spelling).text spelling := by
  unfold ofWord
  simp only
  split_ifs
  · exact String.toList_ofList
  · exact String.toList_ofList
  · exact String.toList_ofList
  · split
    next keyword found =>
      have same := List.find?_some found
      exact ⟨(eq_of_beq same).symm, rfl⟩
    next => exact String.toList_ofList

theorem cuts_of_word (start : isWordStart character = true) (rest : List Char) :
    (ofWord ((character :: rest).takeWhile isWordPart)).Cuts (character :: rest) := by
  have cuts := cuts_of_leads (ends_dropWhile isWordPart (character :: rest))
    fun _ => leads_ofWord (takeWhile_word start rest)
  rwa [ofWord_spelling, List.takeWhile_append_dropWhile] at cuts

theorem quote_split {quote : Char} {text : List Char}
    (shorter : (text.takeWhile (· ≠ quote)).length < text.length) :
    ∃ tail, text = text.takeWhile (· ≠ quote) ++ quote :: tail := by
  have whole := List.takeWhile_append_dropWhile (p := (· ≠ quote)) (l := text)
  cases closing : text.dropWhile (· ≠ quote) with
  | nil =>
    rw [closing, List.append_nil] at whole
    exact absurd (congrArg List.length whole) (Nat.ne_of_lt shorter)
  | cons head tail =>
    have ends := ends_dropWhile (· ≠ quote) text
    rw [closing] at ends whole
    obtain rfl : head = quote := by simpa using ends head rfl
    exact ⟨tail, whole.symm⟩

theorem quotedText?_cases {quote : Char} {text : List Char} {lexeme : Lexeme}
    (read : quotedText? quote text = some lexeme) :
    ∃ content tail, quote ∉ content.toList ∧ lexeme = between quote content ∧
      text = content.toList ++ quote :: tail := by
  simp only [quotedText?, Option.ite_none_right_eq_some, Option.some.injEq] at read
  obtain ⟨shorter, same⟩ := read
  obtain ⟨tail, split⟩ := quote_split shorter
  generalize body : text.takeWhile (· ≠ quote) = content at split same
  refine ⟨String.ofList content, tail, ?_, ?_, ?_⟩
  · rw [String.toList_ofList, ← body]
    intro inside
    simpa using List.all_eq_true.mp List.all_takeWhile quote inside
  · rw [← same, between, String.toList_ofList]
  · rw [String.toList_ofList]
    exact split

theorem cuts_of_quoted (quotes : isQuote character = true)
    (read : quotedText? character rest = some lexeme) :
    lexeme.Cuts (character :: rest) ∧ lexeme.kind.Spelled lexeme.text lexeme.spelling := by
  obtain ⟨content, tail, absent, rfl, rfl⟩ := quotedText?_cases read
  refine ⟨⟨tail, ?_, fun less _ => leads_between quotes absent less⟩,
    character, quotes, absent, rfl⟩
  simp [between]

theorem ends_of_ne {kind : Char → Bool} {text : List Char}
    (other : ∀ character others, kind character = true → text ≠ character :: others) :
    Ends kind text := by
  intro character first
  obtain ⟨others, rfl⟩ := List.head?_eq_some_iff.mp first
  exact Bool.eq_false_iff.mpr fun found => other character others found rfl

theorem symbol?_cases {text : List Char} (plain : Numeral.starts text = false)
    (read : symbol? text = some lexeme) :
    (∃ operator tail, lexeme = ofOperator operator ∧ text = lexeme.spelling ++ tail ∧
      Ends operator.joins tail) ∨
    ∃ tail, (lexeme = comma ∨ lexeme = semicolon) ∧ text = lexeme.spelling ++ tail := by
  unfold symbol? at read
  split at read <;> cases read
  case h_6 tail noAngle noEqual =>
    refine .inl ⟨.less, tail, rfl, rfl, ends_of_ne fun character others joins => ?_⟩
    simp only [Operator.joins, Bool.or_eq_true, beq_iff_eq] at joins
    rcases joins with rfl | rfl
    · exact noAngle others
    · exact noEqual others
  case h_7 tail noEqual =>
    refine .inl ⟨.greater, tail, rfl, rfl, ends_of_ne fun character others joins => ?_⟩
    obtain rfl := eq_of_beq joins
    exact noEqual others
  case h_10 tail =>
    refine .inl ⟨.minus, tail, rfl, rfl, ends_of_ne fun character others digit => ?_⟩
    rintro rfl
    have stops : character.isDigit = false := plain
    exact Bool.eq_false_iff.mp stops digit
  case h_11 tail noStar =>
    refine .inl ⟨.star, tail, rfl, rfl, ends_of_ne fun character others joins => ?_⟩
    obtain rfl := eq_of_beq joins
    exact noStar others
  case h_22 tail => exact .inr ⟨tail, .inl rfl, rfl⟩
  case h_23 tail => exact .inr ⟨tail, .inr rfl, rfl⟩
  all_goals exact .inl ⟨_, _, rfl, rfl, fun _ _ => rfl⟩

theorem cuts_of_symbol {text : List Char} (plain : Numeral.starts text = false)
    (read : symbol? text = some lexeme) :
    lexeme.Cuts text ∧ lexeme.kind.Spelled lexeme.text lexeme.spelling := by
  rcases symbol?_cases plain read with ⟨operator, tail, rfl, split, ends⟩ | ⟨tail, rfl | rfl, split⟩
  · exact ⟨split ▸ cuts_of_leads ends fun _ => leads_ofOperator operator, rfl⟩
  · exact ⟨⟨tail, split, fun less _ => leads_comma less⟩, rfl⟩
  · exact ⟨⟨tail, split, fun less _ => leads_semicolon less⟩, rfl⟩

/-- What the front of a text is read as stands there, and is read alike in front of less. -/
theorem first_cuts (visible : isBlank character = false)
    (read : first character rest = .ok lexeme) :
    lexeme.Cuts (character :: rest) ∧ lexeme.kind.Spelled lexeme.text lexeme.spelling := by
  by_cases numeral : Numeral.starts (character :: rest) = true
  · exact cuts_of_numeral numeral visible read
  · unfold first at read
    split_ifs at read with word quotes
    · obtain rfl := Except.ok.inj read
      exact ⟨cuts_of_word word rest, ofWord_spelling _ ▸ ofWord_spelled _⟩
    · split at read
      next found =>
        obtain rfl := Except.ok.inj read
        exact cuts_of_quoted quotes found
      next => contradiction
    · split at read
      next found =>
        obtain rfl := Except.ok.inj read
        exact cuts_of_symbol (Bool.eq_false_iff.mpr numeral) found
      next => contradiction

end

end Lexeme

/-! What a text cannot start with. -/

/-- The fault names what the text starts with: a character, or an integer that is out of
range. -/
def LexicalFault.Starts (fault : LexicalFault) (text : List Char) : Prop :=
  fault.spelling <+: text ∧ match fault with
    | .illegalCharacter _ => True
    | .integerOutOfRange spelling => readInteger? spelling = none ∧
        ∃ negative digits, IsWhole digits ∧ spelling = Numeral.signed negative digits

theorem Lexeme.first_fault {character : Char} {rest : List Char} {fault : LexicalFault}
    (refused : first character rest = .error fault) : fault.Starts (character :: rest) := by
  have illegal : (LexicalFault.illegalCharacter character).Starts (character :: rest) :=
    ⟨⟨rest, rfl⟩, trivial⟩
  by_cases numeral : Numeral.starts (character :: rest) = true
  · rw [first_of_starts numeral] at refused
    obtain ⟨split, -⟩ := Numeral.scan_cuts (character :: rest)
    obtain ⟨negative, whole, places, power, before, -, -, form, isFloat⟩ :=
      Numeral.scan_form numeral
    unfold ofNumeral at refused
    split_ifs at refused with float readable
    obtain rfl := Except.error.inj refused
    have bare : places = [] ∧ power = [] := by simpa [isFloat] using float
    rw [bare.1, bare.2, List.append_nil, List.append_nil] at form
    exact ⟨⟨_, split.symm⟩, by simpa using readable, negative, whole, before, form⟩
  · unfold first at refused
    split_ifs at refused
    all_goals
      split at refused
      next => contradiction
      next => exact Except.error.inj refused ▸ illegal

end VectorQuery
