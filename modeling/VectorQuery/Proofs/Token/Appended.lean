import VectorQuery.Proofs.Token.Lexicon
import VectorQuery.Proofs.Token.Place

/-! White space or a semicolon behind a text. Neither goes on with what stands in front of
it, not even with a quote that is left open; so white space adds no token, and a semicolon
adds its own. -/
namespace VectorQuery

namespace Text

/-- White space or a semicolon. -/
def isStop (character : Char) : Bool :=
  isBlank character || character == ';'

variable {stop : Char}

theorem isStop_code (stops : isStop stop = true) :
    stop.toNat ≤ 0x20 ∨ stop.toNat = 0x3b ∨ 0x85 ≤ stop.toNat := by
  simp only [isStop, Bool.or_eq_true, beq_iff_eq] at stops
  rcases stops with blank | rfl
  · have := isBlank_code blank
    omega
  · decide

theorem ne_of_isStop (stops : isStop stop = true) {character : Char}
    (shown : 0x20 < character.toNat ∧ character.toNat ≠ 0x3b ∧ character.toNat < 0x85) :
    stop ≠ character := by
  rintro rfl
  have := isStop_code stops
  omega

theorem not_isDigit_of_isStop (stops : isStop stop = true) : stop.isDigit = false := by
  refine Bool.eq_false_iff.mpr fun digit => ?_
  have codes := isDigit_code digit
  exact ne_of_isStop stops (by omega) rfl

theorem not_isWordPart_of_isStop (stops : isStop stop = true) :
    Lexeme.isWordPart stop = false := by
  refine Bool.eq_false_iff.mpr fun part => ?_
  simp only [Lexeme.isWordPart, Bool.or_eq_true, beq_iff_eq] at part
  rcases part with (start | digit) | line
  · have codes := Lexeme.isWordStart_code start
    exact ne_of_isStop stops (by omega) rfl
  · exact Bool.eq_false_iff.mp (not_isDigit_of_isStop stops) digit
  · exact ne_of_isStop stops (by decide) line

theorem takeWhile_append_stop {kind : Char → Bool} (other : kind stop = false)
    (text : List Char) : (text ++ [stop]).takeWhile kind = text.takeWhile kind := by
  induction text with
  | nil => simp [other]
  | cons character text ih =>
    cases same : kind character with
    | true => simp [same, ih]
    | false => simp [same]

theorem dropWhile_append_stop {kind : Char → Bool} (other : kind stop = false)
    (text : List Char) : (text ++ [stop]).dropWhile kind = text.dropWhile kind ++ [stop] := by
  induction text with
  | nil => simp [other]
  | cons character text ih =>
    cases same : kind character with
    | true => simp [same, ih]
    | false => simp [same]

end Text

namespace Numeral
open Text

variable {stop : Char} (stops : isStop stop = true)
include stops

/-! Every part of a numeral is scanned as before. -/

theorem startsWithDigit_append_stop (text : List Char) :
    startsWithDigit (text ++ [stop]) = startsWithDigit text := by
  cases text with
  | nil => exact not_isDigit_of_isStop stops
  | cons character text => rfl

theorem starts_append_stop (character : Char) (rest : List Char) :
    starts (character :: (rest ++ [stop])) = starts (character :: rest) := by
  by_cases minus : character = '-'
  · subst minus
    exact startsWithDigit_append_stop stops rest
  · simp [starts, minus, startsWithDigit]

theorem sign_append_stop (text : List Char) :
    sign (text ++ [stop]) = ((sign text).1, (sign text).2 ++ [stop]) := by
  cases text with
  | nil => simp [sign, ne_of_isStop stops (show 0x20 < '-'.toNat ∧ _ by decide)]
  | cons character text =>
    by_cases minus : character = '-'
    · subst minus
      rfl
    · simp [sign, minus]

theorem whole_append_stop (text : List Char) :
    whole (text ++ [stop]) = ((whole text).1, (whole text).2 ++ [stop]) := by
  have digitless := not_isDigit_of_isStop stops
  cases text with
  | nil => simp [whole, digitless, ne_of_isStop stops (show 0x20 < '0'.toNat ∧ _ by decide)]
  | cons character text =>
    by_cases zero : character = '0'
    · subst zero
      rfl
    · have run := takeWhile_append_stop digitless (character :: text)
      have behind := dropWhile_append_stop digitless (character :: text)
      rw [List.cons_append] at run behind
      simp [whole, zero, run, behind]

theorem fraction_append_stop (text : List Char) :
    fraction (text ++ [stop]) = ((fraction text).1, (fraction text).2 ++ [stop]) := by
  have digitless := not_isDigit_of_isStop stops
  cases text with
  | nil => simp [fraction, ne_of_isStop stops (show 0x20 < '.'.toNat ∧ _ by decide)]
  | cons character text =>
    by_cases point : character = '.'
    · subst point
      simp only [List.cons_append, fraction, startsWithDigit_append_stop stops,
        takeWhile_append_stop digitless, dropWhile_append_stop digitless]
      split_ifs <;> rfl
    · simp [fraction, point]

theorem exponentSign_append_stop (text : List Char) :
    exponentSign (text ++ [stop]) = ((exponentSign text).1, (exponentSign text).2 ++ [stop]) := by
  cases text with
  | nil =>
    have plus := ne_of_isStop stops (show 0x20 < '+'.toNat ∧ _ by decide)
    have minus := ne_of_isStop stops (show 0x20 < '-'.toNat ∧ _ by decide)
    simp [exponentSign, plus, minus]
  | cons character text =>
    by_cases plus : character = '+'
    · subst plus
      rfl
    · by_cases minus : character = '-'
      · subst minus
        rfl
      · simp [exponentSign, plus, minus]

theorem exponent_append_stop (text : List Char) :
    exponent (text ++ [stop]) = ((exponent text).1, (exponent text).2 ++ [stop]) := by
  have digitless := not_isDigit_of_isStop stops
  cases text with
  | nil =>
    have small := ne_of_isStop stops (show 0x20 < 'e'.toNat ∧ _ by decide)
    have large := ne_of_isStop stops (show 0x20 < 'E'.toNat ∧ _ by decide)
    simp [exponent, small, large]
  | cons mark text =>
    simp only [List.cons_append, exponent, exponentSign_append_stop stops,
      startsWithDigit_append_stop stops, takeWhile_append_stop digitless,
      dropWhile_append_stop digitless]
    split_ifs <;> rfl

theorem scan_append_stop (text : List Char) :
    scan (text ++ [stop]) =
      ⟨(scan text).spelling, (scan text).isFloat, (scan text).rest ++ [stop]⟩ := by
  simp only [scan, sign_append_stop stops, whole_append_stop stops, fraction_append_stop stops,
    exponent_append_stop stops]

end Numeral

namespace Lexeme
open Text

theorem symbol?_alone {character : Char} (alone : character ∉ "<>!*".toList) (rest : List Char) :
    symbol? (character :: rest) = symbol? [character] := by
  by_cases known : character ∈ "=+-/%.:()[]\x7b\x7d,;".toList
  · simp only [String.reduceToList, List.mem_cons, List.not_mem_nil, or_false] at known
    rcases known with rfl | rfl | rfl | rfl | rfl | rfl | rfl | rfl | rfl | rfl | rfl | rfl | rfl |
      rfl | rfl <;> rfl
  · simp only [String.reduceToList, List.mem_cons, List.not_mem_nil, or_false, not_or] at known alone
    simp [symbol?, known, alone]

section
variable {stop : Char} (stops : isStop stop = true)
include stops

theorem symbol?_append_stop (character : Char) (rest : List Char) :
    symbol? (character :: (rest ++ [stop])) = symbol? (character :: rest) := by
  by_cases alone : character ∈ "<>!*".toList
  · simp only [String.reduceToList, List.mem_cons, List.not_mem_nil, or_false] at alone
    -- Only here does the next character count, and the stop is none that joins.
    cases rest with
    | nil =>
      have equal := ne_of_isStop stops (show 0x20 < '='.toNat ∧ _ by decide)
      have angle := ne_of_isStop stops (show 0x20 < '>'.toNat ∧ _ by decide)
      have star := ne_of_isStop stops (show 0x20 < '*'.toNat ∧ _ by decide)
      rcases alone with rfl | rfl | rfl | rfl <;> simp [symbol?, equal, angle, star]
    | cons next rest =>
      by_cases equal : next = '='
      · subst equal
        rcases alone with rfl | rfl | rfl | rfl <;> rfl
      · by_cases angle : next = '>'
        · subst angle
          rcases alone with rfl | rfl | rfl | rfl <;> rfl
        · by_cases star : next = '*'
          · subst star
            rcases alone with rfl | rfl | rfl | rfl <;> rfl
          · rcases alone with rfl | rfl | rfl | rfl <;> simp [symbol?, equal, angle, star]
  · rw [symbol?_alone alone (rest ++ [stop]), symbol?_alone alone rest]

/-- A quote that is left open stays open. -/
theorem quotedText?_append_stop {quote : Char} (quotes : isQuote quote = true)
    (text : List Char) : quotedText? quote (text ++ [stop]) = quotedText? quote text := by
  have other : stop ≠ quote := by
    simp only [isQuote, Bool.or_eq_true, beq_iff_eq] at quotes
    rcases quotes with (rfl | rfl) | rfl <;> exact ne_of_isStop stops (by decide)
  by_cases shorter : (text.takeWhile (· ≠ quote)).length < text.length
  · obtain ⟨tail, split⟩ := quote_split shorter
    have run : (text ++ [stop]).takeWhile (· ≠ quote) = text.takeWhile (· ≠ quote) := by
      conv => lhs; rw [split, List.append_assoc]
      exact takeWhile_of_ends (List.all_eq_true.mp List.all_takeWhile) (ends_cons (by simp) _)
    have longer : (text.takeWhile (· ≠ quote)).length < (text ++ [stop]).length := by
      rw [List.length_append]
      omega
    simp only [quotedText?, run, if_pos shorter, if_pos longer]
  · have whole : text.takeWhile (· ≠ quote) = text :=
      (List.takeWhile_prefix _).eq_of_length_le (Nat.le_of_not_lt shorter)
    have all : ∀ character ∈ text, decide (character ≠ quote) = true := by
      rw [← whole]
      exact List.all_eq_true.mp List.all_takeWhile
    have run : (text ++ [stop]).takeWhile (· ≠ quote) = text ++ [stop] := by
      rw [List.takeWhile_append_of_pos all]
      simp [other]
    simp only [quotedText?, run, whole, Nat.lt_irrefl, if_false]

/-- The front of a text is read as before, and so is a fault there. -/
theorem first_append_stop (character : Char) (rest : List Char) :
    first character (rest ++ [stop]) = first character rest := by
  have scanned := Numeral.scan_append_stop stops (character :: rest)
  have word := takeWhile_append_stop (not_isWordPart_of_isStop stops) (character :: rest)
  rw [List.cons_append] at scanned word
  unfold first
  simp only [Numeral.starts_append_stop stops, scanned, word, symbol?_append_stop stops]
  split_ifs with numeral float readable start quotes
  · rfl
  · rfl
  · rfl
  · rfl
  · rw [quotedText?_append_stop stops quotes]
  · rfl

end

end Lexeme

/-- The last token stands at the end of the text, but for white space. -/
theorem Laid.last {before text : List Char} {tokens : List Token} {token : Token}
    (laid : Laid before text (tokens ++ [token])) :
    ∃ front spelling blanks, text = front ++ spelling ++ blanks ∧
      token.kind.Spelled token.text spelling ∧ blanks.all Text.isBlank = true := by
  generalize whole : tokens ++ [token] = all at laid
  induction laid generalizing tokens with
  | done => simp at whole
  | @token before blank spelling rest head others _ _ spelled _ behind ih =>
    cases tokens with
    | nil =>
      obtain ⟨rfl, rfl⟩ := List.cons.inj whole
      cases behind with
      | done white => exact ⟨blank, spelling, rest, rfl, spelled, white⟩
    | cons first tokens =>
      obtain ⟨rfl, rfl⟩ := List.cons.inj whole
      obtain ⟨front, last, blanks, rfl, standing, white⟩ := ih rfl
      exact ⟨blank ++ spelling ++ front, last, blanks, by simp, standing, white⟩

namespace Token
open Text

/-- The tokens of white space or of a semicolon alone. -/
def ofStop (stop : Char) (position : Position) : List Token :=
  if isBlank stop then [] else [ofLexeme Lexeme.semicolon position]

section
variable {stop : Char} (stops : isStop stop = true)
include stops

theorem sequenceFrom_stop (left : Nat) (tokens : List Token) (position : Position) :
    sequenceFrom tokens (left + 1) position [stop] =
      .ok (tokens.reverse ++ ofStop stop position) := by
  have done (tokens : List Token) (position : Position) :
      sequenceFrom tokens left position [] = .ok tokens.reverse := by
    cases left <;> rfl
  rw [sequenceFrom, ofStop]
  split_ifs with blank
  · rw [done, List.append_nil]
  · obtain rfl : stop = ';' := by simpa [isStop, blank] using stops
    have read : Lexeme.first ';' [] = .ok Lexeme.semicolon := rfl
    simp only [read]
    exact (done _ _).trans (by rw [List.reverse_cons])

theorem sequenceFrom_append_stop {left : Nat} {text : List Char} (enough : text.length ≤ left)
    (tokens : List Token) (position : Position) :
    sequenceFrom tokens (left + 1) position (text ++ [stop]) =
      (sequenceFrom tokens left position text).map
        (· ++ ofStop stop (position.afterAll text)) := by
  induction left generalizing text tokens position with
  | zero =>
    obtain rfl := List.length_eq_zero_iff.mp (Nat.le_zero.mp enough)
    exact sequenceFrom_stop stops 0 tokens position
  | succ left ih =>
    cases text with
    | nil => exact sequenceFrom_stop stops (left + 1) tokens position
    | cons character rest =>
      rw [List.cons_append, sequenceFrom, sequenceFrom]
      split_ifs with blank
      · exact ih (by simpa using enough) tokens (position.after character)
      · have visible : isBlank character = false := Bool.eq_false_iff.mpr blank
        rw [Lexeme.first_append_stop stops]
        cases found : Lexeme.first character rest with
        | error fault => rfl
        | ok lexeme =>
          obtain ⟨tail, split, behind, shorter, -⟩ := first_takes visible found enough
          have within : (character :: (rest ++ [stop])).drop lexeme.spelling.length =
              tail ++ [stop] := by
            rw [← List.cons_append, split, List.append_assoc, List.drop_left]
          have place : position.afterAll (character :: rest) =
              (position.afterAll lexeme.spelling).afterAll tail := by
            rw [split, Position.afterAll, List.foldl_append]
            rfl
          simp only [within, behind, place]
          exact ih shorter _ _

end

/-- White space behind a text adds no token and mends no fault. -/
theorem sequence_append_blank {blank : Char} (white : isBlank blank = true) (text : List Char) :
    sequence (String.ofList (text ++ [blank])) = sequence (String.ofList text) := by
  have stops : isStop blank = true := by simp [isStop, white]
  have run := sequenceFrom_append_stop stops (Nat.le_refl text.length) [] .start
  simp only [ofStop, white, if_true, List.append_nil] at run
  rw [sequence, sequence, String.toList_ofList, String.toList_ofList, List.length_append]
  refine run.trans ?_
  cases sequenceFrom [] text.length .start text <;> rfl

theorem sequence_append_blanks {blanks : List Char} (white : blanks.all isBlank = true)
    (text : List Char) :
    sequence (String.ofList (text ++ blanks)) = sequence (String.ofList text) := by
  induction blanks generalizing text with
  | nil => rw [List.append_nil]
  | cons blank blanks ih =>
    obtain ⟨first, others⟩ := Bool.and_eq_true_iff.mp white
    rw [← List.singleton_append, ← List.append_assoc, ih others, sequence_append_blank first]

/-- A semicolon behind a text adds its own token and mends no fault. -/
theorem sequence_append_semicolon (text : List Char) :
    sequence (String.ofList (text ++ [';'])) = (sequence (String.ofList text)).map
      (· ++ [ofLexeme Lexeme.semicolon (Position.start.afterAll text)]) := by
  have stops : isStop ';' = true := rfl
  have run := sequenceFrom_append_stop stops (Nat.le_refl text.length) [] .start
  rw [sequence, sequence, String.toList_ofList, String.toList_ofList, List.length_append]
  exact run

theorem text_of_semicolon {text : String} {tokens : List Token} (read : sequence text = .ok tokens)
    {token : Token} (inside : token ∈ tokens) (ends : token.kind = .separator .semicolon) :
    token.text = ";" := by
  obtain ⟨lexeme, known, kind, text⟩ := sequence_lexicon read token inside
  rw [text]
  rw [ends] at kind
  cases known
  case semicolon => rfl
  all_goals cases kind

/-- A text whose last token is a semicolon ends with one, but for white space. -/
theorem split_of_semicolon {text : List Char} {tokens : List Token} {semicolon : Token}
    (read : sequence (String.ofList text) = .ok (tokens ++ [semicolon]))
    (ends : semicolon.kind = .separator .semicolon) :
    ∃ front blanks, text = front ++ ';' :: blanks ∧ blanks.all isBlank = true := by
  have semicolons := text_of_semicolon read (by simp) ends
  have start : Position.start = .behind [] := rfl
  rw [sequence, start, String.toList_ofList] at read
  obtain ⟨later, whole, laid⟩ := sequenceFrom_laid (Nat.le_refl _) read
  rw [List.reverse_nil, List.nil_append] at whole
  obtain ⟨front, spelling, blanks, split, spelled, white⟩ := (whole ▸ laid).last
  rw [ends, semicolons] at spelled
  obtain rfl : [';'] = spelling := spelled
  exact ⟨front, blanks, by simp [split], white⟩

end Token

end VectorQuery
