import VectorQuery.Proofs.Statement.Range

/-! The numbers of a statement convert. Every literal of a text has a value, an integer is
written as it was read, and a number loses the sign that stands against it, save for the least
integer, whose digits alone are out of range. -/
namespace VectorQuery

namespace Numeral

variable {negative : Bool} {digits : List Char}

theorem exists_integer (written : IsWhole digits)
    (least : Int64.minValue.toInt ≤ number negative digits)
    (most : number negative digits ≤ Int64.maxValue.toInt) :
    ∃ value : Int64, readInteger? (signed negative digits) = some value ∧
      value.toInt = number negative digits := by
  refine ⟨Int64.ofInt (number negative digits), ?_, ?_⟩
  · rw [readInteger?_signed negative written.isFraction, int64?, if_pos ⟨least, most⟩]
  · simp only [Int64.toInt_minValue, Int64.toInt_maxValue] at least most
    exact Int64.toInt_ofInt_of_le least (by omega)

/-- A number is written with the digits and the sign that it was read from, but a zero
without the sign. -/
theorem writeInteger_of_toInt (written : IsWhole digits) {value : Int64}
    (same : value.toInt = number negative digits) :
    writeInteger value =
      if signed negative digits = ['-', '0'] then ['0'] else signed negative digits := by
  have magnitude : value.toInt.natAbs = Decimal.ofDigits digits := by
    rw [same, number]
    split <;> omega
  have spelled : Decimal.digits value.toInt.natAbs = digits := by
    rw [magnitude, Decimal.digits_ofDigits written]
  rw [writeInteger, spelled]
  cases negative with
  | false =>
    have above : ¬value.toInt < 0 := by
      rw [same, number, if_neg Bool.false_ne_true]
      omega
    have unsigned : digits ≠ ['-', '0'] := by
      rintro rfl
      exact absurd (written.2.1 '-' (by simp)) (by decide)
    simp only [signed, Bool.false_eq_true, if_false, if_neg above, if_neg unsigned]
  | true =>
    by_cases zero : digits = ['0']
    · subst zero
      have nothing : value.toInt.natAbs = 0 := magnitude
      rw [if_neg (by omega)]
      rfl
    · have below : value.toInt < 0 := by
        refine Int.lt_iff_le_and_ne.mpr ⟨?_, fun nothing => zero ?_⟩
        · rw [same, number, if_pos rfl]
          omega
        · rw [← spelled, nothing]
          rfl
      have other : '-' :: digits ≠ ['-', '0'] := by simpa using zero
      simp only [signed, if_true, if_pos below, if_neg other]

theorem negative_of_head (written : IsWhole digits) {rest : List Char}
    (minus : (signed negative digits ++ rest).head? = some '-') : negative = true := by
  cases negative with
  | true => rfl
  | false =>
    have digit := written.2.1 '-'
    rw [signed, if_neg (by decide), List.head?_append_of_ne_nil _ written.1] at minus
    exact absurd (digit (List.mem_of_mem_head? minus)) (by decide)

/-- Only the least number is out of range without its sign. -/
theorem number_le_or_least (written : IsWhole digits)
    (least : Int64.minValue.toInt ≤ number true digits) :
    number false digits ≤ Int64.maxValue.toInt ∨ digits = "9223372036854775808".toList := by
  simp only [number, if_true, Bool.false_eq_true, if_false, Int64.toInt_minValue,
    Int64.toInt_maxValue] at least ⊢
  by_cases fits : Decimal.ofDigits digits ≤ 9223372036854775807
  · exact .inl (by omega)
  · have exact : Decimal.ofDigits digits = 9223372036854775808 := by omega
    rw [← Decimal.digits_ofDigits written, exact]
    exact .inr (by decide)

end Numeral

namespace Token
open Numeral

variable {text : String} {tokens : List Token} {token : Token}

theorem literal?_of_sequence (read : sequence text = .ok tokens) (inside : token ∈ tokens)
    {form : LiteralForm} (kind : token.kind = .literal form) :
    ∃ value, token.literal? = some value := by
  cases form with
  | integer =>
    obtain ⟨negative, digits, written, spelled, least, most⟩ :=
      holdsInteger_of_sequence read inside kind
    obtain ⟨number, found, -⟩ := exists_integer written least most
    exact ⟨.integer number, by simp [literal?, kind, spelled, found]⟩
  | float =>
    obtain ⟨number, found⟩ := exists_float_of_sequence read inside kind
    exact ⟨.float number, found⟩
  | text | boolean | null => exact ⟨_, by rw [literal?, kind]⟩

/-- A lexeme alone becomes one token. -/
theorem sequence_alone {lexeme : Lexeme} (known : Lexeme.Lexicon lexeme) :
    ∃ alone, sequence (String.ofList lexeme.spelling) = .ok [alone] ∧
      alone.kind = lexeme.kind ∧ alone.text = lexeme.text := by
  obtain ⟨tokens, read, spells⟩ := sequence_joined (List.forall_mem_singleton.mpr known) (.one lexeme)
  obtain ⟨alone, behind, rfl, kind, same, finish⟩ := spells.cons_cases
  rw [finish.nil_cases] at read
  exact ⟨alone, read, kind, same⟩

theorem exists_literal_of_glued (glued : token.isGlued = true) :
    ∃ form, token.kind = .literal form := by
  have numeric := (Bool.and_eq_true_iff.mp glued).1
  rw [Bool.or_eq_true, beq_iff_eq, beq_iff_eq] at numeric
  rcases numeric with integer | float
  · exact ⟨_, integer⟩
  · exact ⟨_, float⟩

/-- Without its sign a number is a lexeme of its kind still, except for the least integer. -/
theorem unsigned_lexicon (read : sequence text = .ok tokens) (inside : token ∈ tokens)
    (glued : token.isGlued = true)
    (other : ¬(token.kind = .literal .integer ∧ token.text = "-9223372036854775808")) :
    Lexeme.Lexicon ⟨token.kind, token.unsigned.text, token.text.toList.tail⟩ := by
  obtain ⟨numeric, minus⟩ := Bool.and_eq_true_iff.mp glued
  rw [beq_iff_eq] at minus
  obtain ⟨lexeme, known, kind, spelled⟩ := sequence_lexicon read token inside
  rw [kind] at numeric other
  rw [spelled] at minus other
  simp only [unsigned, kind, spelled]
  cases known with
  | @integer negative digits written least most =>
    rw [String.toList_ofList] at minus ⊢
    have negative : negative = true := negative_of_head written (by rwa [List.append_nil])
    subst negative
    rcases number_le_or_least written least with fits | rfl
    · have above : Int64.minValue.toInt ≤ number false digits :=
        Int.le_trans (by decide) (Int.natCast_nonneg (Decimal.ofDigits digits))
      exact @Lexeme.Lexicon.integer false digits written above fits
    · exact absurd ⟨rfl, rfl⟩ other
  | @float negative whole places power before behind last filled =>
    rw [String.toList_ofList] at minus ⊢
    have negative : negative = true := negative_of_head before minus
    subst negative
    exact @Lexeme.Lexicon.float false whole places power before behind last filled
  | literalWord named =>
    simp only [Bool.or_eq_true, beq_iff_eq, TokenKind.literal.injEq] at numeric
    rcases numeric with rfl | rfl <;> contradiction
  | _ => contradiction

/-- What becomes of the literals of a text, whatever follows them. Each one has a value. An
integer is read with the value that is written as the token is, a zero without a sign. A number
that a minus sign stands against is read as the literal that its text without the sign is
alone; only the least integer is refused there. -/
theorem sequence_converts (read : sequence text = .ok tokens) (inside : token ∈ tokens)
    (rest : List Token) :
    (∀ form, token.kind = .literal form →
      ∃ value, Grammar.literal (token :: rest) = .ok (value, rest)) ∧
    (token.kind = .literal .integer →
      ∃ number, Grammar.integer (token :: rest) = .ok (number, rest) ∧
        String.ofList (writeInteger number) = if token.text = "-0" then "0" else token.text) ∧
    (token.isGlued = true →
      if token.kind = .literal .integer ∧ token.text = "-9223372036854775808" then
        Grammar.gluedLiteral (token :: rest) = .error (.unexpected token)
      else ∃ value alone, Grammar.gluedLiteral (token :: rest) = .ok (value, rest) ∧
        sequence (String.ofList token.text.toList.tail) = .ok [alone] ∧
        alone.kind = token.kind ∧ Grammar.literal [alone] = .ok (value, [])) := by
  refine ⟨fun form kind => ?_, fun kind => ?_, fun glued => ?_⟩
  · obtain ⟨value, found⟩ := literal?_of_sequence read inside kind
    exact ⟨value, Grammar.take_ok_iff.mpr ⟨token, rfl, found⟩⟩
  · obtain ⟨negative, digits, written, spelled, least, most⟩ :=
      holdsInteger_of_sequence read inside kind
    obtain ⟨number, found, same⟩ := exists_integer written least most
    refine ⟨number, Grammar.take_ok_iff.mpr ⟨token, rfl, ?_⟩, ?_⟩
    · rw [if_pos kind, spelled, String.toList_ofList, found]
    · have zero : String.ofList (signed negative digits) = "-0" ↔ signed negative digits = ['-', '0'] :=
        String.ofList_inj
      rw [writeInteger_of_toInt written same, spelled]
      simp only [zero]
      split <;> rfl
  · split_ifs with least
    · obtain ⟨kind, spelled⟩ := least
      have unread : token.unsigned.literal? = none := by
        simp only [literal?, unsigned, kind, spelled]
        decide
      rw [Grammar.gluedLiteral, Grammar.take, unread]
    · obtain ⟨alone, split, kind, same⟩ := sequence_alone (unsigned_lexicon read inside glued least)
      obtain ⟨form, literal⟩ := exists_literal_of_glued glued
      obtain ⟨value, found⟩ := literal?_of_sequence split (List.mem_singleton_self alone)
        (kind.trans literal)
      have meaning : token.unsigned.literal? = some value := by
        rw [← found]
        simp only [literal?, kind, same, unsigned]
      exact ⟨value, alone, Grammar.take_ok_iff.mpr ⟨token, rfl, meaning⟩, split, kind,
        Grammar.take_ok_iff.mpr ⟨alone, rfl, found⟩⟩

/-- The least integer, a zero with a sign and a float out of range, each against what stands
in front of it. -/
theorem sequence_converts_of_glued :
    let least : Token := ⟨.literal .integer, "-9223372036854775808", 1, 2⟩
    let zero : Token := ⟨.literal .integer, "-0", 1, 22⟩
    let float : Token := ⟨.literal .float, "-1e400", 1, 24⟩
    sequence "a-9223372036854775808-0-1e400" = .ok [⟨.identifier, "a", 1, 1⟩, least, zero, float] ∧
    (∃ value, Grammar.literal [least] = .ok (value, [])) ∧
    Grammar.gluedLiteral [least] = .error (.unexpected least) ∧
    (∃ number, Grammar.integer [zero] = .ok (number, []) ∧
      String.ofList (writeInteger number) = "0") ∧
    ∃ value alone, Grammar.gluedLiteral [float] = .ok (value, []) ∧
      sequence "1e400" = .ok [alone] ∧ alone.kind = .literal .float ∧
      Grammar.literal [alone] = .ok (value, []) := by
  intro least zero float
  have read : sequence "a-9223372036854775808-0-1e400" =
      .ok [⟨.identifier, "a", 1, 1⟩, least, zero, float] := by decide +kernel
  obtain ⟨valued, -, refused⟩ := @sequence_converts _ _ least read (by simp) []
  obtain ⟨-, written, -⟩ := @sequence_converts _ _ zero read (by simp) []
  obtain ⟨-, -, kept⟩ := @sequence_converts _ _ float read (by simp) []
  have blamed := refused (by decide)
  rw [if_pos ⟨rfl, rfl⟩] at blamed
  obtain ⟨number, known, spelled⟩ := written rfl
  rw [if_pos rfl] at spelled
  have single := kept (by decide)
  have tail : String.ofList float.text.toList.tail = "1e400" := by decide
  rw [if_neg (by simp [float]), tail] at single
  exact ⟨read, valued .integer rfl, blamed, ⟨number, known, spelled⟩, single⟩

end Token

end VectorQuery
