import VectorQuery.Proofs.Token.Cut

/-! Tokens and their places. The tokens of a text and the white space between them make up
the text, and every place is that of the characters behind which it stands. A text that is
refused is refused at the end of a text that has tokens. -/
namespace VectorQuery
open Text

namespace Position

/-- The place behind a text: its line feeds count the lines, and the characters behind the
last of them the columns. -/
def behind (text : List Char) : Position :=
  ⟨1 + text.count '\n', 1 + (text.reverse.takeWhile (· ≠ '\n')).length⟩

example : behind "a\nbc".toList = ⟨2, 3⟩ := by decide

theorem after_behind (text : List Char) (character : Char) :
    (behind text).after character = behind (text ++ [character]) := by
  by_cases feed : character = '\n'
  · simp [after, behind, feed]
    omega
  · simp [after, behind, feed]
    omega

theorem afterAll_behind (before text : List Char) :
    (behind before).afterAll text = behind (before ++ text) := by
  induction text generalizing before with
  | nil => simp [afterAll]
  | cons character text ih =>
    rw [afterAll, List.foldl_cons, after_behind, ← afterAll, ih, List.append_assoc,
      List.singleton_append]

/-- No place of a text lies further from its start than the text is long. -/
theorem behind_le (text : List Char) :
    (behind text).line ≤ text.length + 1 ∧ (behind text).column ≤ text.length + 1 := by
  have lines := text.count_le_length (a := '\n')
  have columns := (text.reverse.takeWhile_sublist (p := (· ≠ '\n'))).length_le
  simp only [List.length_reverse] at columns
  constructor <;> simp only [behind] <;> omega

end Position

/-- Tokens and white space in turn make up the text. Each token stands for the characters
that it takes, the first of which is no white space, and its place is behind all the text
before them. -/
inductive Laid : List Char → List Char → List Token → Prop
  | done {before blank : List Char} : blank.all isBlank = true → Laid before blank []
  | token {before blank spelling rest : List Char} {token : Token} {tokens : List Token} :
      blank.all isBlank = true →
      (∃ first others, spelling = first :: others ∧ isBlank first = false) →
      token.kind.Spelled token.text spelling →
      Position.behind (before ++ blank) = ⟨token.line, token.column⟩ →
      Laid (before ++ blank ++ spelling) rest tokens →
        Laid before (blank ++ spelling ++ rest) (token :: tokens)

/-- The error names what the rest starts with, a character or an integer that is out of
range, and the place behind the text before it. -/
def StatementError.Blames (error : StatementError) (before rest : List Char) : Prop :=
  let place := Position.behind before
  match error with
  | .illegalCharacter character fragment => [character] <+: rest ∧
      fragment = some ⟨String.ofList [character], place.line, place.column⟩
  | .integerOutOfRange fragment => ∃ negative digits, IsWhole digits ∧
      Numeral.signed negative digits <+: rest ∧
      readInteger? (Numeral.signed negative digits) = none ∧
      fragment =
        some ⟨String.ofList (Numeral.signed negative digits), place.line, place.column⟩
  | _ => False

theorem LexicalFault.Starts.blames {fault : LexicalFault} {rest : List Char}
    (starts : fault.Starts rest) (before : List Char) :
    (fault.toError (.behind before)).Blames before rest := by
  cases fault with
  | illegalCharacter character => exact ⟨starts.1, rfl⟩
  | integerOutOfRange spelling =>
    obtain ⟨front, unreadable, negative, digits, written, rfl⟩ := starts
    exact ⟨negative, digits, written, front, unreadable, rfl⟩

theorem Laid.blank {before text : List Char} {tokens : List Token} {character : Char}
    (blank : isBlank character = true) (laid : Laid (before ++ [character]) text tokens) :
    Laid before (character :: text) tokens := by
  cases laid with
  | done white => exact .done (by simp [blank, white])
  | @token _ white spelling rest token tokens blanks visible spelled place behind =>
    have step : before ++ [character] ++ white = before ++ character :: white := by simp
    rw [step] at place behind
    have whole := Laid.token (by simp [blank, blanks]) visible spelled place behind
    simpa using whole

theorem Laid.lexeme {lexeme : Lexeme} {before tail : List Char} {tokens : List Token}
    (leads : lexeme.Leads tail) (spelled : lexeme.kind.Spelled lexeme.text lexeme.spelling)
    (laid : Laid (before ++ lexeme.spelling) tail tokens) :
    Laid before (lexeme.spelling ++ tail) (Token.ofLexeme lexeme (.behind before) :: tokens) := by
  obtain ⟨first, others, spelling, visible, -⟩ := leads
  have bare : Position.behind (before ++ []) = .behind before := by rw [List.append_nil]
  rw [← List.append_nil before] at laid
  exact .token List.all_nil ⟨first, others, spelling, visible⟩ spelled bare laid

/-- No token lies further from the start than the text is long, so that 32 bits hold every
place in a text of fewer than `2 ^ 32 - 1` characters. -/
theorem Laid.place_le {before text : List Char} {tokens : List Token}
    (laid : Laid before text tokens) : ∀ token ∈ tokens,
      token.line ≤ (before ++ text).length + 1 ∧ token.column ≤ (before ++ text).length + 1 := by
  induction laid with
  | done => simp
  | @token before blank spelling rest token tokens _ _ _ place _ ih =>
    have least := Position.behind_le (before ++ blank)
    rw [place] at least
    simp only [List.length_append] at least ih ⊢
    intro other inside
    rcases List.mem_cons.mp inside with rfl | inside
    · omega
    · have := ih other inside
      omega

namespace Token

/-- A lexeme that is read leaves less of the text. -/
theorem first_takes {character : Char} {rest : List Char} {lexeme : Lexeme} {left : Nat}
    (visible : isBlank character = false) (found : Lexeme.first character rest = .ok lexeme)
    (enough : (character :: rest).length ≤ left + 1) :
    ∃ tail, character :: rest = lexeme.spelling ++ tail ∧
      (character :: rest).drop lexeme.spelling.length = tail ∧ tail.length ≤ left ∧
      ∀ ⦃less⦄, less <+: tail → lexeme.Leads less := by
  obtain ⟨⟨tail, split, leads⟩, -⟩ := Lexeme.first_cuts visible found
  obtain ⟨head, others, spelling, -⟩ := leads (List.prefix_refl tail)
  refine ⟨tail, split, by rw [split, List.drop_left], ?_, leads⟩
  rw [split, spelling, List.length_append, List.length_cons] at enough
  omega

theorem sequenceFrom_laid {left : Nat} {before text : List Char} {tokens all : List Token}
    (enough : text.length ≤ left)
    (read : sequenceFrom tokens left (.behind before) text = .ok all) :
    ∃ later, all = tokens.reverse ++ later ∧ Laid before text later := by
  induction left generalizing before text tokens with
  | zero =>
    obtain rfl := List.length_eq_zero_iff.mp (Nat.le_zero.mp enough)
    obtain rfl := Except.ok.inj read
    exact ⟨[], by simp, .done rfl⟩
  | succ left ih =>
    cases text with
    | nil =>
      obtain rfl := Except.ok.inj read
      exact ⟨[], by simp, .done rfl⟩
    | cons character rest =>
      rw [sequenceFrom] at read
      split_ifs at read with blank
      · rw [Position.after_behind] at read
        obtain ⟨later, rfl, laid⟩ := ih (by simpa using enough) read
        exact ⟨later, rfl, laid.blank blank⟩
      · have visible : isBlank character = false := Bool.eq_false_iff.mpr blank
        split at read
        next => contradiction
        next lexeme found =>
          obtain ⟨tail, split, behind, shorter, leads⟩ := first_takes visible found enough
          have spelled := (Lexeme.first_cuts visible found).2
          rw [Position.afterAll_behind, behind] at read
          obtain ⟨later, rfl, laid⟩ := ih shorter read
          refine ⟨ofLexeme lexeme (.behind before) :: later, by simp, ?_⟩
          exact split ▸ laid.lexeme (leads (List.prefix_refl tail)) spelled

/-- Where a text is refused, the front of what is left is no lexeme; and the lexemes before
it are laid out as well when the text ends there. -/
theorem sequenceFrom_fault {left : Nat} {before text : List Char} {tokens : List Token}
    {error : StatementError} (enough : text.length ≤ left)
    (refused : sequenceFrom tokens left (.behind before) text = .error error) :
    ∃ taken character rest lexemes, ∃ fault : LexicalFault, text = taken ++ character :: rest ∧
      isBlank character = false ∧ Lexeme.Layout lexemes taken ∧
      fault.Starts (character :: rest) ∧ error = fault.toError (.behind (before ++ taken)) := by
  induction left generalizing before text tokens with
  | zero => contradiction
  | succ left ih =>
    cases text with
    | nil => contradiction
    | cons character rest =>
      rw [sequenceFrom] at refused
      split_ifs at refused with blank
      · rw [Position.after_behind] at refused
        obtain ⟨taken, head, rest, lexemes, fault, rfl, visible, layout, starts, rfl⟩ :=
          ih (by simpa using enough) refused
        exact ⟨character :: taken, head, rest, lexemes, fault, rfl, visible,
          .blank blank layout, starts, by rw [List.append_assoc, List.singleton_append]⟩
      · have visible : isBlank character = false := Bool.eq_false_iff.mpr blank
        split at refused
        next fault found =>
          obtain rfl := Except.error.inj refused
          exact ⟨[], character, rest, [], fault, rfl, visible, .nil, Lexeme.first_fault found,
            by rw [List.append_nil]⟩
        next lexeme found =>
          obtain ⟨tail, split, behind, shorter, leads⟩ := first_takes visible found enough
          rw [Position.afterAll_behind, behind] at refused
          obtain ⟨taken, head, rest, lexemes, fault, rfl, visible, layout, starts, rfl⟩ :=
            ih shorter refused
          have front := leads (List.prefix_append taken (head :: rest))
          exact ⟨lexeme.spelling ++ taken, head, rest, lexeme :: lexemes, fault,
            by rw [split, List.append_assoc], visible, .lexeme front layout, starts,
            by rw [List.append_assoc]⟩

theorem sequenceFrom_refused {left : Nat} {before text : List Char} {tokens : List Token}
    {error : StatementError} (enough : text.length ≤ left)
    (refused : sequenceFrom tokens left (.behind before) text = .error error) :
    ∃ taken rest lexemes, text = taken ++ rest ∧ Lexeme.Layout lexemes taken ∧
      error.Blames (before ++ taken) rest := by
  obtain ⟨taken, character, rest, lexemes, fault, rfl, -, layout, starts, rfl⟩ :=
    sequenceFrom_fault enough refused
  exact ⟨taken, character :: rest, lexemes, rfl, layout, starts.blames _⟩

/-- A text without tokens is refused for a lexical fault. -/
theorem isLexical_of_sequence {text : String} {error : StatementError}
    (refused : sequence text = .error error) : error.diagnostic.isLexical = true := by
  have start : Position.start = .behind [] := rfl
  rw [sequence, start] at refused
  obtain ⟨taken, rest, lexemes, -, -, blames⟩ := sequenceFrom_refused (Nat.le_refl _) refused
  cases error with
  | illegalCharacter _ _ => simp [StatementError.diagnostic, Diagnostic.isLexical]
  | integerOutOfRange _ => simp [StatementError.diagnostic, Diagnostic.isLexical]
  | _ => exact blames.elim

/-- Every text is made up of its tokens and of white space, or it is refused behind a text
that has tokens, at what no token starts with. -/
theorem sequence_places (text : String) :
    match sequence text with
    | .ok tokens => Laid [] text.toList tokens
    | .error error => ∃ taken rest, text.toList = taken ++ rest ∧
        (∃ tokens, sequence (String.ofList taken) = .ok tokens) ∧ error.Blames taken rest := by
  have start : Position.start = .behind [] := rfl
  cases read : sequence text with
  | ok tokens =>
    rw [sequence, start] at read
    obtain ⟨later, rfl, laid⟩ := sequenceFrom_laid (Nat.le_refl _) read
    exact laid
  | error error =>
    rw [sequence, start] at read
    obtain ⟨taken, rest, lexemes, split, layout, blames⟩ :=
      sequenceFrom_refused (Nat.le_refl _) read
    rw [← String.toList_ofList (l := taken)] at layout
    obtain ⟨tokens, accepted, -⟩ := Lexeme.sequence_layout layout
    exact ⟨taken, rest, split, ⟨tokens, accepted⟩, blames⟩

end Token

end VectorQuery
