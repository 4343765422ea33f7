import VectorQuery.Proofs.Grammar.Origin
import VectorQuery.Proofs.Grammar.Yield
import VectorQuery.Proofs.Token.Place

/-! Why a statement is refused. Its length is judged before its tokens and its tokens before
its grammar; each has codes of its own, and the grammar blames one of the tokens or none. -/
namespace VectorQuery

namespace Diagnostic

variable {diagnostic : Diagnostic}

theorem not_isGrammatical_of_isLexical (lexical : diagnostic.isLexical = true) :
    diagnostic.isGrammatical = false := by
  refine Bool.eq_false_iff.mpr fun grammatical => ?_
  obtain ⟨behind, split⟩ := List.isPrefixOf_iff_prefix.mp lexical
  obtain ⟨behind', split'⟩ := List.isPrefixOf_iff_prefix.mp grammatical
  rw [← split] at split'
  simp at split'

/-- No code of the grammar is lexical. -/
theorem isGrammatical_of_code (code : diagnostic.code = "PARSE_001" ∨
    diagnostic.code = "PARSE_002" ∨ diagnostic.code = "PARSE_003") :
    diagnostic.isGrammatical = true ∧ diagnostic.isLexical = false := by
  rcases code with code | code | code
  · exact ⟨by rw [isGrammatical, code]; rfl, by rw [isLexical, code]; rfl⟩
  · exact ⟨by rw [isGrammatical, code]; rfl, by rw [isLexical, code]; rfl⟩
  · exact ⟨by rw [isGrammatical, code]; rfl, by rw [isLexical, code]; rfl⟩

end Diagnostic

theorem Grammar.Fault.code (fault : Fault) (maxDepth : Nat) :
    (fault.toError maxDepth).diagnostic.code = "PARSE_001" ∨
      (fault.toError maxDepth).diagnostic.code = "PARSE_003" := by
  cases fault with
  | unexpected | endOfInput => exact .inl rfl
  | tooDeep => exact .inr rfl

namespace Limits

variable {limits : Limits} {text : String}

/-- The text has more bytes than the limits allow. -/
def Exceeded (limits : Limits) (text : String) : Prop :=
  ∃ limit, limits.maxLength = some limit ∧ limit < text.utf8ByteSize

theorem checkLength_iff_not_exceeded :
    limits.checkLength text = .ok () ↔ ¬limits.Exceeded text := by
  simp only [Grammar.checkLength_ok_iff, Exceeded, not_exists, not_and, Nat.not_lt]

/-- A text that is too long is refused before its tokens are looked at. -/
theorem read_of_exceeded (exceeded : limits.Exceeded text) : ∃ limit,
    limits.read text =
      .error ((StatementError.statementTooLong text.utf8ByteSize limit).diagnostic.withStatement
        text) := by
  rcases Grammar.checkLength_cases limits text with short | ⟨limit, -, -, tooLong⟩
  · exact absurd exceeded (checkLength_iff_not_exceeded.mp short)
  · exact ⟨limit, by simp only [read, readText, tooLong, bind, Except.bind, Except.mapError]⟩

theorem readTokens_error {tokens : List Token} {error : StatementError}
    (refused : limits.readTokens tokens = .error error) :
    (error.diagnostic.code = "PARSE_001" ∨ error.diagnostic.code = "PARSE_003") ∧
      (error.diagnostic.fragment = none ∨
        ∃ token ∈ tokens, error.diagnostic.fragment = some token.fragment) := by
  unfold readTokens at refused
  split at refused
  next => contradiction
  next fault outcome =>
    obtain rfl := Except.error.inj refused
    refine ⟨fault.code _, ?_⟩
    rw [Grammar.Fault.toError_fragment]
    cases shown : fault.token? with
    | none => exact .inl rfl
    | some token => exact .inr ⟨token, Grammar.token_of_refused outcome token shown, rfl⟩

/-- A text is a command, or it is refused with itself as the statement and for one kind of
cause. Being too long has a code of its own. Otherwise the refusal is lexical exactly where the
text has no tokens, for the fault of the tokens; and a text of tokens that is no statement is
refused at one of them, or at none. -/
theorem read_outcomes (limits : Limits) (text : String) :
    match limits.read text with
    | .ok _ => ¬limits.Exceeded text ∧ ∃ tokens, Token.sequence text = .ok tokens
    | .error diagnostic =>
      diagnostic.statement = some text ∧
      diagnostic.isGrammatical = !diagnostic.isLexical ∧
      (diagnostic.code = "PARSE_002" ↔ limits.Exceeded text) ∧
      (¬limits.Exceeded text →
        (diagnostic.isLexical = true ↔ ∃ error, Token.sequence text = .error error) ∧
        match Token.sequence text with
        | .error error => diagnostic = error.diagnostic.withStatement text
        | .ok tokens => (diagnostic.code = "PARSE_001" ∨ diagnostic.code = "PARSE_003") ∧
          (diagnostic.fragment = none ∨
            ∃ token ∈ tokens, diagnostic.fragment = some token.fragment)) := by
  by_cases exceeded : limits.Exceeded text
  · obtain ⟨limit, outcome⟩ := read_of_exceeded exceeded
    rw [outcome]
    obtain ⟨grammatical, other⟩ := @Diagnostic.isGrammatical_of_code
      (StatementError.statementTooLong text.utf8ByteSize limit).diagnostic (.inr (.inl rfl))
    refine ⟨rfl, ?_, iff_of_true rfl exceeded, fun short => absurd exceeded short⟩
    exact grammatical.trans (congrArg Bool.not other).symm
  · rw [Grammar.read_of_sequence (checkLength_iff_not_exceeded.mpr exceeded)]
    cases split : Token.sequence text with
    | error error =>
      have lexical := Token.isLexical_of_sequence split
      have other := Diagnostic.not_isGrammatical_of_isLexical lexical
      refine ⟨rfl, ?_, iff_of_false ?_ exceeded, fun _ => ⟨iff_of_true lexical ⟨error, rfl⟩, rfl⟩⟩
      · exact other.trans (congrArg Bool.not lexical).symm
      · intro code
        have grammatical := (Diagnostic.isGrammatical_of_code (.inr (.inl code))).1
        exact absurd (other.symm.trans grammatical) Bool.false_ne_true
    | ok tokens =>
      simp only [Except.bind]
      cases outcome : limits.readTokens tokens with
      | ok command => exact ⟨exceeded, tokens, rfl⟩
      | error error =>
        obtain ⟨code, blamed⟩ := readTokens_error outcome
        obtain ⟨grammatical, other⟩ := Diagnostic.isGrammatical_of_code (code.imp_right .inr)
        refine ⟨rfl, ?_, iff_of_false ?_ exceeded, fun _ => ⟨iff_of_false ?_ ?_, code, blamed⟩⟩
        · exact grammatical.trans (congrArg Bool.not other).symm
        · rcases code with code | code
          · exact fun same => absurd (code.symm.trans same) (by decide)
          · exact fun same => absurd (code.symm.trans same) (by decide)
        · exact fun lexical => Bool.false_ne_true (other.symm.trans lexical)
        · rintro ⟨error, absent⟩
          contradiction

end Limits

end VectorQuery
