import VectorQuery.Proofs.Grammar.Threshold
import VectorQuery.Proofs.Grammar.Yield
import VectorQuery.Proofs.Statement.Allowance

/-! Wider limits. An answer that the limits on a statement did not decide stays the same where
they are loosened, and a statement of fewer tokens than levels never meets the limit on them. -/
namespace VectorQuery

namespace Grammar

theorem limited_passes : limited.Passes := by
  intro token token' rest rest' same
  exact (List.cons.inj same).2

/-- What a run under fewer levels did not end with at its limit is the same under more. -/
theorem statement_limited {fewer more : Nat} (within : fewer ≤ more) (tokens : List Token) :
    (∃ token, statement fewer tokens = .error (.tooDeep token)) ∨
      statement more tokens = statement fewer tokens := by
  have related : limited.tokens tokens tokens := rfl
  have below : limited.levels fewer more := within
  have run := statement_agree limited_passes below related
  generalize statement fewer tokens = outcome at run
  generalize statement more tokens = outcome' at run
  cases run with
  | read behind =>
    obtain rfl := behind
    exact .inr rfl
  | fault same =>
    obtain rfl := same
    exact .inr rfl
  | escape met =>
    obtain ⟨token, rfl⟩ := met
    exact .inl ⟨token, rfl⟩

end Grammar

open Grammar

/-- The wider limits let everything pass that these let pass. -/
structure Limits.Within (limits wider : Limits) : Prop where
  length : ∀ most, wider.maxLength = some most →
    ∃ fewer, limits.maxLength = some fewer ∧ fewer ≤ most
  depth : limits.maxDepth ≤ wider.maxDepth

namespace Limits

variable {limits wider : Limits} {text : String}

theorem Within.checkLength (within : limits.Within wider)
    (short : limits.checkLength text = .ok ()) : wider.checkLength text = .ok () := by
  refine checkLength_ok_iff.mpr fun most set => ?_
  obtain ⟨fewer, set', below⟩ := within.length most set
  exact Nat.le_trans (checkLength_ok_iff.mp short fewer set') below

theorem Within.readTokens (within : limits.Within wider) (tokens : List Token) :
    (∃ fragment, limits.readTokens tokens = .error (.nestingTooDeep fragment limits.maxDepth)) ∨
      wider.readTokens tokens = limits.readTokens tokens := by
  unfold Limits.readTokens
  rcases statement_limited within.depth tokens with ⟨token, met⟩ | same
  · rw [met]
    exact .inl ⟨_, rfl⟩
  · rw [same]
    cases read : statement limits.maxDepth tokens with
    | ok _ => exact .inr rfl
    | error fault =>
      cases fault with
      | unexpected _ => exact .inr rfl
      | endOfInput => exact .inr rfl
      | tooDeep token => exact .inl ⟨_, rfl⟩

/-- An answer that no limit decided stays the same under wider limits. -/
theorem Within.read (within : limits.Within wider) (text : String) :
    (∃ diagnostic, limits.read text = .error diagnostic ∧
      (diagnostic.code = "PARSE_002" ∨ diagnostic.code = "PARSE_003")) ∨
      wider.read text = limits.read text := by
  rcases checkLength_cases limits text with short | ⟨limit, -, -, tooLong⟩
  · rw [read_of_sequence short, read_of_sequence (within.checkLength short)]
    cases Token.sequence text with
    | error error => exact .inr (by simp only [Except.bind])
    | ok tokens =>
      simp only [Except.bind]
      rcases within.readTokens tokens with ⟨fragment, met⟩ | same
      · rw [met]
        exact .inl ⟨_, rfl, .inr rfl⟩
      · rw [same]
        exact .inr rfl
  · have failed : limits.read text =
        .error ((StatementError.statementTooLong text.utf8ByteSize limit).diagnostic.withStatement
          text) := by
      simp only [Limits.read, readText, tooLong, bind, Except.bind, Except.mapError]
    exact .inl ⟨_, failed, .inl rfl⟩

theorem read_ne_tooDeep {tokens : List Token} (split : Token.sequence text = .ok tokens)
    (few : tokens.length < limits.maxDepth) {diagnostic : Diagnostic}
    (failed : limits.read text = .error diagnostic) : diagnostic.code ≠ "PARSE_003" := by
  obtain ⟨error, rfl, ⟨length, limit, rfl⟩ | lexical | ⟨read, fault, split', outcome, rfl⟩⟩ :=
    read_error_cases failed
  · simp [StatementError.diagnostic, Diagnostic.withStatement]
  · rw [split] at lexical
    contradiction
  · obtain rfl := Except.ok.inj (split.symm.trans split')
    cases fault with
    | tooDeep token =>
      -- Every open level has cost a token, so there are no fewer tokens than levels.
      have := (statement_paying limits.maxDepth).met outcome
      omega
    | _ => simp [Fault.toError, StatementError.diagnostic, Diagnostic.withStatement]

/-- Loosening the limits keeps every command and every lexical or syntactical fault. With more
levels than tokens, no statement nests too deeply. -/
theorem read_loosened (within : limits.Within wider) (text : String) :
    (∀ command, limits.read text = .ok command → wider.read text = .ok command) ∧
    (∀ diagnostic, limits.read text = .error diagnostic →
      diagnostic.isLexical = true ∨ diagnostic.code = "PARSE_001" →
        wider.read text = .error diagnostic) ∧
    ∀ tokens diagnostic, Token.sequence text = .ok tokens → tokens.length < limits.maxDepth →
      limits.read text = .error diagnostic → diagnostic.code ≠ "PARSE_003" := by
  refine ⟨fun command read => ?_, fun diagnostic failed cause => ?_,
    fun tokens diagnostic split few => read_ne_tooDeep split few⟩
  · rcases within.read text with ⟨_, failed, -⟩ | same
    · rw [failed] at read
      contradiction
    · rw [same, read]
  · rcases within.read text with ⟨_, failed', code⟩ | same
    · obtain rfl := Except.error.inj (failed.symm.trans failed')
      rcases code with code | code <;> simp [Diagnostic.isLexical, code] at cause
    · rw [same, failed]

/-- Two levels in 30 bytes are read under every limit from there on. -/
theorem read_loosened_of_options :
    let limits : Limits := ⟨some 30, 2⟩
    let wider : Limits := ⟨some 100, 64⟩
    let text := "DELETE FROM c WITH \x7b'k': [1]\x7d;"
    let command : Command := .delete ⟨"c", none, none, ⟨[("k", .array [.integer 1])]⟩⟩
    limits.Within wider ∧ limits.read text = .ok command ∧ wider.read text = .ok command := by
  intro limits wider text command
  have within : limits.Within wider := by
    refine ⟨fun most set => ?_, by decide⟩
    obtain rfl := Option.some.inj set
    exact ⟨30, rfl, by decide⟩
  have split : Token.sequence text = .ok
      [⟨.keyword .delete, "DELETE", 1, 1⟩, ⟨.keyword .from, "FROM", 1, 8⟩,
        ⟨.identifier, "c", 1, 13⟩, ⟨.keyword .with, "WITH", 1, 15⟩,
        ⟨.operator .openBrace, "\x7b", 1, 20⟩, ⟨.literal .text, "k", 1, 21⟩,
        ⟨.operator .colon, ":", 1, 24⟩, ⟨.operator .openBracket, "[", 1, 26⟩,
        ⟨.literal .integer, "1", 1, 27⟩, ⟨.operator .closeBracket, "]", 1, 28⟩,
        ⟨.operator .closeBrace, "\x7d", 1, 29⟩, ⟨.separator .semicolon, ";", 1, 30⟩] := by decide
  have read : limits.read text = .ok command :=
    read_ok_iff.mpr ⟨by rfl, _, split, by rfl⟩
  exact ⟨within, read, (read_loosened within text).1 command read⟩

end Limits

end VectorQuery
