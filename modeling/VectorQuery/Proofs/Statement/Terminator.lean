import VectorQuery.Proofs.Grammar.Allowance
import VectorQuery.Proofs.Statement.Agreement
import VectorQuery.Statement

/-! The semicolon of a statement. No rule takes it or looks past it, so a statement is read
the same whatever follows its first semicolon, and no fault of it stands at the end of the
input. -/
namespace VectorQuery

namespace Grammar

/-- The token that a fault shows. -/
def Fault.token? : Fault → Option Token
  | .unexpected token => some token
  | .endOfInput => none
  | .tooDeep token => token

/-- What is left of a statement up to its semicolon, and the same with more behind it. -/
structure Terminated (behind left right : List Token) : Prop where
  ends : ∃ statement semicolon, (∀ token ∈ statement, token.kind ≠ .separator .semicolon) ∧
    semicolon.kind = .separator .semicolon ∧ left = statement ++ [semicolon] ∧
    right = statement ++ semicolon :: behind

variable {behind left right : List Token}

theorem Terminated.split (related : Terminated behind left right) :
    ∃ token rest rest', left = token :: rest ∧ right = token :: rest' ∧
      (token.kind = .separator .semicolon ∧ rest = [] ∧ rest' = behind ∨
        token.kind ≠ .separator .semicolon ∧ Terminated behind rest rest') := by
  obtain ⟨statement, semicolon, unended, ends, rfl, rfl⟩ := related
  cases statement with
  | nil => exact ⟨semicolon, [], behind, rfl, rfl, .inl ⟨ends, rfl, rfl⟩⟩
  | cons token statement =>
    obtain ⟨other, unended⟩ := List.forall_mem_cons.mp unended
    exact ⟨token, _, _, rfl, rfl, .inr ⟨other, ⟨statement, semicolon, unended, ends, rfl, rfl⟩⟩⟩

/-- The same tokens up to a semicolon, the same levels, and the same faults, at a token. -/
def terminated (behind : List Token) : Coupling where
  tokens := Terminated behind
  heads token token' := token = token'
  levels fewer more := fewer = more
  faults fault fault' := fault = fault' ∧ fault.token?.isSome = true
  escapes _ := False
  alike := Token.alike_of_eq
  split := by
    intro left right related
    obtain ⟨token, rest, rest', rfl, rfl, within⟩ := related.split
    refine .inr ⟨token, token, rest, rest', rfl, rfl, rfl, fun other => ?_⟩
    rcases within with ⟨semicolon, -⟩ | ⟨-, within⟩
    · contradiction
    · exact within
  unexpected := by
    rintro token _ rfl
    exact ⟨rfl, rfl⟩
  endOfInput := by
    intro related
    obtain ⟨_, _, _, absent, _⟩ := related.split
    contradiction
  tooDeep := by
    intro left right _ related
    obtain ⟨token, rest, rest', rfl, rfl, -⟩ := related.split
    exact ⟨rfl, rfl⟩
  escape := by
    intro levels' left right unequal
    contradiction
  deeper := fewer_of_same

/-- A statement with its semicolon is read up to it, or its fault shows one of its tokens;
what follows the semicolon is only asked to be nothing. -/
theorem statement_terminated (levels : Nat) (related : Terminated behind left right) :
    (∃ command, statement levels left = .ok (command, []) ∧
      statement levels right = (finished behind).map fun read => (command, read.2)) ∨
    ∃ fault, statement levels left = .error fault ∧ statement levels right = .error fault ∧
      fault.token?.isSome = true := by
  have same : (terminated behind).levels levels levels := rfl
  have run := command_agree same related
  rw [statement, bind_apply, bind_apply]
  generalize command levels left = outcome at run
  generalize command levels right = outcome' at run
  cases run with
  | @read command rest rest' within =>
    obtain ⟨token, tail, tail', rfl, rfl, ⟨semicolon, rfl, same⟩ | ⟨other, -⟩⟩ := within.split
    · refine .inl ⟨command, ?_, ?_⟩
      · simp only [bind_of_ok (expect_cons semicolon [])]
        rfl
      · simp only [same, bind_apply, expect_cons semicolon behind]
        cases finished behind <;> rfl
    · have stops (tail : List Token) : expect (.separator .semicolon) (token :: tail) =
          .error (.unexpected token) := by simp [expect, take, other]
      refine .inr ⟨.unexpected token, ?_, ?_, rfl⟩
      · simp only [bind_apply, stops]
      · simp only [bind_apply, stops]
  | @fault fault _ faults =>
    obtain ⟨rfl, shown⟩ := faults
    exact .inr ⟨fault, rfl, rfl, shown⟩
  | escape escapes => exact escapes.elim

theorem Fault.toError_fragment (fault : Fault) (maxDepth : Nat) :
    (fault.toError maxDepth).diagnostic.fragment = fault.token?.map Token.fragment := by
  cases fault <;> rfl

/-! A statement is read to its only semicolon. -/

variable {levels : Nat} {tokens rest : List Token} {command : Command}

theorem command_taking : Taking (Grammar.command levels) := by
  refine taking_of_agree True fun whole => ?_
  have same : (suffixes whole True).levels levels levels := ⟨rfl, trivial⟩
  exact command_agree same

theorem semicolon_of_statement (read : statement levels tokens = .ok (command, rest)) :
    ∃ token ∈ tokens, token.kind = .separator .semicolon := by
  simp only [statement, bind_ok_iff, expect_ok_iff] at read
  obtain ⟨_, _, start, _, _, ⟨semicolon, rfl, ends⟩, -⟩ := read
  exact ⟨semicolon, (command_taking start).mem (by simp), ends⟩

theorem exists_first_semicolon (inside : ∃ token ∈ tokens, token.kind = .separator .semicolon) :
    ∃ front semicolon behind, tokens = front ++ semicolon :: behind ∧
      (∀ token ∈ front, token.kind ≠ .separator .semicolon) ∧
      semicolon.kind = .separator .semicolon := by
  induction tokens with
  | nil => simp at inside
  | cons token tokens ih =>
    by_cases ends : token.kind = .separator .semicolon
    · exact ⟨[], token, tokens, rfl, by simp, ends⟩
    · obtain ⟨front, semicolon, behind, rfl, unended, last⟩ := ih (by simpa [ends] using inside)
      refine ⟨token :: front, semicolon, behind, rfl, ?_, last⟩
      exact List.forall_mem_cons.mpr ⟨ends, unended⟩

/-- Behind its first semicolon a statement holds nothing, or it fails at one of its tokens. -/
theorem statement_of_semicolon (levels : Nat)
    (inside : ∃ token ∈ tokens, token.kind = .separator .semicolon) :
    (∃ command front semicolon, statement levels tokens = .ok (command, []) ∧
      tokens = front ++ [semicolon] ∧
      ∀ token ∈ front, token.kind ≠ .separator .semicolon) ∨
    ∃ fault, statement levels tokens = .error fault ∧ fault.token?.isSome = true := by
  obtain ⟨front, semicolon, behind, rfl, unended, ends⟩ := exists_first_semicolon inside
  have related : Terminated behind (front ++ [semicolon]) (front ++ semicolon :: behind) :=
    ⟨front, semicolon, unended, ends, rfl, rfl⟩
  rcases statement_terminated levels related with ⟨command, -, outcome⟩ | ⟨fault, -, failed, shown⟩
  · cases behind with
    | nil => exact .inl ⟨command, front, semicolon, outcome, rfl, unended⟩
    | cons token behind => exact .inr ⟨.unexpected token, outcome, rfl⟩
  · exact .inr ⟨fault, failed, shown⟩

theorem ends_of_statement (read : statement levels tokens = .ok (command, rest)) :
    ∃ front semicolon, tokens = front ++ [semicolon] ∧
      semicolon.kind = .separator .semicolon ∧
      ∀ token ∈ front, token.kind ≠ .separator .semicolon := by
  have inside := semicolon_of_statement read
  rcases statement_of_semicolon levels inside with
    ⟨_, front, semicolon, -, rfl, unended⟩ | ⟨fault, failed, -⟩
  · obtain ⟨token, member, ends⟩ := inside
    rcases List.mem_append.mp member with early | last
    · exact absurd ends (unended token early)
    · obtain rfl := List.mem_singleton.mp last
      exact ⟨front, token, rfl, ends, unended⟩
  · rw [read] at failed
    contradiction

end Grammar

open Grammar

/-- Nothing behind the first semicolon changes how the statement in front of it is read, and
a statement with a semicolon never ends too early. -/
theorem Limits.readTokens_terminated (limits : Limits) {statement : List Token}
    {semicolon : Token} (unended : ∀ token ∈ statement, token.kind ≠ .separator .semicolon)
    (ends : semicolon.kind = .separator .semicolon) (behind : List Token) :
    (∀ command, limits.readTokens (statement ++ [semicolon]) = .ok command →
      limits.readTokens (statement ++ semicolon :: behind) = match behind with
        | [] => .ok command
        | token :: _ => .error (.unexpectedToken (some token.fragment))) ∧
    (∀ error, limits.readTokens (statement ++ [semicolon]) = .error error →
      limits.readTokens (statement ++ semicolon :: behind) = .error error) ∧
    ∀ error, limits.readTokens (statement ++ semicolon :: behind) = .error error →
      error.diagnostic.fragment ≠ none := by
  have related : Terminated behind (statement ++ [semicolon]) (statement ++ semicolon :: behind) :=
    ⟨statement, semicolon, unended, ends, rfl, rfl⟩
  unfold Limits.readTokens
  rcases statement_terminated limits.maxDepth related with
    ⟨command, alone, followed⟩ | ⟨fault, alone, followed, shown⟩
  · rw [alone, followed]
    cases behind with
    | nil =>
      refine ⟨fun _ same => same, fun _ failed => ?_, fun _ failed => ?_⟩
      · contradiction
      · contradiction
    | cons token tokens =>
      refine ⟨fun _ _ => rfl, fun _ failed => ?_, fun error failed => ?_⟩
      · contradiction
      · obtain rfl := Except.error.inj failed
        simp [Fault.toError, StatementError.diagnostic]
  · rw [alone, followed]
    refine ⟨fun _ read => ?_, fun _ same => same, fun error failed => ?_⟩
    · contradiction
    · obtain rfl := Except.error.inj failed
      rw [Fault.toError_fragment]
      obtain ⟨token, shown⟩ := Option.isSome_iff_exists.mp shown
      simp [shown]

/-- The words of an array type behind the semicolon belong to no field. -/
theorem Limits.readTokens_terminated_of_field :
    let create : List Token := [⟨.keyword .create, "CREATE", 1, 1⟩,
      ⟨.keyword .collection, "COLLECTION", 1, 8⟩, ⟨.identifier, "c", 1, 19⟩,
      ⟨.operator .openParen, "(", 1, 21⟩, ⟨.identifier, "f", 1, 22⟩,
      ⟨.identifier, "INT64", 1, 24⟩, ⟨.operator .closeParen, ")", 1, 29⟩]
    let semicolon : Token := ⟨.separator .semicolon, ";", 1, 30⟩
    let array : Token := ⟨.identifier, "ARRAY", 1, 32⟩
    let behind : List Token := [array, ⟨.operator .openParen, "(", 1, 37⟩,
      ⟨.literal .integer, "8", 1, 38⟩, ⟨.operator .closeParen, ")", 1, 39⟩]
    let command : Command :=
      .collection (.create ⟨"c", [{ name := "f", type := .scalar "INT64" }], .empty⟩)
    (∀ token ∈ create, token.kind ≠ .separator .semicolon) ∧
      semicolon.kind = .separator .semicolon ∧
      ({} : Limits).readTokens (create ++ [semicolon]) = .ok command ∧
      ({} : Limits).readTokens (create ++ semicolon :: behind) =
        .error (.unexpectedToken (some array.fragment)) := by
  intro create semicolon array behind command
  have unended : ∀ token ∈ create, token.kind ≠ .separator .semicolon := by decide
  have alone : ({} : Limits).readTokens (create ++ [semicolon]) = .ok command := by rfl
  exact ⟨unended, rfl, alone, (readTokens_terminated {} unended rfl behind).1 command alone⟩

end VectorQuery
