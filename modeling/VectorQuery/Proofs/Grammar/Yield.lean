import VectorQuery.Proofs.Grammar.Rule
import VectorQuery.Proofs.Value.Mapping
import VectorQuery.Statement

/-! What holds of everything a rule can yield, whatever tokens it reads. Steps compose by
the values they hand on; a step whose value does not matter yields anything. -/
namespace VectorQuery.Grammar

variable {α β : Type}

def Yields (rule : Rule α) (holds : α → Prop) : Prop :=
  ∀ ⦃tokens value rest⦄, rule tokens = .ok (value, rest) → holds value

theorem yields_anything (rule : Rule α) : Yields rule fun _ => True := by
  intro _ _ _ _
  trivial

theorem Yields.weaken {rule : Rule α} {holds weaker : α → Prop} (yields : Yields rule holds)
    (weaken : ∀ {value}, holds value → weaker value) : Yields rule weaker :=
  fun _ _ _ read => weaken (yields read)

theorem pure_yields {value : α} {holds : α → Prop} (held : holds value) :
    Yields (pure value) holds := by
  intro tokens result rest read
  obtain ⟨rfl, -⟩ := pure_ok_iff.mp read
  exact held

theorem bind_yields {rule : Rule α} {next : α → Rule β} {between : α → Prop} {holds : β → Prop}
    (first : Yields rule between) (second : ∀ value, between value → Yields (next value) holds) :
    Yields (rule >>= next) holds := by
  intro tokens value rest read
  obtain ⟨middle, behind, started, finished⟩ := bind_ok_iff.mp read
  exact second middle (first started) finished

theorem then_yields {rule : Rule α} {next : α → Rule β} {holds : β → Prop}
    (second : ∀ value, Yields (next value) holds) : Yields (rule >>= next) holds :=
  bind_yields (yields_anything rule) fun value _ => second value

theorem choice_yields {found : Prop} [Decidable found] {yes no : Rule α} {holds : α → Prop}
    (first : Yields yes holds) (second : Yields no holds) :
    Yields (if found then yes else no) holds := by
  split
  · exact first
  · exact second

theorem accept_yields {kind : TokenKind} {yes no : Rule α} {holds : α → Prop}
    (first : Yields yes holds) (second : Yields no holds) :
    Yields (accept kind >>= fun found => if found = true then yes else no) holds :=
  then_yields fun _ => choice_yields first second

theorem refuse_yields {holds : α → Prop} : Yields refuse holds := by
  intro tokens value rest read
  exact absurd read refuse_ne_ok

theorem announced_yields {word : Keyword} {item : Rule α} {holds : α → Prop}
    (yields : Yields item holds) :
    Yields (announced word item) fun found => ∀ value ∈ found, holds value := by
  refine accept_yields (bind_yields yields fun value held => pure_yields ?_) (pure_yields ?_)
  · intro other same
    obtain rfl := Option.some.inj same
    exact held
  · intro value member
    contradiction

/-! Options. -/

theorem mapping_yields (levels : Nat) : Yields (mapping levels) Mapping.Distinct := by
  cases levels with
  | zero =>
    intro tokens value rest read
    contradiction
  | succ levels =>
    refine then_yields fun _ => then_yields fun entries => ?_
    exact pure_yields (Mapping.ofList_distinct entries)

theorem getD_distinct {given : Option Mapping} (distinct : ∀ mapping ∈ given, mapping.Distinct) :
    (given.getD .empty).Distinct := by
  cases given with
  | none => exact Mapping.empty_distinct
  | some mapping => exact distinct mapping rfl

theorem options_yields (levels : Nat) : Yields (options levels) Mapping.Distinct := by
  refine bind_yields (announced_yields (mapping_yields levels)) fun given distinct => ?_
  exact pure_yields (getD_distinct distinct)

theorem clauses_yields (levels : Nat) :
    Yields (clauses levels) fun read => read.2.Distinct := by
  refine then_yields fun compiled => ?_
  refine bind_yields (announced_yields (mapping_yields levels)) fun given distinct => ?_
  split
  · exact refuse_yields
  · exact pure_yields (getD_distinct distinct)

/-! Statements. -/

theorem statement_yields {levels : Nat} {holds : Command → Prop}
    (yields : Yields (command levels) holds) : Yields (statement levels) holds := by
  refine bind_yields yields fun command held => ?_
  refine then_yields fun _ => then_yields fun _ => ?_
  exact pure_yields held

theorem readText_ok {limits : Limits} {text : String} {command : Command}
    (read : limits.readText text = .ok command) :
    ∃ tokens rest, Token.sequence text = .ok tokens ∧
      statement limits.maxDepth tokens = .ok (command, rest) := by
  unfold Limits.readText at read
  cases short : limits.checkLength text with
  | error fault => simp [short, bind, Except.bind] at read
  | ok _ =>
    cases split : Token.sequence text with
    | error fault => simp [short, split, bind, Except.bind] at read
    | ok tokens =>
      simp only [short, split, bind, Except.bind, Limits.readTokens] at read
      cases whole : statement limits.maxDepth tokens with
      | error fault => simp [whole] at read
      | ok result =>
        obtain ⟨found, rest⟩ := result
        simp only [whole, Except.ok.injEq] at read
        exact ⟨tokens, rest, rfl, by rw [← read, whole]⟩

theorem readText_of_tokens {limits : Limits} {text : String} {tokens rest : List Token}
    {command : Command} (short : limits.checkLength text = .ok ())
    (split : Token.sequence text = .ok tokens)
    (read : statement limits.maxDepth tokens = .ok (command, rest)) :
    limits.readText text = .ok command := by
  simp only [Limits.readText, short, split, bind, Except.bind, Limits.readTokens, read]

/-- How a text within its length is read. -/
theorem read_of_sequence {limits : Limits} {text : String}
    (short : limits.checkLength text = .ok ()) :
    limits.read text = ((Token.sequence text).bind limits.readTokens).mapError
      fun error => error.diagnostic.withStatement text := by
  simp only [Limits.read, Limits.readText, short, bind, Except.bind]

theorem read_ok_iff {limits : Limits} {text : String} {command : Command} :
    limits.read text = .ok command ↔ limits.checkLength text = .ok () ∧
      ∃ tokens, Token.sequence text = .ok tokens ∧ limits.readTokens tokens = .ok command := by
  cases short : limits.checkLength text with
  | error error => simp [Limits.read, Limits.readText, short, bind, Except.bind, Except.mapError]
  | ok _ =>
    rw [read_of_sequence short]
    cases split : Token.sequence text with
    | error error => simp [Except.bind, Except.mapError]
    | ok tokens => cases read : limits.readTokens tokens <;> simp [read, Except.bind, Except.mapError]

theorem checkLength_cases (limits : Limits) (text : String) :
    limits.checkLength text = .ok () ∨ ∃ limit, limits.maxLength = some limit ∧
      limit < text.utf8ByteSize ∧
      limits.checkLength text = .error (.statementTooLong text.utf8ByteSize limit) := by
  unfold Limits.checkLength
  split
  next limit set =>
    split
    next longer => exact .inr ⟨limit, set, longer, rfl⟩
    next => exact .inl rfl
  next => exact .inl rfl

theorem checkLength_ok_iff {limits : Limits} {text : String} :
    limits.checkLength text = .ok () ↔
      ∀ limit, limits.maxLength = some limit → text.utf8ByteSize ≤ limit := by
  rcases checkLength_cases limits text with short | ⟨limit, set, longer, tooLong⟩
  · simp only [short, true_iff]
    intro limit set
    simp only [Limits.checkLength, set] at short
    split at short
    · contradiction
    · omega
  · simp only [tooLong, reduceCtorEq, false_iff]
    intro all
    have := all limit set
    omega

theorem checkLength_of_unbounded {limits : Limits} (unbounded : limits.maxLength = none)
    (text : String) : limits.checkLength text = .ok () :=
  checkLength_ok_iff.mpr (by simp [unbounded])

/-- A text is refused for its length, at a lexeme or at a token. -/
theorem read_error_cases {limits : Limits} {text : String} {diagnostic : Diagnostic}
    (failed : limits.read text = .error diagnostic) :
    ∃ error : StatementError, diagnostic = error.diagnostic.withStatement text ∧
      ((∃ length limit, error = .statementTooLong length limit) ∨
        Token.sequence text = .error error ∨
        ∃ tokens fault, Token.sequence text = .ok tokens ∧
          statement limits.maxDepth tokens = .error fault ∧
          error = fault.toError limits.maxDepth) := by
  rcases checkLength_cases limits text with short | ⟨limit, -, -, tooLong⟩
  · rw [read_of_sequence short] at failed
    cases split : Token.sequence text with
    | error error =>
      simp only [split, Except.bind, Except.mapError, Except.error.injEq] at failed
      exact ⟨error, failed.symm, .inr (.inl rfl)⟩
    | ok tokens =>
      simp only [split, Except.bind, Limits.readTokens] at failed
      cases outcome : statement limits.maxDepth tokens with
      | ok read => simp [outcome, Except.mapError] at failed
      | error fault =>
        simp only [outcome, Except.mapError, Except.error.injEq] at failed
        exact ⟨_, failed.symm, .inr (.inr ⟨tokens, fault, rfl, outcome, rfl⟩)⟩
  · simp only [Limits.read, Limits.readText, tooLong, bind, Except.bind, Except.mapError,
      Except.error.injEq] at failed
    exact ⟨_, failed.symm, .inl ⟨_, limit, rfl⟩⟩

theorem readText_holds {limits : Limits} {text : String} {read : Command} {holds : Command → Prop}
    (yields : Yields (command limits.maxDepth) holds)
    (success : limits.readText text = .ok read) : holds read := by
  obtain ⟨tokens, rest, _, whole⟩ := readText_ok success
  exact statement_yields yields whole

end VectorQuery.Grammar
