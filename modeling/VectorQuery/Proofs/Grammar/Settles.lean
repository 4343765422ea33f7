import VectorQuery.Proofs.Grammar.Reads

/-! Lexemes that settle what a rule does with them: it reads a value where a condition holds of
them, and it refuses them where the condition fails. -/
namespace VectorQuery

open Lexeme

namespace Grammar

variable {α β : Type}

/-- From the tokens of these lexemes, before a rest of this kind, the rule reads the value if
the condition holds, and it refuses them if not. -/
structure Settles (rule : Rule α) (lexemes : List Lexeme) (accepted : Prop) (value : α)
    (before : List Token → Prop) : Prop where
  reads : accepted → ∀ ⦃tokens⦄, Spells lexemes tokens → ∀ rest, before rest →
    rule (tokens ++ rest) = .ok (value, rest)
  refuses : ¬accepted → ∀ ⦃tokens⦄, Spells lexemes tokens → ∀ rest, before rest →
    ∃ fault, rule (tokens ++ rest) = .error fault

section
variable {rule : Rule α} {next : α → Rule β} {lexemes others : List Lexeme}
  {accepted accepted' : Prop} {value : α} {result : β} {before after : List Token → Prop}

theorem Settles.congr (settles : Settles rule lexemes accepted value before)
    (same : accepted ↔ accepted') : Settles rule lexemes accepted' value before :=
  ⟨fun holds => settles.reads (same.mpr holds), fun fails => settles.refuses (same.not.mpr fails)⟩

theorem Settles.weaken (settles : Settles rule lexemes accepted value after)
    (weaker : ∀ rest, before rest → after rest) : Settles rule lexemes accepted value before :=
  ⟨fun holds _ spells rest held => settles.reads holds spells rest (weaker rest held),
    fun fails _ spells rest held => settles.refuses fails spells rest (weaker rest held)⟩

theorem Reads.settles (reads : Reads rule lexemes value before) :
    Settles rule lexemes True value before :=
  ⟨fun _ => reads.reads, fun fails => absurd trivial fails⟩

/-- A rule that reads, settles by what holds anyway. -/
theorem settles_of_reads (holds : accepted)
    (reads : ∀ ⦃tokens⦄, Spells lexemes tokens → ∀ rest, before rest →
      rule (tokens ++ rest) = .ok (value, rest)) : Settles rule lexemes accepted value before :=
  ⟨fun _ => reads, fun fails => absurd holds fails⟩

theorem settles_of_refuses (fails : ¬accepted)
    (refuses : ∀ ⦃tokens⦄, Spells lexemes tokens → ∀ rest, before rest →
      ∃ fault, rule (tokens ++ rest) = .error fault) :
    Settles rule lexemes accepted value before :=
  ⟨fun holds => absurd holds fails, fun _ => refuses⟩

theorem settles_pure (value : α) : Settles (pure value) [] True value Anything :=
  settles_of_reads trivial fun tokens spells rest _ => by rw [spells.nil_cases]; rfl

theorem bind_of_error {tokens : List Token} {fault : Fault} (refused : rule tokens = .error fault)
    (next : α → Rule β) : (rule >>= next) tokens = .error fault := by
  rw [bind_apply, refused]

theorem Settles.bind (first : Settles rule lexemes accepted value before)
    (second : Settles (next value) others accepted' result after)
    (meets : Meets others after before) :
    Settles (rule >>= next) (lexemes ++ others) (accepted ∧ accepted') result after := by
  refine ⟨fun both tokens spells rest held => ?_, fun fails tokens spells rest held => ?_⟩
  · obtain ⟨front, behind, rfl, start, finish⟩ := spells.append_cases
    have step := first.reads both.1 start (behind ++ rest) (meets finish rest held)
    rw [List.append_assoc, bind_of_ok step, second.reads both.2 finish rest held]
  · obtain ⟨front, behind, rfl, start, finish⟩ := spells.append_cases
    have met := meets finish rest held
    rw [List.append_assoc]
    by_cases holds : accepted
    · rw [bind_of_ok (first.reads holds start (behind ++ rest) met)]
      exact second.refuses (fun holds' => fails ⟨holds, holds'⟩) finish rest held
    · obtain ⟨fault, refused⟩ := first.refuses holds start (behind ++ rest) met
      exact ⟨fault, bind_of_error refused next⟩

theorem Settles.then (first : Settles rule lexemes accepted value Anything)
    (second : Settles (next value) others accepted' result after) :
    Settles (rule >>= next) (lexemes ++ others) (accepted ∧ accepted') result after :=
  first.bind second meets_anything

theorem Settles.map (settles : Settles rule lexemes accepted value before) (change : α → β) :
    Settles (rule >>= fun value => pure (change value)) lexemes accepted (change value) before := by
  refine ⟨fun holds tokens spells rest held => ?_, fun fails tokens spells rest held => ?_⟩
  · rw [bind_of_ok (settles.reads holds spells rest held), pure_apply]
  · obtain ⟨fault, refused⟩ := settles.refuses fails spells rest held
    exact ⟨fault, bind_of_error refused _⟩

/-- A rule settles what one does that goes the same way from there. -/
theorem Settles.of_eq {rule' : Rule α} (settles : Settles rule lexemes accepted value before)
    (same : ∀ ⦃tokens⦄, Spells lexemes tokens → ∀ rest, before rest →
      rule' (tokens ++ rest) = rule (tokens ++ rest)) :
    Settles rule' lexemes accepted value before :=
  ⟨fun holds _ spells rest held =>
      (same spells rest held).trans (settles.reads holds spells rest held),
    fun fails _ spells rest held => same spells rest held ▸ settles.refuses fails spells rest held⟩

/-- A rule settles behind a token what it leaves to another rule there. -/
theorem Settles.behind {rule' : Rule α} {lexeme : Lexeme}
    (settles : Settles rule lexemes accepted value before)
    (same : ∀ token rest, token.kind = lexeme.kind → rule' (token :: rest) = rule rest) :
    Settles rule' (lexeme :: lexemes) accepted value before := by
  refine ⟨fun holds tokens spells rest held => ?_, fun fails tokens spells rest held => ?_⟩
  · obtain ⟨token, behind, rfl, kind, -, finish⟩ := spells.cons_cases
    exact (same token _ kind).trans (settles.reads holds finish rest held)
  · obtain ⟨token, behind, rfl, kind, -, finish⟩ := spells.cons_cases
    obtain ⟨fault, refused⟩ := settles.refuses fails finish rest held
    exact ⟨fault, (same token _ kind).trans refused⟩

/-! Loops. -/

theorem many_of_error {item : Rule (Option α)} (consuming : Consuming item) {tokens : List Token}
    {fault : Fault} (refused : item tokens = .error fault) : many item tokens = .error fault := by
  rw [many_apply item consuming, refused]

theorem settles_many_nil {item : Rule (Option α)} (consuming : Consuming item)
    (settles : Settles item lexemes accepted none before) :
    Settles (many item) lexemes accepted [] before := by
  refine ⟨fun holds tokens spells rest held => ?_, fun fails tokens spells rest held => ?_⟩
  · exact many_of_none consuming (settles.reads holds spells rest held)
  · obtain ⟨fault, refused⟩ := settles.refuses fails spells rest held
    exact ⟨fault, many_of_error consuming refused⟩

theorem settles_many_cons {item : Rule (Option α)} (consuming : Consuming item) {values : List α}
    (first : Settles item lexemes accepted (some value) Anything)
    (behind : Settles (many item) others accepted' values after) :
    Settles (many item) (lexemes ++ others) (accepted ∧ accepted') (value :: values) after := by
  refine ⟨fun both tokens spells rest held => ?_, fun fails tokens spells rest held => ?_⟩
  · obtain ⟨front, later, rfl, start, finish⟩ := spells.append_cases
    have step := first.reads both.1 start (later ++ rest) trivial
    rw [List.append_assoc, many_of_some consuming step, behind.reads both.2 finish rest held]
    rfl
  · obtain ⟨front, later, rfl, start, finish⟩ := spells.append_cases
    rw [List.append_assoc]
    by_cases holds : accepted
    · have step := first.reads holds start (later ++ rest) trivial
      obtain ⟨fault, refused⟩ :=
        behind.refuses (fun holds' => fails ⟨holds, holds'⟩) finish rest held
      exact ⟨fault, by rw [many_of_some consuming step, refused]; rfl⟩
    · obtain ⟨fault, refused⟩ := first.refuses holds start (later ++ rest) trivial
      exact ⟨fault, many_of_error consuming refused⟩

/-- Behind a comma, the loop of a separated list starts over. -/
theorem many_commaItem_cons {item : Rule α} (shrinking : Shrinking item) {comma : Token}
    (separates : comma.kind = .separator .comma) (tokens : List Token) :
    many (commaItem item) (comma :: tokens) = separated item tokens := by
  have found : commaItem item (comma :: tokens) =
      (item tokens).map fun read => (some read.1, read.2) := by
    rw [commaItem, bind_of_ok (accept_cons separates tokens)]
    exact bind_pure_apply item some tokens
  rw [many_apply _ (commaItem_consuming shrinking), found]
  change _ = (item >>= fun first => many (commaItem item) >>= fun others =>
    pure (first :: others)) tokens
  rw [bind_apply]
  cases item tokens with
  | error fault => rfl
  | ok read => exact (bind_pure_apply (many (commaItem item)) (read.1 :: ·) read.2).symm

theorem separated_of_comma {item : Rule α} (shrinking : Shrinking item)
    {tokens middle : List Token} {comma : Token} (read : item tokens = .ok (value, comma :: middle))
    (separates : comma.kind = .separator .comma) :
    separated item tokens =
      (separated item middle).map fun read => (value :: read.1, read.2) := by
  change (item >>= fun first => many (commaItem item) >>= fun others =>
    pure (first :: others)) tokens = _
  rw [bind_of_ok read, bind_pure_apply, many_commaItem_cons shrinking separates]

theorem settles_separated_one {item : Rule α} (shrinking : Shrinking item)
    (settles : Settles item lexemes accepted value Anything) :
    Settles (separated item) lexemes accepted [value] (Lacks (.separator .comma)) := by
  refine ⟨fun holds tokens spells rest lacks => ?_, fun fails tokens spells rest _ => ?_⟩
  · exact separated_of_lacks shrinking (settles.reads holds spells rest trivial) lacks
  · obtain ⟨fault, refused⟩ := settles.refuses fails spells rest trivial
    exact ⟨fault, bind_of_error refused _⟩

theorem settles_separated_cons {item : Rule α} (shrinking : Shrinking item) {values : List α}
    (first : Settles item lexemes accepted value Anything)
    (behind : Settles (separated item) others accepted' values before) :
    Settles (separated item) (lexemes ++ Lexeme.comma :: others) (accepted ∧ accepted')
      (value :: values) before := by
  refine ⟨fun both tokens spells rest held => ?_, fun fails tokens spells rest held => ?_⟩
  · obtain ⟨front, later, rfl, start, finish⟩ := spells.append_cases
    obtain ⟨separator, last, rfl, separates, -, finish⟩ := finish.cons_cases
    have step := first.reads both.1 start (separator :: last ++ rest) trivial
    rw [List.append_assoc]
    exact separated_cons shrinking step separates (behind.reads both.2 finish rest held)
  · obtain ⟨front, later, rfl, start, finish⟩ := spells.append_cases
    obtain ⟨separator, last, rfl, separates, -, finish⟩ := finish.cons_cases
    rw [List.append_assoc]
    by_cases holds : accepted
    · have step := first.reads holds start (separator :: last ++ rest) trivial
      obtain ⟨fault, refused⟩ :=
        behind.refuses (fun holds' => fails ⟨holds, holds'⟩) finish rest held
      refine ⟨fault, ?_⟩
      rw [separated_of_comma shrinking step separates]
      exact congrArg (Except.map _) refused
    · obtain ⟨fault, refused⟩ := first.refuses holds start (separator :: last ++ rest) trivial
      exact ⟨fault, bind_of_error refused _⟩

/-! Single tokens. -/

theorem settles_take {meaning : Token → Option α} {lexeme : Lexeme}
    (means : ∀ token : Token, token.kind = lexeme.kind → token.text = lexeme.text →
      (accepted → meaning token = some value) ∧ (¬accepted → meaning token = none)) :
    Settles (take meaning) [lexeme] accepted value Anything := by
  refine ⟨fun holds tokens spells rest _ => ?_, fun fails tokens spells rest _ => ?_⟩
  · obtain ⟨token, behind, rfl, kind, text, finish⟩ := spells.cons_cases
    rw [finish.nil_cases]
    exact take_ok_iff.mpr ⟨token, rfl, (means token kind text).1 holds⟩
  · obtain ⟨token, behind, rfl, kind, text, finish⟩ := spells.cons_cases
    refine ⟨.unexpected token, ?_⟩
    simp only [take, List.cons_append, (means token kind text).2 fails]

theorem settles_text (key : Lexeme) :
    Settles text [key] (key.kind = .literal .text) key.text Anything :=
  settles_take fun token kind content => by simp [kind, content]

theorem settles_operator (symbol : Operator) :
    Settles (operator symbol) [ofOperator symbol] True () Anything :=
  settles_take fun token kind _ => by simp [kind]

theorem expect_of_lacks {kind : TokenKind} {tokens : List Token} (lacks : Lacks kind tokens) :
    ∃ fault, expect kind tokens = .error fault := by
  cases tokens with
  | nil => exact ⟨.endOfInput, rfl⟩
  | cons token rest =>
    have differs : token.kind ≠ kind := by simpa [Lacks] using lacks
    exact ⟨.unexpected token, by simp [expect, take, differs]⟩

/-- A rule that reads no comma gets by with at most one in front of it. -/
theorem settles_commas (refuses : ∀ token rest, token.kind = .separator .comma →
      ∃ fault, rule (token :: rest) = .error fault)
    (settles : Settles rule lexemes accepted value before)
    (lacks : Meets lexemes before (Lacks (.separator .comma))) (commas : Nat) :
    Settles (comma >>= fun _ => rule) (List.replicate commas .comma ++ lexemes)
      (commas ≤ 1 ∧ accepted) value before := by
  have behind : ∀ token rest, token.kind = .separator .comma →
      (comma >>= fun _ => rule) (token :: rest) = rule rest := fun token rest kind =>
    bind_of_ok (accept_cons kind rest) _
  match commas with
  | 0 =>
    refine (settles.of_eq fun tokens spells rest held => ?_).congr (by simp)
    exact bind_of_ok (accept_of_lacks (lacks spells rest held)) _
  | 1 => exact (settles.behind fun token rest kind => behind token rest kind).congr (by simp)
  | commas + 2 =>
    refine settles_of_refuses (by simp) fun tokens spells rest held => ?_
    obtain ⟨token, others, rfl, kind, -, finish⟩ := Spells.cons_cases spells
    obtain ⟨second, others, rfl, again, -, -⟩ := Spells.cons_cases finish
    rw [List.cons_append, behind token _ kind]
    exact refuses second _ again

/-! Brackets and lists. -/

theorem settles_bracketed (settles : Settles rule lexemes accepted value before)
    (closes : ∀ token rest, token.kind = .operator .closeParen → before (token :: rest)) :
    Settles (bracketed rule)
      (ofOperator .openParen :: (lexemes ++ [ofOperator .closeParen])) accepted value Anything := by
  have closing : Meets [ofOperator .closeParen] Anything before := by
    intro tokens spells rest _
    obtain ⟨token, behind, rfl, kind, -⟩ := spells.cons_cases
    exact closes token _ kind
  have inner : Settles (rule >>= fun value => operator .closeParen >>= fun _ => pure value)
      (lexemes ++ [ofOperator .closeParen]) (accepted ∧ True) value Anything :=
    settles.bind ((settles_operator .closeParen).map fun _ => value) closing
  exact ((settles_operator .openParen).bind inner meets_anything).congr (by simp)

/-- A list between commas is read where each of its items is. -/
theorem settles_items {ι : Type} {item : Rule α} (shrinking : Shrinking item)
    {write : ι → List Lexeme} {fine : ι → Prop} {meaning : ι → α} {items : List ι}
    (filled : items ≠ [])
    (each : ∀ one ∈ items, Settles item (write one) (fine one) (meaning one) Anything) :
    Settles (separated item) (separatedBy [] write items) (∀ one ∈ items, fine one)
      (items.map meaning) (Lacks (.separator .comma)) := by
  induction items with
  | nil => contradiction
  | cons one items ih =>
    have first := each one (by simp)
    cases items with
    | nil =>
      have whole : separatedBy [] write [one] = write one := by simp [separatedBy]
      rw [whole]
      exact (settles_separated_one shrinking first).congr (by simp)
    | cons second others =>
      have behind := ih (by simp) fun other inside => each other (by simp [inside])
      exact (settles_separated_cons shrinking first behind).congr (by simp)

/-! Choices. -/

theorem settles_accept_keyword {yes no : Rule α} (word : Keyword)
    (settles : Settles yes lexemes accepted value before) :
    Settles (accept (.keyword word) >>= fun found => if found = true then yes else no)
      (ofKeyword word :: lexemes) accepted value before :=
  settles.behind fun _ rest kind => accept_bind_cons kind rest

theorem settles_accept_skip {kind : TokenKind} {yes no : Rule α} {lexeme : Lexeme}
    (settles : Settles no (lexeme :: lexemes) accepted value before)
    (differs : lexeme.kind ≠ kind) :
    Settles (accept kind >>= fun found => if found = true then yes else no)
      (lexeme :: lexemes) accepted value before :=
  settles.of_eq fun _ spells rest held =>
    accept_bind_of_lacks (meets_lacks differs spells rest held)

end

end Grammar

end VectorQuery
