import VectorQuery.Proofs.Grammar.Rule
import VectorQuery.Proofs.Token.Spelling

/-! Rules read back what is written for them. A rule may look at what follows, so what
may follow is part of the statement, and each step of a rule adds its own lexemes. -/
namespace VectorQuery.Grammar
open Lexeme

variable {α β : Type}

/-- From the tokens of these lexemes, before a rest of this kind, the rule reads the
value. The lexemes stand by themselves, so a text of them has these tokens. -/
structure Reads (rule : Rule α) (lexemes : List Lexeme) (value : α)
    (before : List Token → Prop) : Prop where
  stand : ∀ lexeme ∈ lexemes, lexeme.Stands
  reads : ∀ ⦃tokens⦄, Spells lexemes tokens → ∀ rest, before rest →
    rule (tokens ++ rest) = .ok (value, rest)

def Anything : List Token → Prop := fun _ => True

/-- In front of a rest of the one kind, the lexemes make a rest of the other kind. -/
def Meets (lexemes : List Lexeme) (before after : List Token → Prop) : Prop :=
  ∀ ⦃tokens⦄, Spells lexemes tokens → ∀ rest, before rest → after (tokens ++ rest)

section
variable {rule : Rule α} {lexemes others : List Lexeme} {lexeme : Lexeme} {value : α} {result : β}
  {next : α → Rule β} {before after : List Token → Prop}

theorem meets_anything : Meets lexemes before Anything := by
  intro _ _ _ _
  trivial

theorem meets_nil (same : ∀ rest, before rest → after rest) : Meets [] before after := by
  intro tokens spells rest held
  rw [spells.nil_cases]
  exact same rest held

theorem meets_lacks {kind : TokenKind} (differs : lexeme.kind ≠ kind) :
    Meets (lexeme :: lexemes) before (Lacks kind) := by
  intro tokens spells rest _
  obtain ⟨token, behind, rfl, same, -⟩ := spells.cons_cases
  exact lacks_cons (same ▸ differs) _

theorem Reads.weaken (reads : Reads rule lexemes value after)
    (weaker : ∀ rest, before rest → after rest) : Reads rule lexemes value before :=
  ⟨reads.stand, fun _ spells rest held => reads.reads spells rest (weaker rest held)⟩

theorem Reads.anywhere (reads : Reads rule lexemes value Anything) :
    Reads rule lexemes value before :=
  reads.weaken fun _ _ => trivial

theorem reads_pure : Reads (pure value) [] value Anything := by
  refine ⟨by simp, fun tokens spells rest _ => ?_⟩
  rw [spells.nil_cases]
  rfl

theorem Reads.bind (first : Reads rule lexemes value before)
    (second : Reads (next value) others result after) (meets : Meets others after before) :
    Reads (rule >>= next) (lexemes ++ others) result after := by
  refine ⟨fun lexeme inside => ?_, fun tokens spells rest held => ?_⟩
  · rcases List.mem_append.mp inside with inside | inside
    · exact first.stand lexeme inside
    · exact second.stand lexeme inside
  · obtain ⟨front, behind, rfl, start, finish⟩ := spells.append_cases
    have step := first.reads start (behind ++ rest) (meets finish rest held)
    rw [List.append_assoc, bind_of_ok step, second.reads finish rest held]

theorem Reads.then (first : Reads rule lexemes value Anything)
    (second : Reads (next value) others result after) :
    Reads (rule >>= next) (lexemes ++ others) result after :=
  first.bind second meets_anything

theorem Reads.nil_bind (first : Reads rule [] value before)
    (second : Reads (next value) others result after) (meets : Meets others after before) :
    Reads (rule >>= next) others result after :=
  first.bind second meets

theorem Reads.bind_nil (first : Reads rule lexemes value Anything)
    (second : Reads (next value) [] result after) : Reads (rule >>= next) lexemes result after := by
  have whole := first.then second
  rwa [List.append_nil] at whole

theorem Reads.finish (first : Reads rule lexemes value before) (done : next value = pure result) :
    Reads (rule >>= next) lexemes result before := by
  refine ⟨first.stand, fun tokens spells rest held => ?_⟩
  rw [bind_of_ok (first.reads spells rest held), done, pure_apply]

theorem Reads.map (first : Reads rule lexemes value before) (change : α → β) :
    Reads (rule >>= fun value => pure (change value)) lexemes (change value) before :=
  first.finish rfl

/-! Single tokens. -/

theorem reads_take {meaning : Token → Option α} (stands : lexeme.Stands)
    (means : ∀ token : Token, token.kind = lexeme.kind → token.text = lexeme.text →
      meaning token = some value) : Reads (take meaning) [lexeme] value Anything := by
  refine ⟨by simpa using stands, fun tokens spells rest _ => ?_⟩
  obtain ⟨token, behind, rfl, kind, text, finish⟩ := spells.cons_cases
  rw [finish.nil_cases]
  exact take_ok_iff.mpr ⟨token, rfl, means token kind text⟩

theorem reads_expect (stands : lexeme.Stands) : Reads (expect lexeme.kind) [lexeme] () Anything :=
  reads_take stands fun _ kind _ => if_pos kind

theorem reads_keyword (word : Keyword) : Reads (keyword word) [ofKeyword word] () Anything :=
  reads_expect (stands_ofKeyword word)

theorem reads_operator (symbol : Operator) :
    Reads (operator symbol) [ofOperator symbol] () Anything :=
  reads_expect (stands_ofOperator symbol)

theorem reads_identifier {name : String} (isName : IsName name) :
    Reads identifier [ofName name] name Anything :=
  reads_take (stands_ofName isName) fun _ kind text => (if_pos kind).trans (congrArg some text)

theorem reads_text {content : String} (lacks : LacksQuote content) :
    Reads text [ofText content] content Anything :=
  reads_take (stands_ofText lacks) fun _ kind text => (if_pos kind).trans (congrArg some text)

theorem reads_integer (number : Int64) : Reads integer [ofInteger number] number Anything := by
  refine reads_take (stands_ofInteger number) fun token kind text => (if_pos kind).trans ?_
  rw [text, ofInteger, String.toList_ofList, readInteger?_writeInteger]

/-! Choices. -/

theorem reads_accept {yes no : Rule α} (stands : lexeme.Stands)
    (reads : Reads yes lexemes value before) :
    Reads (accept lexeme.kind >>= fun found => if found = true then yes else no)
      (lexeme :: lexemes) value before := by
  refine ⟨List.forall_mem_cons.mpr ⟨stands, reads.stand⟩, fun tokens spells rest held => ?_⟩
  obtain ⟨token, behind, rfl, kind, -, finish⟩ := spells.cons_cases
  rw [List.cons_append, accept_bind_cons kind]
  exact reads.reads finish rest held

theorem reads_accept_keyword {yes no : Rule α} (word : Keyword)
    (reads : Reads yes lexemes value before) :
    Reads (accept (.keyword word) >>= fun found => if found = true then yes else no)
      (ofKeyword word :: lexemes) value before :=
  reads_accept (stands_ofKeyword word) reads

theorem reads_accept_of_lacks {kind : TokenKind} {yes no : Rule α}
    (reads : Reads no lexemes value before) (lacks : Meets lexemes before (Lacks kind)) :
    Reads (accept kind >>= fun found => if found = true then yes else no) lexemes value before := by
  refine ⟨reads.stand, fun tokens spells rest held => ?_⟩
  rw [accept_bind_of_lacks (lacks spells rest held)]
  exact reads.reads spells rest held

theorem reads_accept_skip {kind : TokenKind} {yes no : Rule α}
    (reads : Reads no (lexeme :: lexemes) value before) (differs : lexeme.kind ≠ kind) :
    Reads (accept kind >>= fun found => if found = true then yes else no)
      (lexeme :: lexemes) value before :=
  reads_accept_of_lacks reads (meets_lacks differs)

theorem reads_peek {yes no : Rule α} (lexeme : Lexeme)
    (reads : Reads yes (lexeme :: lexemes) value before) :
    Reads (peek >>= fun seen => if seen = some lexeme.kind then yes else no)
      (lexeme :: lexemes) value before := by
  refine ⟨reads.stand, fun tokens spells rest held => ?_⟩
  have step := reads.reads spells rest held
  obtain ⟨token, behind, rfl, kind, -⟩ := spells.cons_cases
  rw [bind_of_ok (peek_apply _), if_pos (by simp [kind])]
  exact step

theorem reads_peek_of_lacks {kind : TokenKind} {yes no : Rule α}
    (reads : Reads no lexemes value before) (lacks : Meets lexemes before (Lacks kind)) :
    Reads (peek >>= fun seen => if seen = some kind then yes else no) lexemes value before := by
  refine ⟨reads.stand, fun tokens spells rest held => ?_⟩
  rw [bind_of_ok (peek_apply _), if_neg (lacks spells rest held)]
  exact reads.reads spells rest held

theorem reads_token {next : Token → Rule α} (stands : lexeme.Stands)
    (reads : ∀ token : Token, token.kind = lexeme.kind → token.text = lexeme.text →
      Reads (next token) lexemes value before) :
    Reads (token >>= next) (lexeme :: lexemes) value before := by
  refine ⟨List.forall_mem_cons.mpr ⟨stands, (reads ⟨lexeme.kind, lexeme.text, 0, 0⟩ rfl rfl).stand⟩,
    fun tokens spells rest held => ?_⟩
  obtain ⟨token, behind, rfl, kind, text, finish⟩ := spells.cons_cases
  rw [List.cons_append, bind_of_ok (token_ok_iff.mpr rfl)]
  exact (reads token kind text).reads finish rest held

theorem reads_current {next : Token → Rule α}
    (reads : ∀ token, Reads (next token) (lexeme :: lexemes) value before) :
    Reads (current >>= next) (lexeme :: lexemes) value before := by
  refine ⟨(reads ⟨lexeme.kind, lexeme.text, 0, 0⟩).stand, fun tokens spells rest held => ?_⟩
  obtain ⟨token, behind, rfl, -⟩ := spells.cons_cases
  have seen : current (token :: behind ++ rest) = .ok (token, token :: behind ++ rest) := rfl
  rw [bind_of_ok seen]
  exact (reads token).reads spells rest held

theorem reads_bracketed (reads : Reads rule lexemes value before)
    (closes : ∀ token rest, token.kind = .operator .closeParen → before (token :: rest)) :
    Reads (bracketed rule) (ofOperator .openParen :: (lexemes ++ [ofOperator .closeParen])) value
      Anything := by
  refine (reads_operator .openParen).then (reads.bind ((reads_operator .closeParen).map _) ?_)
  intro tokens spells rest _
  obtain ⟨token, behind, rfl, kind, -⟩ := spells.cons_cases
  exact closes token _ kind

theorem reads_announced {item : Rule α} (word : Keyword) (reads : Reads item lexemes value before) :
    Reads (announced word item) (ofKeyword word :: lexemes) (some value) before :=
  reads_accept_keyword word (reads.map some)

theorem reads_unannounced {item : Rule α} (word : Keyword) :
    Reads (announced word item) [] none (Lacks (.keyword word)) :=
  reads_accept_of_lacks reads_pure.anywhere (meets_nil fun _ held => held)

/-! Loops. -/

theorem reads_many_nil {item : Rule (Option α)} (consuming : Consuming item)
    (reads : Reads item lexemes none before) : Reads (many item) lexemes [] before :=
  ⟨reads.stand, fun _ spells rest held => many_of_none consuming (reads.reads spells rest held)⟩

theorem reads_many_cons {item : Rule (Option α)} (consuming : Consuming item) {values : List α}
    (first : Reads item lexemes (some value) before)
    (behind : Reads (many item) others values after) (meets : Meets others after before) :
    Reads (many item) (lexemes ++ others) (value :: values) after := by
  refine ⟨List.forall_mem_append.mpr ⟨first.stand, behind.stand⟩, fun tokens spells rest held => ?_⟩
  obtain ⟨front, later, rfl, start, finish⟩ := spells.append_cases
  have step := first.reads start (later ++ rest) (meets finish rest held)
  rw [List.append_assoc, many_of_some consuming step, behind.reads finish rest held]
  rfl

theorem reads_separated_one {item : Rule α} (shrinking : Shrinking item)
    (reads : Reads item lexemes value Anything) :
    Reads (separated item) lexemes [value] (Lacks (.separator .comma)) :=
  ⟨reads.stand, fun _ spells rest lacks =>
    separated_of_lacks shrinking (reads.reads spells rest trivial) lacks⟩

theorem reads_separated_cons {item : Rule α} (shrinking : Shrinking item) {values : List α}
    (first : Reads item lexemes value Anything)
    (behind : Reads (separated item) others values before) :
    Reads (separated item) (lexemes ++ Lexeme.comma :: others) (value :: values) before := by
  refine ⟨fun lexeme inside => ?_, fun tokens spells rest held => ?_⟩
  · rcases List.mem_append.mp inside with inside | inside
    · exact first.stand lexeme inside
    · rcases List.mem_cons.mp inside with rfl | inside
      · exact stands_comma
      · exact behind.stand lexeme inside
  · obtain ⟨front, later, rfl, start, finish⟩ := spells.append_cases
    obtain ⟨separator, last, rfl, separates, -, finish⟩ := finish.cons_cases
    have step := first.reads start (separator :: last ++ rest) trivial
    rw [List.append_assoc]
    exact separated_cons shrinking step separates (behind.reads finish rest held)

end

theorem reads_items {item : Rule α} (shrinking : Shrinking item) {write : α → List Lexeme}
    {items : List α} (filled : items ≠ [])
    (each : ∀ value ∈ items, Reads item (write value) value Anything) :
    Reads (separated item) (separatedBy [] write items) items (Lacks (.separator .comma)) := by
  induction items with
  | nil => contradiction
  | cons value items ih =>
    have first := each value (by simp)
    cases items with
    | nil =>
      have whole : separatedBy [] write [value] = write value := by simp [separatedBy]
      rw [whole]
      exact reads_separated_one shrinking first
    | cons second others =>
      have behind := ih (by simp) fun other inside => each other (by simp [inside])
      exact reads_separated_cons shrinking first behind

theorem reads_optional {rule : Rule β} {separator lexemes : List Lexeme} {value : β}
    {before : List Token → Prop} (isSeparator : IsSeparator separator)
    (reads : Reads rule lexemes value before)
    (lacks : Meets lexemes before (Lacks (.separator .comma))) :
    Reads (comma >>= fun _ => rule) (separator ++ lexemes) value before := by
  rcases isSeparator with rfl | rfl
  · refine ⟨reads.stand, fun tokens spells rest held => ?_⟩
    rw [comma, bind_of_ok (accept_of_lacks (lacks spells rest held))]
    exact reads.reads spells rest held
  · refine ⟨List.forall_mem_cons.mpr ⟨stands_comma, reads.stand⟩, fun tokens spells rest held => ?_⟩
    obtain ⟨token, behind, rfl, kind, -, finish⟩ := spells.cons_cases
    have separates : token.kind = .separator .comma := kind
    rw [comma, List.cons_append, bind_of_ok (accept_cons separates _)]
    exact reads.reads finish rest held

end VectorQuery.Grammar
