import VectorQuery.Proofs.Grammar.Progress

/-! Two runs of the grammar side by side. A coupling says what may be left to read on the
two sides, how many levels may still open there, and with which faults the runs may end.
Steps that go by the kinds and texts of tokens, and take no semicolon, keep to every
coupling, and so does every rule made of them. -/
namespace VectorQuery

/-- The kind of a truth value or of null tells all about it. -/
def TokenKind.tellsAll : TokenKind → Bool
  | .literal (.boolean _) | .literal .null => true
  | _ => false

/-- Tokens that differ in nothing a rule looks at. -/
structure Token.Alike (token token' : Token) : Prop where
  kind : token.kind = token'.kind
  text : token.kind.tellsAll = false → token.text = token'.text

theorem Token.alike_of_eq {token token' : Token} (same : token = token') : token.Alike token' :=
  same ▸ ⟨rfl, fun _ => rfl⟩

theorem Token.Alike.text_of_kind {token token' : Token} {kind : TokenKind}
    (alike : token.Alike token') (same : token.kind = kind) (plain : kind.tellsAll = false) :
    token.text = token'.text :=
  alike.text (by rw [same, plain])

namespace Grammar

structure Coupling where
  tokens : List Token → List Token → Prop
  heads : Token → Token → Prop
  levels : Nat → Nat → Prop
  faults : Fault → Fault → Prop
  /-- Faults that end the left side alone. -/
  escapes : Fault → Prop
  alike : ∀ {token token' : Token}, heads token token' → token.Alike token'
  split : ∀ {left right : List Token}, tokens left right →
    left = [] ∧ right = [] ∨ ∃ token token' rest rest', left = token :: rest ∧
      right = token' :: rest' ∧ heads token token' ∧
      (token.kind ≠ .separator .semicolon → tokens rest rest')
  unexpected : ∀ {token token' : Token}, heads token token' →
    faults (.unexpected token) (.unexpected token')
  endOfInput : tokens [] [] → faults .endOfInput .endOfInput
  tooDeep : ∀ {left right : List Token}, levels 0 0 → tokens left right →
    faults (.tooDeep left.head?) (.tooDeep right.head?)
  escape : ∀ {levels' : Nat} {left right : List Token}, levels 0 (levels' + 1) →
    tokens left right → escapes (.tooDeep left.head?)
  deeper : ∀ {fewer levels' : Nat}, levels (fewer + 1) levels' →
    ∃ fewer', levels' = fewer' + 1 ∧ levels fewer fewer'

/-- Where the levels on both sides are the same, so are those left behind a bracket. -/
theorem fewer_of_same {fewer levels : Nat} (same : fewer + 1 = levels) :
    ∃ fewer', levels = fewer' + 1 ∧ fewer = fewer' :=
  ⟨fewer, same.symm, rfl⟩

namespace Coupling

/-- How two runs end that keep to the coupling. -/
inductive Ends (coupling : Coupling) {α : Type} :
    Except Fault (α × List Token) → Except Fault (α × List Token) → Prop
  | read {value : α} {rest rest' : List Token} :
      coupling.tokens rest rest' → Ends coupling (.ok (value, rest)) (.ok (value, rest'))
  | fault {fault fault' : Fault} :
      coupling.faults fault fault' → Ends coupling (.error fault) (.error fault')
  | escape {fault : Fault} {outcome : Except Fault (α × List Token)} :
      coupling.escapes fault → Ends coupling (.error fault) outcome

/-- What may be left on the two sides where a token of this kind comes next. -/
def headed (coupling : Coupling) (kind : Option TokenKind) (left right : List Token) : Prop :=
  coupling.tokens left right ∧ left.head?.map Token.kind = kind

end Coupling

/-- Two rules keep to a coupling from these tokens on. -/
def Coupled (coupling : Coupling) (before : List Token → List Token → Prop) {α : Type}
    (left right : Rule α) : Prop :=
  ∀ ⦃tokens tokens'⦄, before tokens tokens' → coupling.Ends (left tokens) (right tokens')

abbrev Agree (coupling : Coupling) {α : Type} (left right : Rule α) : Prop :=
  Coupled coupling coupling.tokens left right

variable {coupling : Coupling} {α β : Type}

/-! Single tokens. -/

theorem heads_of_tokens {left right : List Token} (related : coupling.tokens left right) :
    left.head?.map Token.kind = right.head?.map Token.kind := by
  obtain ⟨rfl, rfl⟩ | ⟨token, token', rest, rest', rfl, rfl, heads, -⟩ := coupling.split related
  · rfl
  · simp [(coupling.alike heads).kind]

/-- A meaning of tokens that neither their places nor a semicolon decide. -/
structure Settled (meaning : Token → Option α) : Prop where
  alike : ∀ token token' : Token, token.Alike token' → meaning token = meaning token'
  semicolon : ∀ token : Token, token.kind = .separator .semicolon → meaning token = none

theorem take_agree {meaning : Token → Option α} (settled : Settled meaning) :
    Agree coupling (take meaning) (take meaning) := by
  intro tokens tokens' related
  obtain ⟨rfl, rfl⟩ | ⟨token, token', rest, rest', rfl, rfl, heads, behind⟩ :=
    coupling.split related
  · exact .fault (coupling.endOfInput related)
  · simp only [take, ← settled.alike token token' (coupling.alike heads)]
    cases meant : meaning token with
    | none => exact .fault (coupling.unexpected heads)
    | some value =>
      refine .read (behind fun semicolon => ?_)
      rw [settled.semicolon token semicolon] at meant
      contradiction

theorem refuse_agree : Agree coupling (refuse : Rule α) refuse := by
  intro tokens tokens' related
  obtain ⟨rfl, rfl⟩ | ⟨token, token', rest, rest', rfl, rfl, heads, -⟩ := coupling.split related
  · exact .fault (coupling.endOfInput related)
  · exact .fault (coupling.unexpected heads)

theorem refuseToken_agree {token token' : Token} (heads : coupling.heads token token') :
    Agree coupling (refuseToken token : Rule α) (refuseToken token') :=
  fun _ _ _ => .fault (coupling.unexpected heads)

theorem pure_agree (value : α) : Agree coupling (pure value) (pure value) :=
  fun _ _ related => .read related

/-! Steps one after another. -/

section
variable {before : List Token → List Token → Prop} {rule rule' : Rule α} {next next' : α → Rule β}

theorem bind_coupled (first : Coupled coupling before rule rule')
    (second : ∀ value, Agree coupling (next value) (next' value)) :
    Coupled coupling before (rule >>= next) (rule' >>= next') := by
  intro tokens tokens' related
  rw [bind_apply, bind_apply]
  have start := first related
  generalize rule tokens = outcome at start
  generalize rule' tokens' = outcome' at start
  cases start with
  | read behind => exact second _ behind
  | fault faults => exact .fault faults
  | escape escapes => exact .escape escapes

theorem bind_agree (first : Agree coupling rule rule')
    (second : ∀ value, Agree coupling (next value) (next' value)) :
    Agree coupling (rule >>= next) (rule' >>= next') :=
  bind_coupled first second

theorem map_agree (first : Agree coupling rule rule') (change : α → β) :
    Agree coupling (rule >>= fun value => pure (change value))
      (rule' >>= fun value => pure (change value)) :=
  bind_agree first fun _ => pure_agree _

theorem choice_coupled {found : Prop} [Decidable found] {yes yes' no no' : Rule α}
    (first : Coupled coupling before yes yes') (second : Coupled coupling before no no') :
    Coupled coupling before (if found then yes else no) (if found then yes' else no') := by
  split
  · exact first
  · exact second

end

theorem expect_agree {kind : TokenKind} (other : kind ≠ .separator .semicolon) :
    Agree coupling (expect kind) (expect kind) := by
  refine take_agree ⟨fun token token' alike => by rw [alike.kind], fun token semicolon => ?_⟩
  rw [semicolon, if_neg other.symm]

theorem accept_agree {kind : TokenKind} (other : kind ≠ .separator .semicolon) :
    Agree coupling (accept kind) (accept kind) := by
  intro tokens tokens' related
  obtain ⟨rfl, rfl⟩ | ⟨token, token', rest, rest', rfl, rfl, heads, behind⟩ :=
    coupling.split related
  · exact .read related
  · simp only [accept, ← (coupling.alike heads).kind]
    split
    next same => exact .read (behind fun semicolon => other (same.symm.trans semicolon))
    next => exact .read related

theorem found_agree {kind : TokenKind} {yes yes' no no' : Rule α}
    (other : kind ≠ .separator .semicolon) (first : Agree coupling yes yes')
    (second : Agree coupling no no') :
    Agree coupling (accept kind >>= fun found => if found = true then yes else no)
      (accept kind >>= fun found => if found = true then yes' else no') :=
  bind_agree (accept_agree other) fun _ => choice_coupled first second

/-! Steps that look ahead. What they see is the same on both sides, and it may show that the
token which comes next is no semicolon. -/

theorem Coupled.headed {rule rule' : Rule α} (agree : Agree coupling rule rule')
    (kind : Option TokenKind) : Coupled coupling (coupling.headed kind) rule rule' :=
  fun _ _ related => agree related.1

theorem peek_agree {next next' : Option TokenKind → Rule α}
    (each : ∀ kind, Coupled coupling (coupling.headed kind) (next kind) (next' kind)) :
    Agree coupling (peek >>= next) (peek >>= next') := by
  intro tokens tokens' related
  rw [bind_of_ok (peek_apply tokens), bind_of_ok (peek_apply tokens'), ← heads_of_tokens related]
  exact each _ ⟨related, rfl⟩

theorem peek_choice_agree {seen : Option TokenKind → Prop} [DecidablePred seen]
    {yes yes' no no' : Rule α} (first : Agree coupling yes yes') (second : Agree coupling no no') :
    Agree coupling (peek >>= fun kind => if seen kind then yes else no)
      (peek >>= fun kind => if seen kind then yes' else no') :=
  peek_agree fun kind => (choice_coupled first second).headed kind

theorem token_coupled {kind : Option TokenKind} {next next' : Token → Rule α}
    (other : kind ≠ some (.separator .semicolon))
    (each : ∀ token token', coupling.heads token token' →
      Agree coupling (next token) (next' token')) :
    Coupled coupling (coupling.headed kind) (token >>= next) (token >>= next') := by
  rintro tokens tokens' ⟨related, rfl⟩
  obtain ⟨rfl, rfl⟩ | ⟨head, head', rest, rest', rfl, rfl, heads, behind⟩ :=
    coupling.split related
  · exact .fault (coupling.endOfInput related)
  · rw [bind_of_ok (token_ok_iff.mpr rfl), bind_of_ok (token_ok_iff.mpr rfl)]
    exact each head head' heads (behind fun semicolon => other (by simp [semicolon]))

theorem next?_agree {next next' : Option Token → Rule α}
    (none : Agree coupling (next none) (next' none))
    (some : ∀ token token', coupling.heads token token' →
      Coupled coupling (coupling.headed (some token.kind)) (next token) (next' token')) :
    Agree coupling (next? >>= next) (next? >>= next') := by
  intro tokens tokens' related
  rw [bind_of_ok (next?_apply tokens), bind_of_ok (next?_apply tokens')]
  obtain ⟨rfl, rfl⟩ | ⟨head, head', rest, rest', rfl, rfl, heads, -⟩ := coupling.split related
  · exact none related
  · exact some head head' heads ⟨related, rfl⟩

theorem current_agree {next next' : Token → Rule α}
    (each : ∀ token token', coupling.heads token token' →
      Agree coupling (next token) (next' token')) :
    Agree coupling (current >>= next) (current >>= next') := by
  intro tokens tokens' related
  obtain ⟨rfl, rfl⟩ | ⟨head, head', rest, rest', rfl, rfl, heads, -⟩ := coupling.split related
  · exact .fault (coupling.endOfInput related)
  · exact each head head' heads related

/-! Loops. -/

theorem many_agree {item item' : Rule (Option α)} (consuming : Consuming item)
    (consuming' : Consuming item') (each : Agree coupling item item') :
    Agree coupling (many item) (many item') := by
  intro tokens tokens' related
  induction size : tokens.length using Nat.strongRecOn generalizing tokens tokens' with
  | ind length ih =>
    rw [many_apply item consuming, many_apply item' consuming']
    have start := each related
    cases found : item tokens with
    | error fault =>
      rw [found] at start
      generalize item' tokens' = outcome' at start
      cases start with
      | fault faults => exact .fault faults
      | escape escapes => exact .escape escapes
    | ok read =>
      obtain ⟨value, rest⟩ := read
      rw [found] at start
      generalize item' tokens' = outcome' at start
      cases start with
      | @read _ _ rest' behind =>
        cases value with
        | none => exact .read behind
        | some value =>
          have shorter := consuming _ _ _ found
          have loop := ih rest.length (by omega) behind rfl
          simp only
          generalize many item rest = others at loop
          generalize many item' rest' = others' at loop
          cases loop with
          | read after => exact .read after
          | fault faults => exact .fault faults
          | escape escapes => exact .escape escapes

theorem separated_agree {item item' : Rule α} (shrinking : Shrinking item)
    (shrinking' : Shrinking item') (each : Agree coupling item item') :
    Agree coupling (separated item) (separated item') := by
  refine bind_agree each fun first => bind_agree ?_ fun others => pure_agree _
  refine many_agree (commaItem_consuming shrinking) (commaItem_consuming shrinking') ?_
  exact found_agree (by decide) (map_agree each some) (pure_agree none)

theorem announced_agree {item item' : Rule α} (word : Keyword) (agree : Agree coupling item item') :
    Agree coupling (announced word item) (announced word item') :=
  found_agree (by simp) (map_agree agree some) (pure_agree none)

theorem bracketed_agree {inner inner' : Rule α} (agree : Agree coupling inner inner') :
    Agree coupling (bracketed inner) (bracketed inner') :=
  bind_agree (expect_agree (by decide)) fun _ => bind_agree agree fun _ =>
    bind_agree (expect_agree (by decide)) fun _ => pure_agree _

/-! Levels. -/

/-- A rule that opens a level agrees where what it holds agrees one level further in. -/
theorem agree_of_levels {rule : Nat → Rule α} {levels levels' : Nat}
    (related : coupling.levels levels levels') (shallow : rule 0 = Grammar.tooDeep)
    (deep : ∀ fewer fewer', levels = fewer + 1 → coupling.levels fewer fewer' →
      Agree coupling (rule (fewer + 1)) (rule (fewer' + 1))) :
    Agree coupling (rule levels) (rule levels') := by
  cases levels with
  | zero =>
    cases levels' with
    | zero =>
      rw [shallow]
      exact fun _ _ left => .fault (coupling.tooDeep related left)
    | succ fewer' =>
      rw [shallow]
      exact fun _ _ left => .escape (coupling.escape related left)
  | succ fewer =>
    obtain ⟨fewer', rfl, within⟩ := coupling.deeper related
    exact deep fewer fewer' rfl within

end Grammar

end VectorQuery
