import VectorQuery.Grammar.Operand
import VectorQuery.Proofs.Grammar.Progress

/-! Tokens of which signs that stand against a number are taken apart, where an operand may end in
front of them. Rules are run on both lists side by side. A rule that starts where no operand has
ended meets the same token on both sides; any other may meet a number on one side and a minus on
the other, so it has to pass by both or to make the same of them. -/
namespace VectorQuery

namespace TokenKind

/-- Behind such a token, a sign is an operation. -/
def closesOperand : TokenKind → Bool
  | .identifier | .literal _ | .operator .closeParen | .operator .closeBracket => true
  | _ => false

/-- Neither a number nor a minus. -/
def isSteady : TokenKind → Bool
  | .literal .integer | .literal .float | .operator .minus => false
  | _ => true

end TokenKind

/-- A number and the two tokens of its sign and of the rest of it. -/
structure SplitInto (token minus number : Token) : Prop where
  glued : token.isGlued = true
  minus : minus.kind = .operator .minus
  kind : number.kind = token.kind
  text : number.text = token.unsigned.text

/-- The same tokens, except that a number behind the end of an operand has its sign apart. The
truth value tells whether such an end stands in front. -/
inductive Separated : Bool → List Token → List Token → Prop
  | nil {behind : Bool} : Separated behind [] []
  | kept {behind : Bool} {token : Token} {rest rest' : List Token} :
      (behind = true → token.isGlued = false) →
      Separated token.kind.closesOperand rest rest' →
      Separated behind (token :: rest) (token :: rest')
  | split {token minus number : Token} {rest rest' : List Token} :
      SplitInto token minus number → Separated true rest rest' →
      Separated true (token :: rest) (minus :: number :: rest')

/-- Signs can be taken apart in all tokens. -/
theorem exists_separated (behind : Bool) (tokens : List Token) :
    ∃ tokens', Separated behind tokens tokens' := by
  induction tokens generalizing behind with
  | nil => exact ⟨[], .nil⟩
  | cons token tokens ih =>
    by_cases apart : behind = true ∧ token.isGlued = true
    · obtain ⟨rfl, glued⟩ := apart
      obtain ⟨rest', related⟩ := ih true
      let minus : Token := ⟨.operator .minus, "-", token.line, token.column⟩
      have split : SplitInto token minus token.unsigned := ⟨glued, rfl, rfl, rfl⟩
      exact ⟨_, .split split related⟩
    · obtain ⟨rest', related⟩ := ih token.kind.closesOperand
      exact ⟨token :: rest', .kept (fun closed => by simpa [closed] using apart) related⟩

theorem Token.isGlued_cases {token : Token} (glued : token.isGlued = true) :
    token.kind = .literal .integer ∨ token.kind = .literal .float := by
  rw [isGlued, Bool.and_eq_true, Bool.or_eq_true, beq_iff_eq, beq_iff_eq] at glued
  exact glued.1

namespace SplitInto

variable {token minus number : Token} (split : SplitInto token minus number)
include split

theorem isSteady_token : token.kind.isSteady = false := by
  rcases Token.isGlued_cases split.glued with kind | kind <;> rw [kind] <;> rfl

theorem isSteady_minus : minus.kind.isSteady = false := by
  rw [split.minus]
  rfl

/-- Neither of the two is a token of another kind. -/
theorem ne_of_isSteady {kind : TokenKind} (steady : kind.isSteady = true) :
    token.kind ≠ kind ∧ minus.kind ≠ kind := by
  refine ⟨?_, ?_⟩
  · rintro rfl
    exact absurd steady (by simp [split.isSteady_token])
  · rintro rfl
    exact absurd steady (by simp [split.isSteady_minus])

end SplitInto

namespace Grammar

/-- Whether an operand may have ended in front of the tokens. -/
inductive Stage where
  | fresh
  | loose

namespace Stage

def Relates : Stage → List Token → List Token → Prop
  | .fresh => Separated false
  | .loose => fun left right => ∃ behind, Separated behind left right

/-- Where the tokens are that follow one of this kind. -/
def behind (kind : TokenKind) : Stage :=
  match kind.closesOperand with
  | true => .loose
  | false => .fresh

variable {stage : Stage} {left right : List Token}

theorem relates_behind {kind : TokenKind} (related : Separated kind.closesOperand left right) :
    (behind kind).Relates left right := by
  unfold behind
  cases closed : kind.closesOperand with
  | true => exact ⟨_, related⟩
  | false =>
    rw [closed] at related
    exact related

theorem Relates.loosen (related : stage.Relates left right) : loose.Relates left right := by
  cases stage with
  | fresh => exact ⟨false, related⟩
  | loose => exact related

theorem Relates.cases (related : stage.Relates left right) :
    left = [] ∧ right = [] ∨
    (∃ token rest rest', left = token :: rest ∧ right = token :: rest' ∧
      (behind token.kind).Relates rest rest') ∨
    stage = .loose ∧ ∃ token minus number rest rest', left = token :: rest ∧
      right = minus :: number :: rest' ∧ SplitInto token minus number ∧
      loose.Relates rest rest' := by
  obtain ⟨ended, separated, marked⟩ :
      ∃ ended, Separated ended left right ∧ (ended = true → stage = .loose) := by
    cases stage with
    | fresh => exact ⟨false, related, nofun⟩
    | loose => exact ⟨_, related.choose_spec, fun _ => rfl⟩
  cases separated with
  | nil => exact .inl ⟨rfl, rfl⟩
  | kept _ after => exact .inr (.inl ⟨_, _, _, rfl, rfl, relates_behind after⟩)
  | split split after => exact .inr (.inr ⟨marked rfl, _, _, _, _, _, rfl, rfl, split, true, after⟩)

theorem Relates.fresh_cases (related : fresh.Relates left right) :
    left = [] ∧ right = [] ∨
    ∃ token rest rest', left = token :: rest ∧ right = token :: rest' ∧
      (behind token.kind).Relates rest rest' := by
  rcases related.cases with none | some | ⟨contra, _⟩
  · exact .inl none
  · exact .inr some
  · contradiction

end Stage

/-- Both runs read the same and leave related tokens, or both refuse. -/
inductive Matches (after : Stage) {α : Type} :
    Except Fault (α × List Token) → Except Fault (α × List Token) → Prop
  | read {value : α} {rest rest' : List Token} :
      after.Relates rest rest' → Matches after (.ok (value, rest)) (.ok (value, rest'))
  | refused {fault fault' : Fault} : Matches after (.error fault) (.error fault')

/-- From tokens related in the one way, the two runs of a rule end related in the other. -/
def Alongside (before after : Stage) {α : Type} (rule : Rule α) : Prop :=
  ∀ ⦃left right⦄, before.Relates left right → Matches after (rule left) (rule right)

variable {α β : Type} {before between after : Stage}

theorem Alongside.loosen {rule : Rule α} (alongside : Alongside before after rule) :
    Alongside before .loose rule := by
  intro left right related
  have run := alongside related
  generalize rule left = outcome at run
  generalize rule right = outcome' at run
  cases run with
  | read behind => exact .read behind.loosen
  | refused => exact .refused

theorem pure_alongside (value : α) : Alongside before .loose (pure value) :=
  fun _ _ related => .read related.loosen

theorem tooDeep_alongside : Alongside before after (tooDeep : Rule α) :=
  fun _ _ _ => .refused

theorem refuseToken_alongside (token : Token) :
    Alongside before after (refuseToken token : Rule α) :=
  fun _ _ _ => .refused

theorem refuse_alongside : Alongside before after (refuse : Rule α) := by
  intro left right related
  rcases related.cases with ⟨rfl, rfl⟩ | ⟨_, _, _, rfl, rfl, _⟩ | ⟨_, _, _, _, _, _, rfl, rfl, _⟩
  all_goals exact .refused

/-! Steps one after another. -/

section
variable {rule : Rule α} {next : α → Rule β}

theorem Matches.bind {left right : List Token} (first : Matches between (rule left) (rule right))
    (second : ∀ value, Alongside between after (next value)) :
    Matches after ((rule >>= next) left) ((rule >>= next) right) := by
  rw [bind_apply, bind_apply]
  generalize rule left = outcome at first
  generalize rule right = outcome' at first
  cases first with
  | read behind => exact second _ behind
  | refused => exact .refused

theorem bind_alongside (first : Alongside before between rule)
    (second : ∀ value, Alongside between after (next value)) :
    Alongside before after (rule >>= next) :=
  fun _ _ related => (first related).bind second

theorem map_alongside (first : Alongside before after rule) (change : α → β) :
    Alongside before .loose (rule >>= fun value => pure (change value)) :=
  bind_alongside first fun _ => pure_alongside _

theorem choice_alongside {found : Prop} [Decidable found] {yes no : Rule α}
    (first : Alongside before after yes) (second : Alongside before after no) :
    Alongside before after (if found then yes else no) := by
  split
  · exact first
  · exact second

end

/-! Single tokens. -/

theorem take_same (meaning : Token → Option α) {token : Token} {rest rest' : List Token}
    (related : Stage.loose.Relates rest rest') :
    Matches .loose (take meaning (token :: rest)) (take meaning (token :: rest')) := by
  simp only [take]
  cases meaning token with
  | none => exact .refused
  | some value => exact .read related

/-- Where no operand has ended, any token may be taken. -/
theorem take_fresh (meaning : Token → Option α) : Alongside .fresh .loose (take meaning) := by
  intro left right related
  rcases related.fresh_cases with ⟨rfl, rfl⟩ | ⟨token, rest, rest', rfl, rfl, behind⟩
  · exact .refused
  · exact take_same meaning behind.loosen

/-- Elsewhere, neither numbers nor minus signs may. -/
theorem take_alongside {meaning : Token → Option α}
    (steady : ∀ token, token.kind.isSteady = false → meaning token = none) :
    Alongside before .loose (take meaning) := by
  intro left right related
  rcases related.cases with ⟨rfl, rfl⟩ | ⟨token, rest, rest', rfl, rfl, behind⟩ |
    ⟨-, token, minus, number, rest, rest', rfl, rfl, split, -⟩
  · exact .refused
  · exact take_same meaning behind.loosen
  · simp only [take, steady token split.isSteady_token, steady minus split.isSteady_minus]
    exact .refused

theorem expect_same (kind : TokenKind) {token : Token} {rest rest' : List Token}
    (related : (Stage.behind token.kind).Relates rest rest') :
    Matches (.behind kind) (expect kind (token :: rest)) (expect kind (token :: rest')) := by
  simp only [expect, take]
  by_cases same : token.kind = kind
  · simp only [if_pos same]
    exact .read (same ▸ related)
  · simp only [if_neg same]
    exact .refused

theorem expect_fresh (kind : TokenKind) : Alongside .fresh (.behind kind) (expect kind) := by
  intro left right related
  rcases related.fresh_cases with ⟨rfl, rfl⟩ | ⟨token, rest, rest', rfl, rfl, behind⟩
  · exact .refused
  · exact expect_same kind behind

theorem expect_alongside {kind : TokenKind} (steady : kind.isSteady = true) :
    Alongside before (.behind kind) (expect kind) := by
  intro left right related
  rcases related.cases with ⟨rfl, rfl⟩ | ⟨token, rest, rest', rfl, rfl, behind⟩ |
    ⟨-, token, minus, number, rest, rest', rfl, rfl, split, -⟩
  · exact .refused
  · exact expect_same kind behind
  · obtain ⟨token_ne, minus_ne⟩ := split.ne_of_isSteady steady
    simp only [expect, take, if_neg token_ne, if_neg minus_ne]
    exact .refused

theorem keyword_alongside (word : Keyword) : Alongside before .fresh (keyword word) :=
  @expect_alongside before (.keyword word) rfl

theorem operator_alongside (symbol : Operator)
    (steady : (TokenKind.operator symbol).isSteady = true) :
    Alongside before (.behind (.operator symbol)) (operator symbol) :=
  expect_alongside steady

/-- A token that is looked for may be there, and then the rule goes on behind it. -/
theorem found_alongside {kind : TokenKind} {yes no : Rule α} (steady : kind.isSteady = true)
    (first : Alongside (.behind kind) after yes) (second : Alongside before after no) :
    Alongside before after (accept kind >>= fun found => if found = true then yes else no) := by
  intro left right related
  rcases related.cases with ⟨rfl, rfl⟩ | ⟨token, rest, rest', rfl, rfl, behind⟩ |
    ⟨-, token, minus, number, rest, rest', rfl, rfl, split, -⟩
  · exact second related
  · by_cases same : token.kind = kind
    · rw [accept_bind_cons same, accept_bind_cons same]
      exact first (same ▸ behind)
    · rw [accept_bind_of_lacks (lacks_cons same rest), accept_bind_of_lacks (lacks_cons same rest')]
      exact second related
  · obtain ⟨token_ne, minus_ne⟩ := split.ne_of_isSteady steady
    rw [accept_bind_of_lacks (lacks_cons token_ne _), accept_bind_of_lacks (lacks_cons minus_ne _)]
    exact second related

theorem accept_alongside {kind : TokenKind} (steady : kind.isSteady = true) :
    Alongside before .loose (accept kind) := by
  have told : accept kind = accept kind >>= fun found =>
      if found = true then pure true else pure false := by
    funext tokens
    rw [bind_apply]
    cases accept kind tokens with
    | error fault => rfl
    | ok read => cases read with | mk found rest => cases found <;> rfl
  rw [told]
  exact found_alongside steady (pure_alongside true) (pure_alongside false)

/-! Steps that look ahead. -/

theorem peek_fresh {next : Option TokenKind → Rule α}
    (each : ∀ kind, Alongside .fresh after (next kind)) :
    Alongside .fresh after (peek >>= next) := by
  intro left right related
  rw [bind_of_ok (peek_apply left), bind_of_ok (peek_apply right)]
  rcases related.fresh_cases with ⟨rfl, rfl⟩ | ⟨token, rest, rest', rfl, rfl, -⟩
  · exact each none related
  · exact each (some token.kind) related

theorem peek_choice_alongside {kind : TokenKind} {yes no : Rule α}
    (steady : kind.isSteady = true) (first : Alongside before after yes)
    (second : Alongside before after no) :
    Alongside before after (peek >>= fun seen => if seen = some kind then yes else no) := by
  intro left right related
  rw [bind_of_ok (peek_apply left), bind_of_ok (peek_apply right)]
  rcases related.cases with ⟨rfl, rfl⟩ | ⟨token, rest, rest', rfl, rfl, -⟩ |
    ⟨-, token, minus, number, rest, rest', rfl, rfl, split, -⟩
  · exact second related
  · exact choice_alongside first second related
  · obtain ⟨token_ne, minus_ne⟩ := split.ne_of_isSteady steady
    rw [List.head?_cons, Option.map_some, if_neg (mt Option.some.inj token_ne),
      List.head?_cons, Option.map_some, if_neg (mt Option.some.inj minus_ne)]
    exact second related

/-! Loops. -/

theorem many_alongside {item : Rule (Option α)} (consuming : Consuming item)
    (each : Alongside .loose .loose item) : Alongside before .loose (many item) := by
  intro left right related
  -- The induction is on the left side; behind an item, both loops go on from related tokens.
  replace related := related.loosen
  induction size : left.length using Nat.strongRecOn generalizing left right with
  | ind length ih =>
    rw [many_apply item consuming left, many_apply item consuming right]
    have start := each related
    cases found : item left with
    | error fault =>
      rw [found] at start
      generalize item right = outcome' at start
      cases start with
      | refused => exact .refused
    | ok read =>
      obtain ⟨value, rest⟩ := read
      rw [found] at start
      generalize item right = outcome' at start
      cases start with
      | @read _ _ rest' behind =>
        cases value with
        | none => exact .read behind
        | some value =>
          have shorter := consuming _ _ _ found
          have loop := ih rest.length (by omega) behind rfl
          simp only
          generalize many item rest = others at loop
          generalize many item rest' = others' at loop
          cases loop with
          | read after => exact .read after
          | refused => exact .refused

theorem separated_alongside {item : Rule α} (shrinking : Shrinking item)
    (each : Alongside .fresh .loose item) : Alongside .fresh .loose (separated item) := by
  refine bind_alongside each fun first =>
    map_alongside (many_alongside (commaItem_consuming shrinking) ?_) _
  exact found_alongside rfl (map_alongside each some) (pure_alongside none)

theorem announced_alongside {item : Rule α} (word : Keyword)
    (alongside : Alongside .fresh .loose item) : Alongside before .loose (announced word item) :=
  found_alongside rfl (map_alongside alongside some) (pure_alongside none)

theorem bracketed_alongside {inner : Rule α} (alongside : Alongside .fresh .loose inner) :
    Alongside before .loose (bracketed inner) := by
  have opens : Alongside before .fresh (operator .openParen) := operator_alongside .openParen rfl
  have closes : Alongside .loose .loose (operator .closeParen) := operator_alongside .closeParen rfl
  exact bind_alongside opens fun _ => bind_alongside alongside fun value =>
    map_alongside closes fun _ => value

end Grammar

end VectorQuery
