import VectorQuery.Grammar.Filter
import VectorQuery.Proofs.Grammar.Rule

/-! How many levels are open behind some tokens. A scan over the tokens tells, without any
rule of the grammar: round brackets open a level in a filter unless they belong to a function,
square ones unless they are a subscript, and braces always; `NOT` opens one in front of a
condition, which lasts until a connective or the bracket around it. Rules that keep to the
scan blame only a token that would open one level too many. -/
namespace VectorQuery

namespace TokenKind

/-- The bracket behind it holds what a function is applied to. -/
def isFunction : TokenKind → Bool
  | .keyword .arrayLength => true
  | kind => kind.containment?.isSome

/-- Behind it, a square bracket is a subscript. -/
def endsSegment : TokenKind → Bool
  | .identifier | .operator .closeBracket => true
  | _ => false

/-- Behind it, `NOT` denies a condition. -/
def startsCondition : TokenKind → Bool
  | .keyword .where | .keyword .and | .keyword .or | .keyword .not | .operator .openParen => true
  | _ => false

def opensLevel : TokenKind → Bool
  | .operator .openParen | .operator .openBracket | .operator .openBrace | .keyword .not => true
  | _ => false

/-- It opens, closes and ends nothing, wherever it stands. -/
def isPlain : TokenKind → Bool
  | .operator .openParen | .operator .openBracket | .operator .openBrace => false
  | .operator .closeParen | .operator .closeBracket | .operator .closeBrace => false
  | .keyword .where | .keyword .with | .keyword .not => false
  | .keyword .between | .keyword .and | .keyword .or => false
  | _ => true

end TokenKind

/-- What is open within the innermost bracket: the levels, those of them that were open behind
the bracket, and whether a range still waits for its `AND`. -/
structure Frame where
  levels : Nat
  base : Nat
  ranging : Bool
deriving DecidableEq

structure Place where
  frame : Frame
  outer : List Frame
  filtered : Bool
deriving DecidableEq

namespace Place

def start : Place := ⟨⟨0, 0, false⟩, [], false⟩

def enter (place : Place) (counted : Bool) : Place :=
  let levels := place.frame.levels + counted.toNat
  { place with frame := ⟨levels, levels, false⟩, outer := place.frame :: place.outer }

def leave (place : Place) : Place :=
  match place.outer with
  | [] => place
  | frame :: outer => { place with frame, outer }

def withLevels (place : Place) (levels : Nat) : Place :=
  { place with frame := { place.frame with levels } }

def withRange (place : Place) (ranging : Bool) : Place :=
  { place with frame := { place.frame with ranging } }

/-- The levels that `NOT` has opened within the innermost bracket end. -/
def settle (place : Place) : Place :=
  place.withLevels place.frame.base

/-- A token of this kind comes next, behind one of the other kind. -/
def step (place : Place) (last : Option TokenKind) : TokenKind → Place
  | .operator .openParen => place.enter (place.filtered && !last.any TokenKind.isFunction)
  | .operator .openBracket => place.enter (!last.any TokenKind.endsSegment)
  | .operator .openBrace => place.enter true
  | .operator .closeParen | .operator .closeBracket | .operator .closeBrace => place.leave
  | .keyword .where => if place.outer.isEmpty then { place with filtered := true } else place
  | .keyword .not =>
    if place.filtered && last.any TokenKind.startsCondition then
      place.withLevels (place.frame.levels + 1)
    else place
  | .keyword .between => if place.filtered then place.withRange true else place
  | .keyword .and => if place.frame.ranging then place.withRange false else place.settle
  | .keyword .or | .keyword .with => place.settle
  | _ => place

theorem step_of_isPlain (place : Place) (last : Option TokenKind) {kind : TokenKind}
    (plain : kind.isPlain = true) : place.step last kind = place := by
  unfold step
  split <;> first
    | contradiction
    | rfl

end Place

/-- A place behind some tokens, with the kind of the last of them. -/
structure Cursor where
  place : Place
  last : Option TokenKind
deriving DecidableEq

namespace Cursor

def start : Cursor := ⟨.start, none⟩

def after (cursor : Cursor) (token : Token) : Cursor :=
  ⟨cursor.place.step cursor.last token.kind, some token.kind⟩

def afterAll (cursor : Cursor) (tokens : List Token) : Cursor :=
  tokens.foldl after cursor

theorem afterAll_append (cursor : Cursor) (tokens others : List Token) :
    cursor.afterAll (tokens ++ others) = (cursor.afterAll tokens).afterAll others :=
  List.foldl_append

def levels (cursor : Cursor) : Nat :=
  cursor.place.frame.levels

/-- A list or an object has to follow: behind `IN`, behind `WITH` and behind the arrow of a
search, the `>` of which stands in no filter. -/
def wantsBracket (cursor : Cursor) : Bool :=
  match cursor.last with
  | some (.keyword .in) | some (.keyword .with) => true
  | some (.operator .greater) => !cursor.place.filtered
  | _ => false

end Cursor

/-- The levels that are open behind these tokens. -/
def openLevels (tokens : List Token) : Nat :=
  (Cursor.start.afterAll tokens).levels

namespace Grammar

variable {α β : Type}

/-- All levels are open, and either the next token opens one more or a list or an object has
to follow. -/
structure Blamed (limit : Nat) (cursor : Cursor) (behind : List Token) : Prop where
  full : cursor.levels = limit
  opens : (∃ token rest, behind = token :: rest ∧ token.kind.opensLevel = true ∧
      (cursor.after token).levels = limit + 1) ∨ cursor.wantsBracket = true

abbrev Assertion := Cursor → List Token → Prop

/-- What comes of some tokens behind a cursor: a value with what holds behind the tokens read
for it, or a fault. Where the limit is met, the token is blamed in front of which all levels
are open. -/
inductive Outcome (limit : Nat) (behind : α → Assertion) (cursor : Cursor) :
    List Token → Except Fault (α × List Token) → Prop
  | read {value : α} (front rest : List Token) : behind value (cursor.afterAll front) rest →
      Outcome limit behind cursor (front ++ rest) (.ok (value, rest))
  | deep (front rest : List Token) : Blamed limit (cursor.afterAll front) rest →
      Outcome limit behind cursor (front ++ rest) (.error (.tooDeep rest.head?))
  | unexpected (tokens : List Token) (token : Token) :
      Outcome limit behind cursor tokens (.error (.unexpected token))
  | endOfInput (tokens : List Token) : Outcome limit behind cursor tokens (.error .endOfInput)

/-- From every cursor and tokens that satisfy the one assertion, the rule gets to such as
satisfy the other, if it gets to an end. -/
def Tracks (limit : Nat) (before : Assertion) (rule : Rule α) (behind : α → Assertion) : Prop :=
  ∀ ⦃cursor tokens⦄, before cursor tokens → Outcome limit behind cursor tokens (rule tokens)

theorem Outcome.prepend {limit : Nat} {behind : α → Assertion} {cursor : Cursor} (front : List Token)
    {tokens : List Token} {result : Except Fault (α × List Token)}
    (outcome : Outcome limit behind (cursor.afterAll front) tokens result) :
    Outcome limit behind cursor (front ++ tokens) result := by
  cases outcome with
  | read middle rest held =>
    rw [← List.append_assoc]
    exact .read _ rest (by rwa [Cursor.afterAll_append])
  | deep middle rest blamed =>
    rw [← List.append_assoc]
    exact .deep _ rest (by rwa [Cursor.afterAll_append])
  | unexpected _ token => exact .unexpected _ token
  | endOfInput => exact .endOfInput _

theorem Outcome.map {limit : Nat} {behind : β → Assertion} {cursor : Cursor} {tokens : List Token}
    (change : α → β) {result : Except Fault (α × List Token)}
    (outcome : Outcome limit (fun value => behind (change value)) cursor tokens result) :
    Outcome limit behind cursor tokens (result.map fun read => (change read.1, read.2)) := by
  cases outcome with
  | read front rest held => exact .read front rest held
  | deep front rest blamed => exact .deep front rest blamed
  | unexpected _ token => exact .unexpected _ token
  | endOfInput => exact .endOfInput _

section
variable {limit : Nat} {before weaker : Assertion} {rule : Rule α} {behind : α → Assertion}

theorem Tracks.narrow (tracks : Tracks limit weaker rule behind)
    (narrower : ∀ {cursor tokens}, before cursor tokens → weaker cursor tokens) :
    Tracks limit before rule behind :=
  fun _ _ held => tracks (narrower held)

theorem Tracks.widen {stronger : α → Assertion} (tracks : Tracks limit before rule stronger)
    (wider : ∀ {value cursor tokens}, stronger value cursor tokens → behind value cursor tokens) :
    Tracks limit before rule behind := by
  intro cursor tokens held
  have run := tracks held
  generalize rule tokens = result at run
  cases run with
  | read front rest reached => exact .read front rest (wider reached)
  | deep front rest blamed => exact .deep front rest blamed
  | unexpected _ token => exact .unexpected _ token
  | endOfInput => exact .endOfInput _

theorem tracks_pure {value : α} (held : ∀ {cursor tokens}, before cursor tokens →
    behind value cursor tokens) : Tracks limit before (pure value) behind :=
  fun _ tokens start => .read [] tokens (held start)

theorem tracks_bind {next : α → Rule β} {middle : α → Assertion} {behind : β → Assertion}
    (first : Tracks limit before rule middle)
    (second : ∀ value, Tracks limit (middle value) (next value) behind) :
    Tracks limit before (rule >>= next) behind := by
  intro cursor tokens held
  have run := first held
  rw [bind_apply]
  generalize rule tokens = result at run
  cases run with
  | read front rest reached => exact (second _ reached).prepend front
  | deep front rest blamed => exact .deep front rest blamed
  | unexpected _ token => exact .unexpected _ token
  | endOfInput => exact .endOfInput _

theorem tracks_map {change : α → β} {behind : β → Assertion}
    (tracks : Tracks limit before rule fun value => behind (change value)) :
    Tracks limit before (rule >>= fun value => pure (change value)) behind := by
  intro cursor tokens held
  rw [bind_pure_apply]
  exact (tracks held).map change

theorem tracks_tooDeep
    (blamed : ∀ {cursor tokens}, before cursor tokens → Blamed limit cursor tokens) :
    Tracks limit before (tooDeep : Rule α) behind :=
  fun _ tokens held => .deep [] tokens (blamed held)

theorem tracks_refuse : Tracks limit before (refuse : Rule α) behind := by
  intro cursor tokens _
  cases tokens with
  | nil => exact .endOfInput []
  | cons token rest => exact .unexpected _ token

theorem tracks_refuseToken (token : Token) :
    Tracks limit before (refuseToken token : Rule α) behind :=
  fun _ _ _ => .unexpected _ token

theorem tracks_take {meaning : Token → Option α}
    (step : ∀ {cursor token rest value}, before cursor (token :: rest) →
      meaning token = some value → behind value (cursor.after token) rest) :
    Tracks limit before (take meaning) behind := by
  intro cursor tokens held
  cases tokens with
  | nil => exact .endOfInput []
  | cons token rest =>
    simp only [take]
    cases meant : meaning token with
    | none => exact .unexpected _ token
    | some value => exact .read [token] rest (step held meant)

theorem tracks_token {behind : Token → Assertion}
    (step : ∀ {cursor token rest}, before cursor (token :: rest) →
      behind token (cursor.after token) rest) : Tracks limit before token behind :=
  tracks_take fun held same => Option.some.inj same ▸ step held

theorem tracks_expect {kind : TokenKind} {behind : Unit → Assertion}
    (step : ∀ {cursor token rest}, before cursor (token :: rest) → token.kind = kind →
      behind () (cursor.after token) rest) : Tracks limit before (expect kind) behind :=
  tracks_take fun held same => step held (Option.ite_none_right_eq_some.mp same).1

theorem tracks_choice {found : Prop} [Decidable found] {yes no : Rule α}
    (first : found → Tracks limit before yes behind)
    (second : ¬found → Tracks limit before no behind) :
    Tracks limit before (if found then yes else no) behind := by
  split
  next held => exact first held
  next absent => exact second absent

theorem tracks_found {kind : TokenKind} {middle : Assertion}
    (step : ∀ {cursor token rest}, before cursor (token :: rest) → token.kind = kind →
      middle (cursor.after token) rest) :
    Tracks limit before (accept kind) fun found => if found = true then middle else before := by
  intro cursor tokens held
  cases tokens with
  | nil => exact .read [] [] held
  | cons token rest =>
    by_cases same : token.kind = kind
    · rw [accept_cons same]
      exact .read [token] rest (step held same)
    · rw [accept_of_lacks (lacks_cons same rest)]
      exact .read [] (token :: rest) held

theorem tracks_accept {kind : TokenKind} {yes no : Rule α} {middle : Assertion}
    (step : ∀ {cursor token rest}, before cursor (token :: rest) → token.kind = kind →
      middle (cursor.after token) rest)
    (first : Tracks limit middle yes behind) (second : Tracks limit before no behind) :
    Tracks limit before (accept kind >>= fun found => if found = true then yes else no) behind := by
  refine tracks_bind (tracks_found step) fun found => ?_
  cases found with
  | true => simpa using first
  | false => simpa using second

theorem tracks_peek : Tracks limit before peek fun kind cursor tokens =>
    before cursor tokens ∧ kind = tokens.head?.map Token.kind :=
  fun _ tokens held => .read [] tokens ⟨held, rfl⟩

theorem tracks_next? : Tracks limit before next? fun found cursor tokens =>
    before cursor tokens ∧ found = tokens.head? :=
  fun _ tokens held => .read [] tokens ⟨held, rfl⟩

theorem tracks_current : Tracks limit before current fun _ => before := by
  intro cursor tokens held
  cases tokens with
  | nil => exact .endOfInput []
  | cons token rest => exact .read [] (token :: rest) held

/-! Loops. -/

/-- A loop keeps what each of its items keeps. -/
theorem tracks_many {item : Rule (Option α)} (tracks : Tracks limit before item fun _ => before) :
    Tracks limit before (many item) fun _ => before := by
  have collects (left : Nat) (items : List α) :
      Tracks limit before (collect item left items) fun _ => before := by
    induction left generalizing items with
    | zero => exact tracks_pure fun held => held
    | succ left ih =>
      refine tracks_bind tracks fun found => ?_
      cases found with
      | none => exact tracks_pure fun held => held
      | some value => exact ih (value :: items)
  intro cursor tokens held
  exact collects (tokens.length + 1) [] held

/-- A loop whose end takes a token as well. -/
theorem tracks_many_closed {item : Rule (Option α)} (consuming : Consuming item) {after : Assertion}
    (tracks : Tracks limit before item fun found => if found.isSome then before else after) :
    Tracks limit before (many item) fun _ => after := by
  -- Every item that is found takes a token, so fewer are left for the next round.
  intro cursor tokens held
  induction size : tokens.length using Nat.strongRecOn generalizing cursor tokens with
  | ind length ih =>
    have run := tracks held
    rw [many_apply item consuming]
    cases found : item tokens with
    | error fault =>
      rw [found] at run
      cases run with
      | deep front rest blamed => exact .deep front rest blamed
      | unexpected _ token => exact .unexpected _ token
      | endOfInput => exact .endOfInput _
    | ok result =>
      obtain ⟨_ | value, rest⟩ := result
      · rw [found] at run
        cases run with
        | read front rest reached => exact .read front rest reached
      · have shorter := consuming _ _ _ found
        rw [found] at run
        cases run with
        | read front rest reached =>
          have later := ih rest.length (by omega) reached rfl
          exact (later.map (value :: ·)).prepend front

theorem tracks_separated {item : Rule α} {after : Assertion}
    (tracks : Tracks limit before item fun _ => after)
    (again : ∀ {cursor token rest}, after cursor (token :: rest) →
      token.kind = .separator .comma → before (cursor.after token) rest) :
    Tracks limit before (separated item) fun _ => after := by
  refine tracks_bind tracks fun first => tracks_map (tracks_many ?_)
  exact tracks_accept again (tracks_map tracks) (tracks_pure fun held => held)

theorem tracks_announced {word : Keyword} {item : Rule α} {middle : Assertion}
    {behind : Option α → Assertion}
    (step : ∀ {cursor token rest}, before cursor (token :: rest) → token.kind = .keyword word →
      middle (cursor.after token) rest)
    (tracks : Tracks limit middle item fun value => behind (some value))
    (absent : ∀ {cursor tokens}, before cursor tokens → behind none cursor tokens) :
    Tracks limit before (announced word item) behind :=
  tracks_accept step (tracks_map tracks) (tracks_pure absent)

end

end Grammar

end VectorQuery
