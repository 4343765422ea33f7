import VectorQuery.Proofs.Grammar.Condition
import VectorQuery.Proofs.Grammar.Opening

/-! Literals, operands and conditions keep to the scan over their tokens. A rule that may open
so many levels starts where as many are left, and ends in the same place; behind a condition,
levels of `NOT` may still be open. -/
namespace VectorQuery.Grammar

variable {α β : Type} {limit levels : Nat} {place : Place}

/-! Places, with what the last token may be. -/

/-- An operand or a value may start here. -/
def isFresh (last : Option TokenKind) : Bool :=
  !last.any TokenKind.isFunction && !last.any TokenKind.endsSegment

/-- A condition may start here. -/
def isLead (last : Option TokenKind) : Bool :=
  last.any TokenKind.startsCondition

/-- A path may go on here. -/
def isStep (last : Option TokenKind) : Bool :=
  last.any TokenKind.endsSegment

/-- An operand may end here: a `NOT` that follows belongs to what is said of it. -/
def isEnded (last : Option TokenKind) : Bool :=
  !last.any TokenKind.startsCondition

def At (place : Place) (fit : Option TokenKind → Bool) : Assertion :=
  fun cursor _ => cursor.place = place ∧ fit cursor.last = true

def anything : Option TokenKind → Bool := fun _ => true

def Somewhere (place : Place) : Assertion :=
  At place anything

/-- In this place, with any number of open levels. -/
def Near (place : Place) : Assertion :=
  fun cursor _ => ∃ levels, cursor.place = place.withLevels levels

section
variable {fit fit' : Option TokenKind → Bool} {cursor : Cursor} {tokens : List Token}

theorem At.weaken (held : At place fit cursor tokens)
    (weaker : ∀ last, fit last = true → fit' last = true) : At place fit' cursor tokens :=
  ⟨held.1, weaker _ held.2⟩

theorem At.somewhere (held : At place fit cursor tokens) : Somewhere place cursor tokens :=
  ⟨held.1, rfl⟩

theorem At.near (held : At place fit cursor tokens) : Near place cursor tokens :=
  ⟨place.frame.levels, held.1⟩

theorem At.after (held : At place fit cursor tokens) {token : Token} {rest : List Token}
    {place' : Place}
    (moves : ∀ last, fit last = true → place.step last token.kind = place')
    (fits : fit' (some token.kind) = true) : At place' fit' (cursor.after token) rest := by
  obtain ⟨rfl, fitting⟩ := held
  exact ⟨moves _ fitting, fits⟩

theorem At.plain (held : At place fit cursor tokens) {token : Token} {rest : List Token}
    (plain : token.kind.isPlain = true) (fits : fit' (some token.kind) = true) :
    At place fit' (cursor.after token) rest :=
  held.after (fun last _ => place.step_of_isPlain last plain) fits

/-- All levels are open, and the next token opens one more. -/
theorem At.blamed {token : Token} {rest : List Token} (held : At place fit cursor (token :: rest))
    (full : place.frame.levels = limit) (opens : token.kind.opensLevel = true)
    (deeper : ∀ last, fit last = true →
      (place.step last token.kind).frame.levels = place.frame.levels + 1) :
    Blamed limit cursor (token :: rest) := by
  obtain ⟨rfl, fits⟩ := held
  refine ⟨full, .inl ⟨token, rest, rfl, opens, ?_⟩⟩
  rw [Cursor.levels, Cursor.after, deeper _ fits, full]

theorem isFresh_of_isLead {last : Option TokenKind} (lead : isLead last = true) :
    isFresh last = true := by
  unfold isLead at lead
  cases last with
  | none => contradiction
  | some kind =>
    rw [Option.any_some] at lead
    unfold TokenKind.startsCondition at lead
    split at lead <;> first
      | rfl
      | contradiction

end

/-! Single tokens. -/

section
variable {fit fit' : Option TokenKind → Bool}

theorem take_tracks {meaning : Token → Option α}
    (plain : ∀ {token value}, meaning token = some value →
      token.kind.isPlain = true ∧ fit' (some token.kind) = true) :
    Tracks limit (At place fit) (take meaning) fun _ => At place fit' :=
  tracks_take fun held meant => held.plain (plain meant).1 (plain meant).2

theorem expect_tracks {kind : TokenKind} {place' : Place}
    (moves : ∀ last, fit last = true → place.step last kind = place')
    (fits : fit' (some kind) = true) :
    Tracks limit (At place fit) (expect kind) fun _ => At place' fit' :=
  tracks_expect fun held same => held.after (same ▸ moves) (same ▸ fits)

variable (fit')

theorem accept_tracks {kind : TokenKind} {yes no : Rule α} {behind : α → Assertion}
    (plain : kind.isPlain = true) (fits : fit' (some kind) = true)
    (first : Tracks limit (At place fit') yes behind)
    (second : Tracks limit (At place fit) no behind) :
    Tracks limit (At place fit) (accept kind >>= fun found => if found = true then yes else no)
      behind :=
  tracks_accept (fun held same => held.plain (same ▸ plain) (same ▸ fits)) first second

theorem plain_tracks {kind : TokenKind} (plain : kind.isPlain = true) (fits : fit' (some kind) = true) :
    Tracks limit (At place fit) (expect kind) fun _ => At place fit' :=
  expect_tracks (fun last _ => place.step_of_isPlain last plain) fits

theorem identifier_tracks (fits : fit' (some .identifier) = true) :
    Tracks limit (At place fit) identifier fun _ => At place fit' := by
  refine take_tracks fun meant => ?_
  rw [(Option.ite_none_right_eq_some.mp meant).1]
  exact ⟨rfl, fits⟩

theorem text_tracks (fits : fit' (some (.literal .text)) = true) :
    Tracks limit (At place fit) text fun _ => At place fit' := by
  refine take_tracks fun meant => ?_
  rw [(Option.ite_none_right_eq_some.mp meant).1]
  exact ⟨rfl, fits⟩

theorem integer_tracks (fits : fit' (some (.literal .integer)) = true) :
    Tracks limit (At place fit) integer fun _ => At place fit' := by
  refine take_tracks fun meant => ?_
  rw [(Option.ite_none_right_eq_some.mp meant).1]
  exact ⟨rfl, fits⟩

theorem literal_tracks (fits : ∀ form, fit' (some (.literal form)) = true) :
    Tracks limit (At place fit) literal fun _ => At place fit' := by
  refine take_tracks fun meant => ?_
  obtain ⟨form, kind⟩ := literal?_kind meant
  rw [kind]
  exact ⟨rfl, fits form⟩

theorem comma_tracks : Tracks limit (Somewhere place) comma fun _ => Somewhere place := by
  have found : Tracks limit (Somewhere place) comma fun found =>
      if found = true then Somewhere place else Somewhere place :=
    tracks_found fun held kind => held.plain (kind ▸ rfl) rfl
  simpa only [ite_self] using found

variable {fit'}

/-- A closing bracket leads back to the place in front of the opening one. -/
theorem Near.leave {counted : Bool} {cursor : Cursor} {tokens rest : List Token} {token : Token}
    (near : Near (place.enter counted) cursor tokens)
    (closes : token.kind = .operator .closeParen ∨ token.kind = .operator .closeBracket ∨
      token.kind = .operator .closeBrace)
    (fits : fit' (some token.kind) = true) : At place fit' (cursor.after token) rest := by
  obtain ⟨levels, same⟩ := near
  refine ⟨?_, fits⟩
  rw [Cursor.after, same]
  rcases closes with kind | kind | kind <;> rw [kind] <;> rfl

/-- What stands in round brackets is read one bracket further in. -/
theorem bracketed_tracks {inner : Rule α} (within : Option TokenKind → Bool) (counted : Bool)
    (opens : ∀ last, fit last = true → (place.filtered && !last.any TokenKind.isFunction) = counted)
    (starts : within (some (.operator .openParen)) = true)
    (tracks : Tracks limit (At (place.enter counted) within) inner fun _ =>
      Near (place.enter counted)) (fits : fit' (some (.operator .closeParen)) = true) :
    Tracks limit (At place fit) (bracketed inner) fun _ => At place fit' := by
  have enters (last : Option TokenKind) (fitting : fit last = true) :
      place.step last (.operator .openParen) = place.enter counted := by
    rw [Place.step, opens last fitting]
  have closing : Tracks limit (Near (place.enter counted)) (operator .closeParen) fun _ =>
      At place fit' := tracks_expect fun near kind => near.leave (.inl kind) (kind ▸ fits)
  exact tracks_bind (expect_tracks enters starts) fun _ => tracks_bind tracks fun _ =>
    tracks_bind closing fun _ => tracks_pure fun held => held

end

/-! Literals. -/

/-- A bracket comes next or has to follow, where it opens a level. -/
def Opens (place : Place) (symbol : Operator) : Assertion := fun cursor tokens =>
  At place isFresh cursor tokens ∧
    (tokens.head?.map Token.kind = some (.operator symbol) ∨ cursor.wantsBracket = true)

theorem step_openBracket {last : Option TokenKind} (fresh : isFresh last = true) :
    place.step last (.operator .openBracket) = place.enter true := by
  rw [Place.step, (Bool.and_eq_true_iff.mp fresh).2]

theorem step_openParen {last : Option TokenKind} (filtered : place.filtered = true)
    (fresh : isFresh last = true) : place.step last (.operator .openParen) = place.enter true := by
  rw [Place.step, filtered, (Bool.and_eq_true_iff.mp fresh).1]
  rfl

theorem tooDeep_tracks {symbol : Operator} {behind : α → Assertion}
    (opens : (TokenKind.operator symbol).opensLevel = true)
    (enters : ∀ last, isFresh last = true → place.step last (.operator symbol) = place.enter true)
    (full : place.frame.levels + 0 = limit) : Tracks limit (Opens place symbol) tooDeep behind := by
  refine tracks_tooDeep fun {cursor tokens} held => ?_
  obtain ⟨fresh, comes | wanted⟩ := held
  · obtain ⟨token, front, kind⟩ := Option.map_eq_some_iff.mp comes
    obtain ⟨rest, rfl⟩ := List.head?_eq_some_iff.mp front
    exact fresh.blamed full (kind ▸ opens) fun last fits => by rw [kind, enters last fits]; rfl
  · exact ⟨by rw [Cursor.levels, fresh.1]; exact full, .inr wanted⟩

theorem valueWith_tracks {list : Rule (List Value)} {mapping : Rule Mapping}
    (lists : Tracks limit (Opens place .openBracket) list fun _ => Somewhere place)
    (mappings : Tracks limit (Opens place .openBrace) mapping fun _ => Somewhere place) :
    Tracks limit (At place isFresh) (valueWith list mapping) fun _ => Somewhere place := by
  refine tracks_bind tracks_peek fun kind => ?_
  split
  · exact tracks_map (lists.narrow fun held => ⟨held.1, .inl held.2.symm⟩)
  · exact tracks_map (mappings.narrow fun held => ⟨held.1, .inl held.2.symm⟩)
  · exact (literal_tracks anything fun _ => rfl).narrow fun held => held.1

theorem listOf_tracks {item : Rule Value}
    (tracks : Tracks limit (At (place.enter true) isFresh) item fun _ =>
      Somewhere (place.enter true)) :
    Tracks limit (Opens place .openBracket) (listOf item) fun _ =>
      At place (· == some (.operator .closeBracket)) := by
  have opening : Tracks limit (Opens place .openBracket) (operator .openBracket) fun _ =>
      At (place.enter true) isFresh :=
    (expect_tracks (fun _ => step_openBracket) rfl).narrow fun held => held.1
  have closed {cursor : Cursor} {token : Token} {rest rest' : List Token}
      (near : Near (place.enter true) cursor rest) (kind : token.kind = .operator .closeBracket) :
      At place (· == some (.operator .closeBracket)) (cursor.after token) rest' :=
    near.leave (.inr (.inl kind)) (by simp [kind])
  refine tracks_bind opening fun _ => ?_
  refine tracks_accept (fun held kind => closed held.near kind) (tracks_pure fun held => held) ?_
  refine tracks_bind (tracks_separated tracks ?_) fun items => ?_
  · intro cursor token rest held kind
    exact held.plain (kind ▸ rfl) (kind ▸ rfl)
  · exact tracks_bind (tracks_expect fun held kind => closed held.near kind) fun _ =>
      tracks_pure fun held => held

theorem entry_tracks {item : Rule Value}
    (tracks : Tracks limit (At (place.enter true) isFresh) item fun _ =>
      Somewhere (place.enter true)) :
    Tracks limit (Somewhere (place.enter true)) (entry item) fun found =>
      if found.isSome then Somewhere (place.enter true) else Somewhere place := by
  have closed {cursor : Cursor} {token : Token} {rest : List Token}
      (held : Somewhere (place.enter true) cursor (token :: rest))
      (kind : token.kind = .operator .closeBrace) : Somewhere place (cursor.after token) rest :=
    held.near.leave (.inr (.inr kind)) rfl
  refine tracks_bind comma_tracks fun _ => ?_
  refine tracks_accept closed (tracks_pure fun held => held) ?_
  refine tracks_bind (text_tracks anything rfl) fun key => ?_
  exact tracks_bind (plain_tracks isFresh rfl rfl) fun _ => tracks_map tracks

theorem mappingOf_tracks {item : Rule Value} (consuming : Consuming (entry item))
    (tracks : Tracks limit (At (place.enter true) isFresh) item fun _ =>
      Somewhere (place.enter true)) :
    Tracks limit (Opens place .openBrace) (mappingOf item) fun _ => Somewhere place := by
  have opening : Tracks limit (Opens place .openBrace) (operator .openBrace) fun _ =>
      Somewhere (place.enter true) :=
    (expect_tracks (fun _ _ => rfl) rfl).narrow fun held => held.1
  exact tracks_bind opening fun _ => tracks_map (tracks_many_closed consuming (entry_tracks tracks))

/-- A value opens no more levels than it may: one in each bracket. -/
theorem value_tracks (full : place.frame.levels + levels = limit) :
    Tracks limit (At place isFresh) (value levels) fun _ => Somewhere place := by
  -- One level less may open behind a bracket, and the place there has one more open.
  induction levels generalizing place with
  | zero =>
    exact valueWith_tracks (tooDeep_tracks rfl (fun _ => step_openBracket) full)
      (tooDeep_tracks rfl (fun _ _ => rfl) full)
  | succ levels ih =>
    have inner := @ih (place.enter true) (by
      change place.frame.levels + 1 + levels = limit
      omega)
    have consuming := entry_consuming (value_sound levels).shrinking
    exact valueWith_tracks ((listOf_tracks inner).widen At.somewhere)
      (mappingOf_tracks consuming inner)

theorem list_tracks (full : place.frame.levels + levels = limit) :
    Tracks limit (Opens place .openBracket) (list levels) fun _ =>
      At place (· == some (.operator .closeBracket)) := by
  cases levels with
  | zero => exact tooDeep_tracks rfl (fun _ => step_openBracket) full
  | succ levels =>
    refine listOf_tracks (value_tracks ?_)
    change place.frame.levels + 1 + levels = limit
    omega

theorem mapping_tracks (full : place.frame.levels + levels = limit) :
    Tracks limit (Opens place .openBrace) (mapping levels) fun _ => Somewhere place := by
  cases levels with
  | zero => exact tooDeep_tracks rfl (fun _ _ => rfl) full
  | succ levels =>
    refine mappingOf_tracks (entry_consuming (value_sound levels).shrinking) (value_tracks ?_)
    change place.frame.levels + 1 + levels = limit
    omega

/-! Operands. -/

theorem segment_tracks : Tracks limit (At place isStep) segment fun _ => At place isStep := by
  have subscripted (last : Option TokenKind) (stepping : isStep last = true) :
      place.step last (.operator .openBracket) = place.enter false := by
    have stepping : last.any TokenKind.endsSegment = true := stepping
    rw [Place.step, stepping]
    rfl
  have part : Tracks limit (Somewhere (place.enter false)) subscript fun _ =>
      Somewhere (place.enter false) := by
    refine take_tracks fun meant => ?_
    split at meant
    next kind => exact ⟨kind ▸ rfl, rfl⟩
    next kind => exact ⟨kind ▸ rfl, rfl⟩
    next => contradiction
  refine tracks_accept (fun held kind => held.after (kind ▸ subscripted) rfl)
    (tracks_bind part fun _ => ?_) ?_
  · refine tracks_bind (tracks_expect fun held kind => ?_) fun _ => tracks_pure fun held => held
    exact held.near.leave (.inr (.inl kind)) (kind ▸ rfl)
  · refine accept_tracks anything rfl rfl ?_ (tracks_pure fun held => held)
    exact tracks_map (identifier_tracks isStep rfl)

theorem path_tracks {fit : Option TokenKind → Bool} :
    Tracks limit (At place fit) path fun _ => At place isStep :=
  tracks_bind (identifier_tracks isStep rfl) fun _ => tracks_map (tracks_many segment_tracks)

theorem isEnded_of_isStep {last : Option TokenKind} (step : isStep last = true) :
    isEnded last = true := by
  unfold isStep at step
  cases last with
  | none => rfl
  | some kind =>
    rw [Option.any_some] at step
    unfold TokenKind.endsSegment at step
    split at step <;> first
      | rfl
      | contradiction

/-- A token is taken that was seen to mean something. -/
theorem seen_tracks {meaning : TokenKind → Option α} {fit fit' : Option TokenKind → Bool}
    (plain : ∀ {kind value}, meaning kind = some value →
      kind.isPlain = true ∧ fit' (some kind) = true)
    {found : Option TokenKind} {value : α} (known : found.bind meaning = some value) :
    Tracks limit (fun cursor tokens => At place fit cursor tokens ∧
      found = tokens.head?.map Token.kind) token fun _ => At place fit' := by
  refine tracks_token fun held => ?_
  obtain ⟨held, rfl⟩ := held
  exact held.plain (plain known).1 (plain known).2

/-! Behind an operator, an operand starts. -/

theorem sign_plain {kind : TokenKind} {sign : Sign} (known : kind.sign? = some sign) :
    kind.isPlain = true ∧ isFresh (some kind) = true := by
  unfold TokenKind.sign? at known
  split at known <;> first
    | exact ⟨rfl, rfl⟩
    | contradiction

theorem arithmetic_plain {kind : TokenKind} {arithmetic : Arithmetic}
    (known : kind.arithmetic? = some arithmetic) :
    kind.isPlain = true ∧ isFresh (some kind) = true := by
  unfold TokenKind.arithmetic? at known
  split at known <;> first
    | exact ⟨rfl, rfl⟩
    | contradiction

theorem comparator_plain {kind : TokenKind} {comparator : Comparator}
    (known : kind.comparator? = some comparator) :
    kind.isPlain = true ∧ isFresh (some kind) = true := by
  unfold TokenKind.comparator? at known
  split at known <;> first
    | exact ⟨rfl, rfl⟩
    | contradiction

section
variable {bracket : Rule Operand}
  (brackets : Tracks limit (Opens place .openParen) bracket fun _ => At place isEnded)
  (full : place.frame.levels + levels = limit)
include brackets full

theorem primary_tracks : Tracks limit (At place isFresh) (primary levels bracket) fun _ =>
    At place isEnded := by
  have length : Tracks limit (At place isFresh) (keyword .arrayLength) fun _ =>
      At place (· == some (.keyword .arrayLength)) := plain_tracks _ rfl rfl
  refine tracks_bind tracks_peek fun kind => ?_
  split
  · exact brackets.narrow fun held => ⟨held.1, .inl held.2.symm⟩
  · refine Tracks.narrow (tracks_map ((list_tracks full).widen fun held => ?_)) fun held =>
      ⟨held.1, .inl held.2.symm⟩
    exact held.weaken fun last closed => eq_of_beq closed ▸ rfl
  · refine tracks_bind (length.narrow fun held => held.1) fun _ => tracks_map ?_
    refine bracketed_tracks anything false (fun last function => ?_) rfl
      (path_tracks.widen At.near) rfl
    rw [eq_of_beq function]
    exact Bool.and_false _
  · refine Tracks.narrow (tracks_map (path_tracks.widen fun held => ?_)) fun held => held.1
    exact held.weaken fun _ => isEnded_of_isStep
  · exact tracks_map ((literal_tracks isEnded fun _ => rfl).narrow fun held => held.1)

theorem term_tracks : Tracks limit (At place isFresh) (term levels bracket) fun _ =>
    At place isEnded := by
  have primaries := primary_tracks brackets full
  refine tracks_bind tracks_peek fun kind => ?_
  split
  next sign known => exact tracks_bind (seen_tracks sign_plain known) fun _ => tracks_map primaries
  next => exact primaries.narrow fun held => held.1

omit brackets full in
theorem operation_tracks {term : Rule Operand}
    (terms : Tracks limit (At place isFresh) term fun _ => At place isEnded) :
    Tracks limit (At place isEnded) (operation term) fun _ => At place isEnded := by
  have glued : Tracks limit (At place isEnded) gluedLiteral fun _ => At place isEnded := by
    refine take_tracks fun {token value} meant => ?_
    obtain ⟨form, kind⟩ := literal?_kind meant
    -- Without its sign, the token is of the same kind.
    have same : token.kind = .literal form := kind
    rw [same]
    exact ⟨rfl, rfl⟩
  refine tracks_bind tracks_next? fun found => ?_
  split
  next => exact tracks_pure fun held => held.1
  next following =>
    split
    next arithmetic known =>
      have known : (some following.kind).bind TokenKind.arithmetic? = some arithmetic := known
      have seen : Tracks limit (fun cursor tokens =>
          At place isEnded cursor tokens ∧ some following = tokens.head?) token
          fun _ => At place isFresh := (seen_tracks arithmetic_plain known).narrow fun held =>
        ⟨held.1, congrArg (Option.map Token.kind) held.2⟩
      exact tracks_bind seen fun _ => tracks_map terms
    next =>
      refine tracks_choice (fun _ => ?_) fun _ => tracks_pure fun held => held.1
      exact tracks_map (glued.narrow fun held => held.1)

theorem continued_tracks (first : Operand) :
    Tracks limit (At place isEnded) (continued levels bracket first) fun _ => At place isEnded :=
  tracks_map (tracks_many (operation_tracks (term_tracks brackets full)))

theorem operandWith_tracks :
    Tracks limit (At place isFresh) (operandWith levels bracket) fun _ => At place isEnded :=
  tracks_bind (term_tracks brackets full) (continued_tracks brackets full)

end

theorem nestedOperand_tracks (filtered : place.filtered = true)
    (full : place.frame.levels + levels = limit) :
    Tracks limit (Opens place .openParen) (nestedOperand levels) fun _ => At place isEnded := by
  induction levels generalizing place with
  | zero => exact tooDeep_tracks rfl (fun _ => step_openParen filtered) full
  | succ levels ih =>
    have deeper : (place.enter true).frame.levels + levels = limit := by
      change place.frame.levels + 1 + levels = limit
      omega
    have inner := operandWith_tracks (@ih (place.enter true) filtered deeper) deeper
    have whole : Tracks limit (At place isFresh) (bracketed (operandWith levels (nestedOperand levels)))
        fun _ => At place isEnded := by
      refine bracketed_tracks isFresh true (fun last fresh => ?_) rfl
        (inner.widen At.near) rfl
      rw [filtered, (Bool.and_eq_true_iff.mp fresh).1]
      rfl
    exact tracks_map (whole.narrow fun held => held.1)

theorem operand_tracks (filtered : place.filtered = true)
    (full : place.frame.levels + levels = limit) :
    Tracks limit (At place isFresh) (operand levels) fun _ => At place isEnded :=
  operandWith_tracks (nestedOperand_tracks filtered full) full

theorem operations_tracks (filtered : place.filtered = true)
    (full : place.frame.levels + levels = limit) (first : Operand) :
    Tracks limit (At place isEnded) (operations levels first) fun _ => At place isEnded :=
  continued_tracks (nestedOperand_tracks filtered full) full first

end VectorQuery.Grammar
