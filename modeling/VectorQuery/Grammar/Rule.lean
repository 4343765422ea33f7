import VectorQuery.Token

/-! Rules of the statement grammar. A rule reads tokens from the front of a list and
leaves the rest, or says which token it cannot read. -/
namespace VectorQuery.Grammar

/-- Why the tokens match no rule. -/
inductive Fault where
  | unexpected (token : Token)
  | endOfInput
  | tooDeep (token : Option Token)
deriving DecidableEq, Repr

abbrev Rule (α : Type) := StateT (List Token) (Except Fault) α

def refuse {α : Type} : Rule α := fun tokens =>
  match tokens with
  | [] => .error .endOfInput
  | token :: _ => .error (.unexpected token)

def tooDeep {α : Type} : Rule α := fun tokens =>
  .error (.tooDeep tokens.head?)

def refuseToken {α : Type} (token : Token) : Rule α := fun _ =>
  .error (.unexpected token)

/-- Reads one token if it has a meaning here. -/
def take {α : Type} (meaning : Token → Option α) : Rule α := fun tokens =>
  match tokens with
  | [] => .error .endOfInput
  | token :: rest =>
    match meaning token with
    | some value => .ok (value, rest)
    | none => .error (.unexpected token)

def token : Rule Token :=
  take some

def next? : Rule (Option Token) := fun tokens =>
  .ok (tokens.head?, tokens)

/-- The kind of the next token, which stays unread. -/
def peek : Rule (Option TokenKind) := do
  return (← next?).map Token.kind

def current : Rule Token := fun tokens =>
  match tokens with
  | [] => .error .endOfInput
  | token :: rest => .ok (token, token :: rest)

def expect (kind : TokenKind) : Rule Unit :=
  take fun token => if token.kind = kind then some () else none

def keyword (keyword : Keyword) : Rule Unit :=
  expect (.keyword keyword)

def operator (operator : Operator) : Rule Unit :=
  expect (.operator operator)

/-- Reads the next token if it is of this kind, and tells whether it was. -/
def accept (kind : TokenKind) : Rule Bool := fun tokens =>
  match tokens with
  | [] => .ok (false, [])
  | token :: rest => if token.kind = kind then .ok (true, rest) else .ok (false, token :: rest)

def comma : Rule Bool :=
  accept (.separator .comma)

/-- Reads items until there is none, behind those already read and at most as many as
the number says. -/
def collect {α : Type} (item : Rule (Option α)) : Nat → List α → Rule (List α)
  | 0, items => pure items.reverse
  | left + 1, items => do
    match ← item with
    | none => pure items.reverse
    | some value => collect item left (value :: items)

/-- Reads items until there is none. Every item takes at least one token, so the
number of tokens bounds the number of items. -/
def many {α : Type} (item : Rule (Option α)) : Rule (List α) := fun tokens =>
  collect item (tokens.length + 1) [] tokens

theorem pure_apply {α : Type} (value : α) (tokens : List Token) :
    (pure value : Rule α) tokens = .ok (value, tokens) := rfl

theorem bind_apply {α β : Type} (rule : Rule α) (next : α → Rule β) (tokens : List Token) :
    (rule >>= next) tokens = match rule tokens with
      | .ok (value, rest) => next value rest
      | .error fault => .error fault := by
  change StateT.bind rule next tokens = _
  unfold StateT.bind
  cases rule tokens <;> rfl

/-- Every item takes at least one token. -/
def Consuming {α : Type} (item : Rule (Option α)) : Prop :=
  ∀ tokens value rest, item tokens = .ok (some value, rest) → rest.length < tokens.length

private theorem collect_behind {α : Type} (item : Rule (Option α)) (left : Nat)
    (items : List α) (tokens : List Token) :
    collect item left items tokens =
      (collect item left [] tokens).map fun read => (items.reverse ++ read.1, read.2) := by
  induction left generalizing items tokens with
  | zero => simp [collect, pure_apply, Except.map]
  | succ left ih =>
    simp only [collect, bind_apply]
    cases item tokens with
    | error fault => rfl
    | ok read =>
      obtain ⟨found, rest⟩ := read
      cases found with
      | none => simp [pure_apply, Except.map]
      | some value =>
        simp only
        rw [ih (value :: items), ih [value]]
        cases collect item left [] rest <;> simp [Except.map]

private theorem collect_enough {α : Type} (item : Rule (Option α)) (consuming : Consuming item)
    (left left' : Nat) (tokens : List Token)
    (enough : tokens.length < left) (enough' : tokens.length < left') :
    collect item left [] tokens = collect item left' [] tokens := by
  induction left generalizing left' tokens with
  | zero => omega
  | succ left ih =>
    obtain ⟨left', rfl⟩ : ∃ fewer, left' = fewer + 1 := ⟨left' - 1, by omega⟩
    simp only [collect, bind_apply]
    cases found : item tokens with
    | error fault => rfl
    | ok read =>
      obtain ⟨value, rest⟩ := read
      cases value with
      | none => rfl
      | some value =>
        have shorter := consuming _ _ _ found
        simp only
        rw [collect_behind item left, collect_behind item left',
          ih left' rest (by omega) (by omega)]

/-- The bound on the number of items is never met. -/
theorem many_apply {α : Type} (item : Rule (Option α)) (consuming : Consuming item)
    (tokens : List Token) :
    many item tokens = match item tokens with
      | .error fault => .error fault
      | .ok (none, rest) => .ok ([], rest)
      | .ok (some value, rest) => (many item rest).map fun read => (value :: read.1, read.2) := by
  unfold many
  rw [collect]
  simp only [bind_apply]
  cases found : item tokens with
  | error fault => rfl
  | ok read =>
    obtain ⟨value, rest⟩ := read
    cases value with
    | none => rfl
    | some value =>
      have shorter := consuming _ _ _ found
      simp only
      rw [collect_behind, collect_enough item consuming _ (rest.length + 1) rest
        (by omega) (by omega)]
      rfl

def separated {α : Type} (item : Rule α) : Rule (List α) := do
  let first ← item
  let others ← many do
    if ← comma then return some (← item) else return none
  return first :: others

def announced {α : Type} (word : Keyword) (item : Rule α) : Rule (Option α) := do
  if ← accept (.keyword word) then return some (← item) else return none

def identifier : Rule String :=
  take fun token => if token.kind = .identifier then some token.text else none

def text : Rule String :=
  take fun token => if token.kind = .literal .text then some token.text else none

def integer : Rule Int64 :=
  take fun token =>
    if token.kind = .literal .integer then readInteger? token.text.toList else none

def bracketed {α : Type} (inner : Rule α) : Rule α := do
  operator .openParen
  let value ← inner
  operator .closeParen
  return value

end VectorQuery.Grammar
