import VectorQuery.Grammar.Rule

/-! What a rule that succeeds has read. Every lemma takes one step of a rule apart, in
both directions, so that proofs about a rule follow its text. -/
namespace VectorQuery.Grammar

variable {α β : Type} {tokens rest middle : List Token}

theorem bind_ok_iff {rule : Rule α} {next : α → Rule β} {value : β} :
    (rule >>= next) tokens = .ok (value, rest) ↔
      ∃ first middle, rule tokens = .ok (first, middle) ∧
        next first middle = .ok (value, rest) := by
  rw [bind_apply]
  constructor
  · intro success
    split at success
    next first middle read => exact ⟨first, middle, read, success⟩
    next => contradiction
  · rintro ⟨first, middle, read, success⟩
    rw [read]
    exact success

theorem bind_of_ok {rule : Rule α} {first : α} (read : rule tokens = .ok (first, middle))
    (next : α → Rule β) : (rule >>= next) tokens = next first middle := by
  rw [bind_apply, read]

theorem pure_ok_iff {value result : α} :
    (pure value : Rule α) tokens = .ok (result, rest) ↔ value = result ∧ tokens = rest := by
  rw [pure_apply, Except.ok.injEq, Prod.mk.injEq]

theorem map_ok_iff {rule : Rule α} {change : α → β} {result : β} :
    (rule >>= fun value => pure (change value)) tokens = .ok (result, rest) ↔
      ∃ value, rule tokens = .ok (value, rest) ∧ change value = result := by
  simp only [bind_ok_iff, pure_ok_iff]
  constructor
  · rintro ⟨value, middle, read, same, rfl⟩
    exact ⟨value, read, same⟩
  · rintro ⟨value, read, same⟩
    exact ⟨value, rest, read, same, rfl⟩

theorem bind_pure_apply (rule : Rule α) (change : α → β) (tokens : List Token) :
    (rule >>= fun value => pure (change value)) tokens =
      (rule tokens).map fun read => (change read.1, read.2) := by
  rw [bind_apply]
  cases rule tokens <;> rfl

theorem take_ok_iff {meaning : Token → Option α} {value : α} :
    take meaning tokens = .ok (value, rest) ↔
      ∃ token, tokens = token :: rest ∧ meaning token = some value := by
  cases tokens with
  | nil => simp [take]
  | cons head tail => cases meant : meaning head <;> grind [take]

theorem token_ok_iff {token : Token} :
    Grammar.token tokens = .ok (token, rest) ↔ tokens = token :: rest := by
  simp [Grammar.token, take_ok_iff]

theorem peek_apply (tokens : List Token) :
    peek tokens = .ok (tokens.head?.map Token.kind, tokens) := rfl

theorem next?_apply (tokens : List Token) : next? tokens = .ok (tokens.head?, tokens) := rfl

theorem refuse_ne_ok {value : α} : refuse tokens ≠ .ok (value, rest) := by
  cases tokens <;> simp [refuse]

theorem expect_ok_iff {kind : TokenKind} {done : Unit} :
    expect kind tokens = .ok (done, rest) ↔
      ∃ token, tokens = token :: rest ∧ token.kind = kind := by
  simp [expect, take_ok_iff]

theorem expect_cons {kind : TokenKind} {token : Token} (same : token.kind = kind)
    (rest : List Token) : expect kind (token :: rest) = .ok ((), rest) :=
  expect_ok_iff.mpr ⟨token, rfl, same⟩

/-- No token of this kind comes next. -/
def Lacks (kind : TokenKind) (tokens : List Token) : Prop :=
  tokens.head?.map Token.kind ≠ some kind

theorem lacks_cons {kind : TokenKind} {token : Token} (differs : token.kind ≠ kind)
    (rest : List Token) : Lacks kind (token :: rest) := by
  simpa [Lacks] using differs

theorem accept_of_lacks {kind : TokenKind} (lacks : Lacks kind tokens) :
    accept kind tokens = .ok (false, tokens) := by
  cases tokens with
  | nil => rfl
  | cons token tail => simp_all [accept, Lacks]

theorem accept_cons {kind : TokenKind} {token : Token} (same : token.kind = kind)
    (rest : List Token) : accept kind (token :: rest) = .ok (true, rest) := by
  simp [accept, same]

theorem accept_ok_cases {kind : TokenKind} {found : Bool}
    (read : accept kind tokens = .ok (found, rest)) :
    (∃ token, found = true ∧ tokens = token :: rest ∧ token.kind = kind) ∨
      found = false ∧ rest = tokens ∧ Lacks kind tokens := by
  cases tokens with
  | nil => simp_all [accept, Lacks]
  | cons token tail => grind [accept, Lacks]

theorem accept_bind_cons {kind : TokenKind} {yes no : Rule α} {token : Token}
    (same : token.kind = kind) (rest : List Token) :
    (accept kind >>= fun found => if found = true then yes else no) (token :: rest) = yes rest :=
  bind_of_ok (accept_cons same rest) _

theorem accept_bind_of_lacks {kind : TokenKind} {yes no : Rule α} (lacks : Lacks kind tokens) :
    (accept kind >>= fun found => if found = true then yes else no) tokens = no tokens :=
  bind_of_ok (accept_of_lacks lacks) _

theorem accept_bind_ok_iff {kind : TokenKind} {yes no : Rule α} {value : α} :
    (accept kind >>= fun found => if found = true then yes else no) tokens = .ok (value, rest) ↔
      (∃ token middle, tokens = token :: middle ∧ token.kind = kind ∧
        yes middle = .ok (value, rest)) ∨
      Lacks kind tokens ∧ no tokens = .ok (value, rest) := by
  constructor
  · intro success
    obtain ⟨found, middle, accepted, read⟩ := bind_ok_iff.mp success
    rcases accept_ok_cases accepted with ⟨token, rfl, rfl, same⟩ | ⟨rfl, rfl, lacks⟩
    · exact .inl ⟨token, middle, rfl, same, read⟩
    · exact .inr ⟨lacks, read⟩
  · rintro (⟨token, middle, rfl, same, read⟩ | ⟨lacks, read⟩)
    · rwa [accept_bind_cons same]
    · rwa [accept_bind_of_lacks lacks]

theorem identifier_ok_iff {name : String} :
    identifier tokens = .ok (name, rest) ↔
      ∃ token, tokens = token :: rest ∧ token.kind = .identifier ∧ token.text = name := by
  simp [identifier, take_ok_iff]

theorem text_ok_iff {content : String} :
    text tokens = .ok (content, rest) ↔
      ∃ token, tokens = token :: rest ∧ token.kind = .literal .text ∧ token.text = content := by
  simp [text, take_ok_iff]

theorem bracketed_ok_iff {inner : Rule α} {value : α} :
    bracketed inner tokens = .ok (value, rest) ↔
      ∃ opening closing middle, tokens = opening :: middle ∧
        opening.kind = .operator .openParen ∧ inner middle = .ok (value, closing :: rest) ∧
        closing.kind = .operator .closeParen := by
  simp only [bracketed, operator, bind_ok_iff, expect_ok_iff, pure_ok_iff]
  constructor
  · rintro ⟨_, _, ⟨opening, rfl, opens⟩, _, _, read, _, _, ⟨closing, rfl, closes⟩, rfl, rfl⟩
    exact ⟨opening, closing, _, rfl, opens, read, closes⟩
  · rintro ⟨opening, closing, middle, rfl, opens, read, closes⟩
    exact ⟨(), middle, ⟨opening, rfl, opens⟩, value, _, read, (), rest, ⟨closing, rfl, closes⟩, rfl, rfl⟩

/-! Loops. Items that take tokens are read one after another until there is none. -/

/-- A rule never puts tokens back. -/
def Shrinking (rule : Rule α) : Prop :=
  ∀ ⦃tokens value rest⦄, rule tokens = .ok (value, rest) → rest.length ≤ tokens.length

/-- What holds of every item, and of the end, holds of a whole loop. -/
theorem many_induction {item : Rule (Option α)} (consuming : Consuming item)
    {motive : List Token → List α → List Token → Prop}
    (done : ∀ tokens rest, item tokens = .ok (none, rest) → motive tokens [] rest)
    (more : ∀ tokens value middle values rest, item tokens = .ok (some value, middle) →
      motive middle values rest → motive tokens (value :: values) rest)
    {values : List α} (read : many item tokens = .ok (values, rest)) :
    motive tokens values rest := by
  induction size : tokens.length using Nat.strongRecOn generalizing tokens values with
  | ind length ih =>
    rw [many_apply item consuming] at read
    split at read
    next => contradiction
    next next found =>
      obtain ⟨rfl, rfl⟩ := Prod.mk.inj (Except.ok.inj read)
      exact done _ _ found
    next value middle found =>
      cases others : many item middle with
      | error fault => simp [others, Except.map] at read
      | ok result =>
        simp only [others, Except.map, Except.ok.injEq, Prod.mk.injEq] at read
        obtain ⟨rfl, rfl⟩ := read
        have shorter := consuming _ _ _ found
        exact more _ _ _ _ _ found (ih _ (by omega) others rfl)

theorem many_of_none {item : Rule (Option α)} (consuming : Consuming item)
    (found : item tokens = .ok (none, rest)) : many item tokens = .ok ([], rest) := by
  rw [many_apply item consuming, found]

theorem many_of_some {item : Rule (Option α)} (consuming : Consuming item) {value : α}
    (found : item tokens = .ok (some value, middle)) :
    many item tokens = (many item middle).map fun read => (value :: read.1, read.2) := by
  rw [many_apply item consuming, found]

/-- What follows an item: a comma and an item, or nothing. -/
def commaItem (item : Rule α) : Rule (Option α) := do
  if ← accept (.separator .comma) then return some (← item) else return none

theorem commaItem_ok_cases {item : Rule α} {tokens rest : List Token} {found : Option α}
    (read : commaItem item tokens = .ok (found, rest)) :
    (∃ comma middle value, found = some value ∧ tokens = comma :: middle ∧
      comma.kind = .separator .comma ∧ item middle = .ok (value, rest)) ∨
    found = none ∧ rest = tokens ∧ Lacks (.separator .comma) tokens := by
  rw [commaItem] at read
  simp only [↓accept_bind_ok_iff, bind_ok_iff, pure_ok_iff] at read
  rcases read with ⟨token, middle, rfl, separates, value, after, taken, rfl, rfl⟩ | ⟨lacks, rfl, rfl⟩
  · exact .inl ⟨token, middle, value, rfl, rfl, separates, taken⟩
  · exact .inr ⟨rfl, rfl, lacks⟩

theorem commaItem_consuming {item : Rule α} (shrinking : Shrinking item) :
    Consuming (commaItem item) := by
  intro tokens value rest read
  rcases commaItem_ok_cases read with ⟨comma, middle, _, _, rfl, _, taken⟩ | ⟨absent, _⟩
  · have := shrinking taken
    simp only [List.length_cons]
    omega
  · contradiction

/-- What holds of an item alone, and of an item before others, holds of items between
commas. -/
theorem separated_induction {item : Rule α} (shrinking : Shrinking item)
    {motive : List Token → List α → List Token → Prop}
    (one : ∀ tokens value rest, item tokens = .ok (value, rest) →
      Lacks (.separator .comma) rest → motive tokens [value] rest)
    (more : ∀ tokens value comma middle values rest, item tokens = .ok (value, comma :: middle) →
      comma.kind = .separator .comma → motive middle values rest →
      motive tokens (value :: values) rest)
    {tokens rest : List Token} {values : List α}
    (read : separated item tokens = .ok (values, rest)) : motive tokens values rest := by
  simp only [separated, bind_ok_iff, pure_ok_iff] at read
  obtain ⟨first, middle, start, others, after, loop, rfl, rfl⟩ := read
  -- The loop stands behind an item; that item is what the motive needs beside it.
  refine many_induction (commaItem_consuming shrinking) (motive := fun middle others rest =>
    ∀ tokens first, item tokens = .ok (first, middle) → motive tokens (first :: others) rest)
    ?_ ?_ loop tokens first start
  · intro middle rest found tokens first start
    rcases commaItem_ok_cases found with ⟨_, _, _, present, _⟩ | ⟨_, rfl, lacks⟩
    · contradiction
    · exact one tokens first rest start lacks
  · intro middle value after values rest found ih tokens first start
    rcases commaItem_ok_cases found with ⟨comma, later, _, present, rfl, separates, taken⟩ | ⟨absent, _⟩
    · obtain rfl := Option.some.inj present
      exact more tokens first comma later _ rest start separates (ih later value taken)
    · contradiction

theorem separated_of_lacks {item : Rule α} (shrinking : Shrinking item) {tokens rest : List Token}
    {value : α} (read : item tokens = .ok (value, rest)) (lacks : Lacks (.separator .comma) rest) :
    separated item tokens = .ok ([value], rest) := by
  have stops : commaItem item rest = .ok (none, rest) := by
    rw [commaItem, accept_bind_of_lacks lacks, pure_apply]
  have loop := many_of_none (commaItem_consuming shrinking) stops
  exact (bind_of_ok read _).trans (bind_of_ok loop _)

theorem separated_cons {item : Rule α} (shrinking : Shrinking item)
    {tokens middle rest : List Token} {comma : Token} {value : α} {values : List α}
    (read : item tokens = .ok (value, comma :: middle)) (separates : comma.kind = .separator .comma)
    (others : separated item middle = .ok (values, rest)) :
    separated item tokens = .ok (value :: values, rest) := by
  simp only [separated, bind_ok_iff, pure_ok_iff] at others
  obtain ⟨second, after, taken, later, last, loop, rfl, rfl⟩ := others
  have found : commaItem item (comma :: middle) = .ok (some second, after) := by
    rw [commaItem, accept_bind_cons separates, bind_of_ok taken, pure_apply]
  have whole : many (commaItem item) (comma :: middle) = .ok (second :: later, last) := by
    have behind : many (commaItem item) after = .ok (later, last) := loop
    rw [many_of_some (commaItem_consuming shrinking) found, behind]
    rfl
  exact (bind_of_ok read _).trans (bind_of_ok whole _)

/-! Soundness. -/

/-- A rule that succeeds has read a phrase. -/
def Sound (rule : Rule α) (phrase : List Token → α → Prop) : Prop :=
  ∀ ⦃tokens value rest⦄, rule tokens = .ok (value, rest) →
    ∃ read, tokens = read ++ rest ∧ phrase read value

theorem Sound.shrinking {rule : Rule α} {phrase : List Token → α → Prop}
    (sound : Sound rule phrase) : Shrinking rule := by
  intro tokens value rest read
  obtain ⟨taken, rfl, _⟩ := sound read
  simp

theorem tooDeep_sound (phrase : List Token → α → Prop) : Sound tooDeep phrase := by
  intro tokens value rest read
  contradiction

end VectorQuery.Grammar
