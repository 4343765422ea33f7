import VectorQuery.Proofs.Grammar.Yield
import VectorQuery.Proofs.Statement.Terminator

/-! What holds of everything a rule draws from the tokens of one statement. A rule works on a
rest of them and leaves a rest, so that steps compose as they do for what holds always. -/
namespace VectorQuery.Grammar

variable {α β : Type} {whole : List Token} {holds : α → Prop}

def Draws (whole : List Token) (rule : Rule α) (holds : α → Prop) : Prop :=
  ∀ ⦃tokens value rest⦄, tokens <:+ whole → rule tokens = .ok (value, rest) →
    rest <:+ whole ∧ holds value

/-- Behind this word, somewhere among the tokens, the rule reads the value. -/
def Announced (whole : List Token) (word : Keyword) (rule : Rule α) (value : α) : Prop :=
  ∃ token behind rest, token :: behind <:+ whole ∧ token.kind = .keyword word ∧
    rule behind = .ok (value, rest)

theorem draws_of_yields {rule : Rule α} (taking : Taking rule) (yields : Yields rule holds) :
    Draws whole rule holds :=
  fun _ _ _ within read => ⟨(taking read).trans within, yields read⟩

theorem draws_of_sound {rule : Rule α} {phrase : List Token → α → Prop} (sound : Sound rule phrase)
    (meant : ∀ {read value}, phrase read value → (∀ token ∈ read, token ∈ whole) → holds value) :
    Draws whole rule holds := by
  intro tokens value rest within read
  obtain ⟨taken, rfl, spelled⟩ := sound read
  refine ⟨(List.suffix_append taken rest).trans within, meant spelled fun token inside => ?_⟩
  exact within.subset (List.mem_append_left rest inside)

theorem Draws.weaken {rule : Rule α} {weaker : α → Prop} (draws : Draws whole rule holds)
    (weaken : ∀ {value}, holds value → weaker value) : Draws whole rule weaker :=
  fun _ _ _ within read => (draws within read).imp_right weaken

theorem Draws.both {rule : Rule α} {more : α → Prop} (draws : Draws whole rule holds)
    (yields : Yields rule more) : Draws whole rule fun value => holds value ∧ more value := by
  intro tokens value rest within read
  obtain ⟨later, held⟩ := draws within read
  exact ⟨later, held, yields read⟩

theorem pure_draws {value : α} (held : holds value) : Draws whole (pure value) holds :=
  draws_of_yields (pure_taking value) (pure_yields held)

theorem take_draws {meaning : Token → Option α}
    (meant : ∀ token ∈ whole, ∀ value, meaning token = some value → holds value) :
    Draws whole (take meaning) holds := by
  intro tokens value rest within read
  obtain ⟨token, rfl, means⟩ := take_ok_iff.mp read
  exact ⟨(List.suffix_cons token rest).trans within,
    meant token (within.subset List.mem_cons_self) value means⟩

theorem refuse_draws : Draws whole refuse holds := by
  intro tokens value rest _ read
  exact absurd read refuse_ne_ok

theorem bind_draws {rule : Rule α} {next : α → Rule β} {between : α → Prop} {holds : β → Prop}
    (first : Draws whole rule between) (second : ∀ value, between value → Draws whole (next value) holds) :
    Draws whole (rule >>= next) holds := by
  intro tokens value rest within read
  obtain ⟨middle, behind, started, finished⟩ := bind_ok_iff.mp read
  obtain ⟨later, held⟩ := first within started
  exact second middle held later finished

theorem map_draws {rule : Rule α} {change : α → β} {holds : β → Prop}
    (draws : Draws whole rule fun value => holds (change value)) :
    Draws whole (rule >>= fun value => pure (change value)) holds :=
  bind_draws draws fun _ held => pure_draws held

/-- A step whose value does not matter. -/
theorem then_draws {rule : Rule α} {next : α → Rule β} {holds : β → Prop} (taking : Taking rule)
    (second : ∀ value, Draws whole (next value) holds) : Draws whole (rule >>= next) holds :=
  bind_draws (draws_of_yields taking (yields_anything rule)) fun value _ => second value

theorem choice_draws {found : Prop} [Decidable found] {yes no : Rule α}
    (first : Draws whole yes holds) (second : Draws whole no holds) :
    Draws whole (if found then yes else no) holds := by
  split
  · exact first
  · exact second

theorem accept_draws {kind : TokenKind} {yes no : Rule α} (first : Draws whole yes holds)
    (second : Draws whole no holds) :
    Draws whole (accept kind >>= fun found => if found = true then yes else no) holds :=
  then_draws (accept_taking kind) fun _ => choice_draws first second

theorem bracketed_draws {inner : Rule α} (draws : Draws whole inner holds) :
    Draws whole (bracketed inner) holds := by
  refine then_draws (take_taking _) fun _ => bind_draws draws fun value held => ?_
  exact then_draws (take_taking _) fun _ => pure_draws held

/-! Looking at the tokens takes none. -/

theorem peek_taking : Taking peek := by
  intro tokens kind rest read
  rw [peek_apply] at read
  obtain ⟨-, rfl⟩ := Prod.mk.inj (Except.ok.inj read)
  exact List.suffix_refl tokens

theorem current_taking : Taking current := by
  rintro (_ | ⟨head, tail⟩) token rest read
  · contradiction
  · obtain ⟨-, rfl⟩ := Prod.mk.inj (Except.ok.inj read)
    exact List.suffix_refl _

/-! Repetitions and clauses. -/

/-- The number behind `LIMIT` or `OFFSET`, if there is one. -/
theorem bound_taking (word : Keyword) : Taking (announced word integer) :=
  taking_of_agree True fun _ => announced_agree _ integer_agree

theorem many_draws {item : Rule (Option α)} (consuming : Consuming item)
    (draws : Draws whole item fun found => ∀ value ∈ found, holds value) :
    Draws whole (many item) fun values => ∀ value ∈ values, holds value := by
  intro tokens values rest within read
  revert within
  refine many_induction consuming (motive := fun tokens values rest => tokens <:+ whole →
    rest <:+ whole ∧ ∀ value ∈ values, holds value) ?_ ?_ read
  · intro tokens rest found within
    exact ⟨(draws within found).1, by simp⟩
  · intro tokens value middle values rest found ih within
    obtain ⟨later, held⟩ := draws within found
    exact (ih later).imp_right fun others => List.forall_mem_cons.mpr ⟨held value rfl, others⟩

theorem separated_filled (item : Rule α) : Yields (separated item) (· ≠ []) :=
  then_yields fun _ => then_yields fun _ => pure_yields (by simp)

theorem separated_draws {item : Rule α} (shrinking : Shrinking item) (draws : Draws whole item holds) :
    Draws whole (separated item) fun values => ∀ value ∈ values, holds value := by
  intro tokens values rest within read
  revert within
  refine separated_induction shrinking (motive := fun tokens values rest => tokens <:+ whole →
    rest <:+ whole ∧ ∀ value ∈ values, holds value) ?_ ?_ read
  · intro tokens value rest taken _ within
    simpa using draws within taken
  · intro tokens value comma middle values rest taken _ ih within
    obtain ⟨later, held⟩ := draws within taken
    obtain ⟨last, others⟩ := ih ((List.suffix_cons comma middle).trans later)
    exact ⟨last, List.forall_mem_cons.mpr ⟨held, others⟩⟩

theorem clause_draws {word : Keyword} {rule : Rule α} (draws : Draws whole rule holds) :
    Draws whole (announced word rule) fun found => ∀ value ∈ found, holds value := by
  refine accept_draws (bind_draws draws fun value held => pure_draws ?_) (pure_draws (by simp))
  intro other same
  exact Option.some.inj same ▸ held

/-- A word and what it announces. -/
theorem keyword_draws {word : Keyword} {rule : Rule α} {next : α → Rule β} {holds : β → Prop}
    (taking : Taking rule)
    (second : ∀ value, Announced whole word rule value → Draws whole (next value) holds) :
    Draws whole (keyword word >>= fun _ => rule >>= next) holds := by
  intro tokens value rest within read
  simp only [keyword, bind_ok_iff, expect_ok_iff] at read
  obtain ⟨_, behind, ⟨token, rfl, named⟩, found, later, taken, finished⟩ := read
  have front := (List.suffix_cons token behind).trans within
  exact second found ⟨token, behind, later, within, named, taken⟩ ((taking taken).trans front) finished

theorem announced_draws {word : Keyword} {rule : Rule α} (taking : Taking rule) :
    Draws whole (announced word rule) fun found => ∀ value ∈ found, Announced whole word rule value := by
  intro tokens found rest within read
  rw [announced] at read
  simp only [↓accept_bind_ok_iff, bind_ok_iff, pure_ok_iff] at read
  rcases read with ⟨token, behind, rfl, named, value, later, taken, rfl, rfl⟩ | ⟨-, rfl, rfl⟩
  · refine ⟨(taking taken).trans ((List.suffix_cons token behind).trans within), ?_⟩
    intro other same
    obtain rfl := Option.some.inj same
    exact ⟨token, behind, _, within, named, taken⟩
  · exact ⟨within, by simp⟩

/-- What a statement draws from its tokens holds of its command. -/
theorem statement_draws {levels : Nat} {tokens rest : List Token} {read : Command}
    {holds : Command → Prop} (draws : Draws tokens (command levels) holds)
    (success : statement levels tokens = .ok (read, rest)) : holds read := by
  simp only [statement, bind_ok_iff, pure_ok_iff] at success
  obtain ⟨command, behind, started, _, _, _, _, _, _, rfl, _⟩ := success
  exact (draws (List.suffix_refl tokens) started).2

theorem readTokens_draws {limits : Limits} {tokens : List Token} {read : Command}
    {holds : Command → Prop} (draws : Draws tokens (command limits.maxDepth) holds)
    (success : limits.readTokens tokens = .ok read) : holds read := by
  unfold Limits.readTokens at success
  split at success
  next whole => exact Except.ok.inj success ▸ statement_draws draws whole
  next => contradiction

end VectorQuery.Grammar
