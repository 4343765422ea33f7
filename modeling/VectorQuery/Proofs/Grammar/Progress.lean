import VectorQuery.Grammar.Statement
import VectorQuery.Proofs.Grammar.Rule

/-! Rules take tokens and put none back. An item of a loop takes at least one, which is
what the loops of the grammar rest on. -/
namespace VectorQuery.Grammar

variable {α β : Type}

/-- A rule that succeeds has taken a token. -/
def Strict (rule : Rule α) : Prop :=
  ∀ ⦃tokens value rest⦄, rule tokens = .ok (value, rest) → rest.length < tokens.length

theorem Strict.shrinking {rule : Rule α} (strict : Strict rule) : Shrinking rule :=
  fun _ _ _ read => Nat.le_of_lt (strict read)

theorem take_strict (meaning : Token → Option α) : Strict (take meaning) := by
  intro tokens value rest read
  obtain ⟨token, rfl, -⟩ := take_ok_iff.mp read
  simp

section
variable {rule : Rule α} {next : α → Rule β}

theorem pure_shrinking (value : α) : Shrinking (pure value) := by
  intro tokens result rest read
  obtain ⟨-, rfl⟩ := pure_ok_iff.mp read
  exact Nat.le_refl _

theorem bind_shrinking (first : Shrinking rule) (second : ∀ value, Shrinking (next value)) :
    Shrinking (rule >>= next) := by
  intro tokens value rest read
  obtain ⟨middle, behind, start, finish⟩ := bind_ok_iff.mp read
  exact Nat.le_trans (second middle finish) (first start)

theorem bind_strict (first : Strict rule) (second : ∀ value, Shrinking (next value)) :
    Strict (rule >>= next) := by
  intro tokens value rest read
  obtain ⟨middle, behind, start, finish⟩ := bind_ok_iff.mp read
  exact Nat.lt_of_le_of_lt (second middle finish) (first start)

theorem choice_shrinking {found : Prop} [Decidable found] {yes no : Rule α}
    (first : Shrinking yes) (second : Shrinking no) : Shrinking (if found then yes else no) := by
  split
  · exact first
  · exact second

theorem accept_shrinking (kind : TokenKind) : Shrinking (accept kind) := by
  intro tokens found rest read
  rcases accept_ok_cases read with ⟨token, -, rfl, -⟩ | ⟨-, rfl, -⟩
  · simp
  · exact Nat.le_refl _

theorem peek_shrinking : Shrinking peek := by
  intro tokens value rest read
  obtain ⟨-, rfl⟩ := Prod.mk.inj (Except.ok.inj ((peek_apply tokens).symm.trans read))
  exact Nat.le_refl _

theorem refuseToken_shrinking (token : Token) : Shrinking (refuseToken (α := α) token) := by
  intro tokens value rest read
  contradiction

theorem bracketed_strict (shrinking : Shrinking rule) : Strict (bracketed rule) :=
  bind_strict (take_strict _) fun _ => bind_shrinking shrinking fun _ =>
    bind_shrinking (take_strict _).shrinking fun _ => pure_shrinking _

/-! Items of loops. -/

/-- A rule for one item puts no tokens back, and an item takes at least one. -/
structure Advancing (item : Rule (Option α)) : Prop where
  shrinking : Shrinking item
  consuming : Consuming item

theorem none_advancing : Advancing (pure none : Rule (Option α)) := by
  refine ⟨pure_shrinking none, fun tokens value rest read => ?_⟩
  obtain ⟨absent, -⟩ := pure_ok_iff.mp read
  contradiction

theorem Strict.advancing {item : Rule (Option α)} (strict : Strict item) : Advancing item :=
  ⟨strict.shrinking, fun _ _ _ read => strict read⟩

theorem bind_advancing {next : α → Rule (Option β)} (first : Shrinking rule)
    (second : ∀ value, Advancing (next value)) : Advancing (rule >>= next) := by
  refine ⟨bind_shrinking first fun value => (second value).shrinking, ?_⟩
  intro tokens value rest read
  obtain ⟨middle, behind, start, finish⟩ := bind_ok_iff.mp read
  exact Nat.lt_of_lt_of_le ((second middle).consuming _ _ _ finish) (first start)

theorem choice_advancing {found : Prop} [Decidable found] {yes no : Rule (Option α)}
    (first : Advancing yes) (second : Advancing no) :
    Advancing (if found then yes else no) := by
  split
  · exact first
  · exact second

/-- A rule that takes a token where it tells that it found one. -/
def Detecting (rule : Rule Bool) : Prop :=
  ∀ ⦃tokens found rest⦄, rule tokens = .ok (found, rest) →
    rest.length ≤ tokens.length ∧ (found = true → rest.length < tokens.length)

/-- Where a token was found, the rest of the item need not take another. -/
theorem detected_advancing {detect : Rule Bool} (detecting : Detecting detect)
    {yes no : Rule (Option α)} (first : Shrinking yes) (second : Advancing no) :
    Advancing (detect >>= fun found => if found = true then yes else no) := by
  refine ⟨bind_shrinking (fun _ _ _ read => (detecting read).1) fun _ =>
    choice_shrinking first second.shrinking, ?_⟩
  intro tokens value rest read
  obtain ⟨found, middle, start, finish⟩ := bind_ok_iff.mp read
  obtain ⟨kept, took⟩ := detecting start
  split at finish
  next present => exact Nat.lt_of_le_of_lt (first finish) (took present)
  next => exact Nat.lt_of_lt_of_le (second.consuming _ _ _ finish) kept

theorem accept_detecting (kind : TokenKind) : Detecting (accept kind) := by
  intro tokens found rest read
  rcases accept_ok_cases read with ⟨token, -, rfl, -⟩ | ⟨rfl, rfl, -⟩
  · simp
  · simp

theorem many_shrinking {item : Rule (Option α)} (advancing : Advancing item) :
    Shrinking (many item) := by
  intro tokens values rest read
  refine many_induction advancing.consuming
    (motive := fun tokens _ rest => rest.length ≤ tokens.length)
    (fun tokens rest found => advancing.shrinking found) ?_ read
  intro tokens value middle values rest found behind
  exact Nat.le_trans behind (advancing.shrinking found)

theorem separated_shrinking {item : Rule α} (shrinking : Shrinking item) :
    Shrinking (separated item) := by
  intro tokens values rest read
  refine separated_induction shrinking (motive := fun tokens _ rest => rest.length ≤ tokens.length)
    (fun tokens value rest taken _ => shrinking taken) ?_ read
  intro tokens value comma middle values rest taken _ behind
  have shorter := shrinking taken
  simp only [List.length_cons] at shorter
  omega

end

/-! The items of statements. -/

theorem identifier_strict : Strict identifier := take_strict _

theorem text_strict : Strict text := take_strict _

theorem integer_strict : Strict integer := take_strict _

theorem word_strict (expected : String) : Strict (word expected) := take_strict _

theorem size_strict : Strict size := bracketed_strict integer_strict.shrinking

theorem file_advancing : Advancing file := by
  refine detected_advancing (accept_detecting _) ?_ ?_
  · exact bind_shrinking text_strict.shrinking fun _ => pure_shrinking _
  · refine bind_advancing peek_shrinking fun _ => choice_advancing ?_ none_advancing
    exact (bind_strict text_strict fun _ => pure_shrinking _).advancing

theorem column_shrinking : Shrinking column := by
  refine bind_shrinking (accept_shrinking _) fun _ => choice_shrinking (pure_shrinking _) ?_
  refine bind_shrinking (accept_shrinking _) fun _ => choice_shrinking ?_ ?_
  · exact bind_shrinking (bracketed_strict (take_strict _).shrinking).shrinking fun _ =>
      pure_shrinking _
  · exact identifier_strict.shrinking

theorem row_shrinking {levels : Nat} (value : Shrinking (value levels)) (names : List String) :
    Shrinking (row levels names) :=
  bind_shrinking (bracketed_strict (separated_shrinking value)).shrinking fun _ =>
    pure_shrinking _

theorem peekContainer_shrinking : Shrinking peekContainer := by
  intro tokens value rest read
  obtain ⟨-, rfl⟩ := Prod.mk.inj (Except.ok.inj read)
  exact Nat.le_refl _

theorem fieldType_shrinking : Shrinking fieldType := by
  have sized (result : Int64 → FieldType) : Shrinking (size >>= fun number => pure (result number)) :=
    bind_shrinking size_strict.shrinking fun _ => pure_shrinking _
  refine bind_shrinking (take_strict _).shrinking fun name => ?_
  refine bind_shrinking peek_shrinking fun _ => choice_shrinking ?_ ?_
  · refine bind_shrinking size_strict.shrinking fun length => ?_
    refine bind_shrinking peekContainer_shrinking fun _ => choice_shrinking ?_ (pure_shrinking _)
    exact bind_shrinking (word_strict _).shrinking fun _ => sized _
  · refine bind_shrinking peekContainer_shrinking fun _ => choice_shrinking ?_ (pure_shrinking _)
    refine bind_shrinking (take_strict _).shrinking fun container => ?_
    refine bind_shrinking size_strict.shrinking fun number => ?_
    refine choice_shrinking (pure_shrinking _) (choice_shrinking (pure_shrinking _) ?_)
    exact refuseToken_shrinking container

theorem acceptWord_ok_cases {expected : String} {tokens rest : List Token} {found : Bool}
    (read : acceptWord expected tokens = .ok (found, rest)) :
    (∃ token, found = true ∧ tokens = token :: rest ∧ token.isWord expected = true) ∨
      found = false ∧ rest = tokens ∧ tokens.head?.any (·.isWord expected) = false := by
  rw [acceptWord, bind_of_ok (next?_apply tokens)] at read
  split at read
  next present =>
    obtain ⟨token, middle, taken, finish⟩ := bind_ok_iff.mp read
    obtain rfl := token_ok_iff.mp taken
    obtain ⟨rfl, rfl⟩ := pure_ok_iff.mp finish
    exact .inl ⟨token, rfl, rfl, by simpa using present⟩
  next absent =>
    obtain ⟨rfl, rfl⟩ := pure_ok_iff.mp read
    exact .inr ⟨rfl, rfl, by simpa using absent⟩

theorem acceptWord_detecting (expected : String) : Detecting (acceptWord expected) := by
  intro tokens found rest read
  rcases acceptWord_ok_cases read with ⟨token, -, rfl, -⟩ | ⟨rfl, rfl, -⟩
  · simp
  · simp

theorem fieldAttribute_advancing : Advancing fieldAttribute := by
  have keyed (found : FieldAttribute) :
      Shrinking (word "KEY" >>= fun _ => pure (some found)) :=
    bind_shrinking (word_strict _).shrinking fun _ => pure_shrinking _
  have detecting := acceptWord_detecting
  apply detected_advancing (detecting _) (keyed _)
  refine detected_advancing (detecting _) (keyed _) (detected_advancing (detecting _) ?_ ?_)
  · exact bind_shrinking (word_strict _).shrinking fun _ => pure_shrinking _
  apply detected_advancing (detecting _) (pure_shrinking _)
  refine detected_advancing (detecting _) ?_ none_advancing
  exact bind_shrinking (bracketed_strict text_strict.shrinking).shrinking fun _ => pure_shrinking _

theorem field_strict : Strict field := by
  refine bind_strict identifier_strict fun name => ?_
  refine bind_shrinking fieldType_shrinking fun type => ?_
  exact bind_shrinking (many_shrinking fieldAttribute_advancing) fun _ => pure_shrinking _

theorem nextField_advancing : Advancing nextField := by
  refine bind_advancing (accept_shrinking _) fun _ => ?_
  refine bind_advancing (accept_shrinking _) fun _ => choice_advancing none_advancing ?_
  exact (bind_strict field_strict fun _ => pure_shrinking _).advancing

end VectorQuery.Grammar
