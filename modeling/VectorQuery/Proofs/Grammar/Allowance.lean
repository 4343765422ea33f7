import VectorQuery.Proofs.Grammar.Agreement
import VectorQuery.Proofs.Grammar.Replay

/-! Levels are paid for with tokens. A rule opens a level behind a token that it takes, so it
meets its limit only where it has taken as many tokens as it may open levels. -/
namespace VectorQuery.Grammar

variable {α β : Type} {levels : Nat}

/-! Suffixes. A rule that keeps to every coupling leaves a rest of its tokens, and meets no
limit if it keeps to those under which no level may open. -/

/-- The same rest of some tokens on both sides. Levels may open if `deep` holds. -/
def suffixes (whole : List Token) (deep : Prop) : Coupling where
  tokens left right := left = right ∧ left <:+ whole
  heads token token' := token = token'
  levels fewer more := fewer = more ∧ deep
  faults fault _ := (∃ token, fault = .tooDeep token) → deep
  escapes _ := False
  alike := Token.alike_of_eq
  split := by
    rintro left _ ⟨rfl, within⟩
    cases left with
    | nil => exact .inl ⟨rfl, rfl⟩
    | cons token rest =>
      have behind := (List.suffix_cons token rest).trans within
      exact .inr ⟨token, token, rest, rest, rfl, rfl, rfl, fun _ => ⟨rfl, behind⟩⟩
  unexpected := by
    rintro token _ rfl ⟨_, absent⟩
    contradiction
  endOfInput := by
    rintro _ ⟨_, absent⟩
    contradiction
  tooDeep := fun related _ _ => related.2
  escape := by
    rintro levels' left right ⟨unequal, _⟩
    contradiction
  deeper := by
    rintro fewer _ ⟨rfl, deep⟩
    exact ⟨fewer, rfl, rfl, deep⟩

theorem taking_of_agree {rule : Rule α} (deep : Prop)
    (agree : ∀ whole, Agree (suffixes whole deep) rule rule) : Taking rule := by
  intro tokens value rest read
  have start : (suffixes tokens deep).tokens tokens tokens := ⟨rfl, List.suffix_refl tokens⟩
  have run := agree tokens start
  rw [read] at run
  cases run with
  | read behind => exact behind.2

theorem Taking.shrinking {rule : Rule α} (taking : Taking rule) : Shrinking rule :=
  fun _ _ _ read => (taking read).length_le

/-- The limit is met only where as many tokens were left at the start as levels may open. -/
structure Paying (levels : Nat) (rule : Rule α) : Prop where
  shrinking : Shrinking rule
  met : ∀ ⦃tokens token⦄, rule tokens = .error (.tooDeep token) → levels ≤ tokens.length

/-- A rule that opens no level never meets the limit. -/
theorem paying_of_agree {rule : Rule α} (agree : ∀ whole, Agree (suffixes whole False) rule rule) :
    Paying levels rule := by
  refine ⟨(taking_of_agree False agree).shrinking, fun tokens token failed => ?_⟩
  have start : (suffixes tokens False).tokens tokens tokens := ⟨rfl, List.suffix_refl tokens⟩
  have run := agree tokens start
  rw [failed] at run
  cases run with
  | fault met => exact (met ⟨token, rfl⟩).elim
  | escape escapes => exact escapes.elim

theorem Paying.fewer {rule : Rule α} (paying : Paying (levels + 1) rule) : Paying levels rule :=
  ⟨paying.shrinking, fun _ _ failed => Nat.le_of_succ_le (paying.met failed)⟩

/-! Single steps. -/

theorem pure_paying (value : α) : Paying levels (pure value) :=
  ⟨pure_shrinking value, nofun⟩

theorem tooDeep_paying : Paying 0 (tooDeep : Rule α) :=
  ⟨nofun, fun _ _ _ => Nat.zero_le _⟩

theorem refuse_paying : Paying levels (refuse : Rule α) :=
  paying_of_agree fun _ => refuse_agree

theorem take_ne_tooDeep {meaning : Token → Option α} {tokens : List Token} {token : Option Token} :
    take meaning tokens ≠ .error (.tooDeep token) := by
  cases tokens with
  | nil => nofun
  | cons head rest => cases meant : meaning head <;> simp [take, meant]

theorem take_paying (meaning : Token → Option α) : Paying levels (take meaning) :=
  ⟨(take_strict meaning).shrinking, fun _ _ failed => absurd failed take_ne_tooDeep⟩

theorem accept_paying (kind : TokenKind) : Paying levels (accept kind) := by
  refine ⟨accept_shrinking kind, fun tokens token failed => ?_⟩
  cases tokens with
  | nil => contradiction
  | cons head rest => by_cases same : head.kind = kind <;> simp [accept, same] at failed

/-! Steps one after another. -/

section
variable {rule : Rule α} {next : α → Rule β}

theorem bind_met {tokens : List Token} {token : Option Token}
    (failed : (rule >>= next) tokens = .error (.tooDeep token)) :
    rule tokens = .error (.tooDeep token) ∨
      ∃ value rest, rule tokens = .ok (value, rest) ∧ next value rest = .error (.tooDeep token) := by
  rw [bind_apply] at failed
  split at failed
  next value rest read => exact .inr ⟨value, rest, read, failed⟩
  next fault met =>
    obtain rfl := Except.error.inj failed
    exact .inl met

theorem bind_paying (first : Paying levels rule) (second : ∀ value, Paying levels (next value)) :
    Paying levels (rule >>= next) := by
  refine ⟨bind_shrinking first.shrinking fun value => (second value).shrinking, ?_⟩
  intro tokens token failed
  rcases bind_met failed with met | ⟨value, rest, read, met⟩
  · exact first.met met
  · exact Nat.le_trans ((second value).met met) (first.shrinking read)

/-- The token taken first pays for a level. -/
theorem opening_paying {meaning : Token → Option α} (second : ∀ value, Paying levels (next value)) :
    Paying (levels + 1) (take meaning >>= next) := by
  have strict := take_strict meaning
  refine ⟨bind_shrinking strict.shrinking fun value => (second value).shrinking, ?_⟩
  intro tokens token failed
  rcases bind_met failed with met | ⟨value, rest, read, met⟩
  · exact absurd met take_ne_tooDeep
  · exact Nat.lt_of_le_of_lt ((second value).met met) (strict read)

theorem map_paying (paying : Paying levels rule) (change : α → β) :
    Paying levels (rule >>= fun value => pure (change value)) :=
  bind_paying paying fun _ => pure_paying _

end

section
variable {yes no : Rule α} (first : Paying levels yes) (second : Paying levels no)
include first second

theorem choice_paying {found : Prop} [Decidable found] :
    Paying levels (if found then yes else no) := by
  split
  · exact first
  · exact second

theorem found_paying (kind : TokenKind) :
    Paying levels (accept kind >>= fun found => if found = true then yes else no) :=
  bind_paying (accept_paying kind) fun _ => choice_paying first second

end

/-- A step that looks ahead takes nothing and fails nowhere. -/
theorem looking_paying {look : Rule α} {see : List Token → α}
    (sees : ∀ tokens, look tokens = .ok (see tokens, tokens)) {next : α → Rule β}
    (each : ∀ value, Paying levels (next value)) : Paying levels (look >>= next) := by
  constructor
  · intro tokens value rest read
    rw [bind_of_ok (sees tokens)] at read
    exact (each _).shrinking read
  · intro tokens token failed
    rw [bind_of_ok (sees tokens)] at failed
    exact (each _).met failed

theorem peek_paying {next : Option TokenKind → Rule α}
    (each : ∀ kind, Paying levels (next kind)) : Paying levels (peek >>= next) :=
  looking_paying peek_apply each

theorem bracketed_paying {inner : Rule α} (paying : Paying levels inner) :
    Paying (levels + 1) (bracketed inner) :=
  opening_paying fun _ => bind_paying paying fun _ => bind_paying (take_paying _) fun _ =>
    pure_paying _

theorem announced_paying (word : Keyword) {item : Rule α} (paying : Paying levels item) :
    Paying levels (announced word item) :=
  found_paying (map_paying paying some) (pure_paying none) _

/-! Loops. -/

theorem many_paying {item : Rule (Option α)} (advancing : Advancing item)
    (paying : Paying levels item) : Paying levels (many item) := by
  have consuming := advancing.consuming
  refine ⟨many_shrinking advancing, fun tokens token failed => ?_⟩
  -- By the number of tokens: what is met behind an item is met with fewer of them left.
  induction size : tokens.length using Nat.strongRecOn generalizing tokens with
  | ind length ih =>
    rw [many_apply item consuming] at failed
    split at failed
    next fault found =>
      obtain rfl := Except.error.inj failed
      exact size ▸ paying.met found
    next => contradiction
    next value rest found =>
      have shorter := consuming _ _ _ found
      cases others : many item rest with
      | ok _ => simp [others, Except.map] at failed
      | error fault =>
        simp only [others, Except.map, Except.error.injEq] at failed
        have := ih rest.length (by omega) rest (failed ▸ others) rfl
        omega

theorem separated_paying {item : Rule α} (paying : Paying levels item) :
    Paying levels (separated item) := by
  have behind : Paying levels (commaItem item) :=
    found_paying (map_paying paying some) (pure_paying none) _
  have advancing : Advancing (commaItem item) :=
    ⟨behind.shrinking, commaItem_consuming paying.shrinking⟩
  exact bind_paying paying fun _ => map_paying (many_paying advancing behind) _

/-! Levels. -/

theorem paying_of_levels {rule : Nat → Rule α} (shallow : rule 0 = tooDeep)
    (deep : ∀ fewer, Paying (fewer + 1) (rule (fewer + 1))) (levels : Nat) :
    Paying levels (rule levels) := by
  cases levels with
  | zero =>
    rw [shallow]
    exact tooDeep_paying
  | succ fewer => exact deep fewer

/-! Literals. -/

theorem valueWith_paying {list : Rule (List Value)} {mapping : Rule Mapping}
    (lists : Paying levels list) (mappings : Paying levels mapping) :
    Paying levels (valueWith list mapping) := by
  refine peek_paying fun kind => ?_
  split
  · exact map_paying lists _
  · exact map_paying mappings _
  · exact take_paying _

section
variable {item : Rule Value} (paying : Paying levels item)
include paying

theorem listOf_paying : Paying (levels + 1) (listOf item) := by
  refine opening_paying fun _ => found_paying (pure_paying []) ?_ _
  refine bind_paying (separated_paying paying) fun items => ?_
  exact bind_paying (take_paying _) fun _ => pure_paying items

theorem mappingOf_paying : Paying (levels + 1) (mappingOf item) := by
  have one : Paying levels (entry item) := by
    refine bind_paying (accept_paying _) fun _ => found_paying (pure_paying none) ?_ _
    refine bind_paying (take_paying _) fun key => bind_paying (take_paying _) fun _ => ?_
    exact map_paying paying fun value => some (key, value)
  have advancing : Advancing (entry item) := ⟨one.shrinking, entry_consuming paying.shrinking⟩
  exact opening_paying fun _ => map_paying (many_paying advancing one) _

end

theorem value_paying (levels : Nat) : Paying levels (value levels) := by
  induction levels with
  | zero =>
    rw [value_eq]
    exact valueWith_paying tooDeep_paying tooDeep_paying
  | succ levels ih =>
    rw [value_eq]
    exact valueWith_paying (listOf_paying ih) (mappingOf_paying ih)

theorem list_paying (levels : Nat) : Paying levels (list levels) :=
  paying_of_levels rfl (fun fewer => listOf_paying (value_paying fewer)) levels

theorem mapping_paying (levels : Nat) : Paying levels (mapping levels) :=
  paying_of_levels rfl (fun fewer => mappingOf_paying (value_paying fewer)) levels

/-! Operands. -/

theorem path_paying : Paying levels path :=
  paying_of_agree fun _ => path_agree

section
variable {bracket : Rule Operand} (brackets : Paying levels bracket)
include brackets

theorem primary_paying : Paying levels (primary levels bracket) := by
  refine peek_paying fun kind => ?_
  split
  · exact brackets
  · exact map_paying (list_paying levels) _
  · exact bind_paying (take_paying _) fun _ => map_paying (bracketed_paying path_paying).fewer _
  · exact map_paying path_paying _
  · exact map_paying (take_paying _) _

theorem term_paying : Paying levels (term levels bracket) := by
  refine peek_paying fun kind => ?_
  cases kind.bind TokenKind.sign? with
  | some sign => exact bind_paying (take_paying _) fun _ => map_paying (primary_paying brackets) _
  | none => exact primary_paying brackets

end

theorem operation_paying {term : Rule Operand} (terms : Paying levels term) :
    Paying levels (operation term) := by
  refine looking_paying next?_apply fun following => ?_
  cases following with
  | none => exact pure_paying none
  | some token =>
    cases meaning : token.kind.arithmetic? with
    | some operation =>
      simp only [meaning]
      exact bind_paying (take_paying _) fun _ => map_paying terms _
    | none =>
      simp only [meaning]
      exact choice_paying (map_paying (take_paying _) _) (pure_paying none)

section
variable {bracket : Rule Operand} (brackets : Paying levels bracket)
include brackets

theorem continued_paying (first : Operand) : Paying levels (continued levels bracket first) := by
  have terms := term_paying brackets
  have steps := operation_paying terms
  exact map_paying (many_paying ⟨steps.shrinking, operation_consuming terms.shrinking⟩ steps) _

theorem operandWith_paying : Paying levels (operandWith levels bracket) :=
  bind_paying (term_paying brackets) fun first => continued_paying brackets first

end

theorem nestedOperand_paying (levels : Nat) : Paying levels (nestedOperand levels) := by
  induction levels with
  | zero => exact tooDeep_paying
  | succ levels ih => exact map_paying (bracketed_paying (operandWith_paying ih)) _

theorem operand_paying (levels : Nat) : Paying levels (operand levels) :=
  operandWith_paying (nestedOperand_paying levels)

/-! Filters. -/

theorem predicate_paying (levels : Nat) (target : Operand) :
    Paying levels (predicate levels target) := by
  have negation : Paying levels (accept (.keyword .not)) := accept_paying _
  refine peek_paying fun kind => ?_
  cases kind.bind TokenKind.comparator? with
  | some comparator =>
    exact bind_paying (take_paying _) fun _ => map_paying (operand_paying levels) _
  | none =>
    refine found_paying ?_ (bind_paying negation fun negated => found_paying ?_
      (found_paying ?_ (found_paying ?_ refuse_paying _) _) _) _
    · exact bind_paying negation fun _ => bind_paying (take_paying _) fun _ => pure_paying _
    · exact map_paying (take_paying _) _
    · exact bind_paying (operand_paying levels) fun low => bind_paying (take_paying _) fun _ =>
        map_paying (operand_paying levels) _
    · exact map_paying (list_paying levels) _

theorem containment_paying (levels : Nat) (function : Containment) :
    Paying levels (containment levels function) := by
  refine bind_paying (take_paying _) fun _ => (bracketed_paying ?_).fewer
  refine bind_paying path_paying fun target => found_paying ?_ (pure_paying _) _
  exact map_paying (value_paying levels) _

section
variable {nested : Rule Lead} (deeper : Paying levels nested)
include deeper

theorem leadWith_paying : Paying levels (leadWith levels nested) := by
  refine peek_paying fun kind => choice_paying (bind_paying deeper fun lead => ?_) ?_
  · cases lead with
    | condition condition => exact pure_paying _
    | operand first => exact map_paying (continued_paying (nestedOperand_paying levels) first) _
  · cases kind.bind TokenKind.containment? with
    | some function => exact map_paying (containment_paying levels function) _
    | none => exact map_paying (operand_paying levels) _

theorem unaryWith_paying : Paying levels (unaryWith levels nested) := by
  refine bind_paying (leadWith_paying deeper) fun lead => ?_
  cases lead with
  | condition condition => exact pure_paying _
  | operand target => exact predicate_paying levels target

end

theorem connected_paying {unary : Rule Condition} (paying : Paying levels unary)
    (first : Condition) : Paying levels (connected unary first) := by
  have steps : Paying levels (connective unary) :=
    found_paying (map_paying paying _) (found_paying (map_paying paying _) (pure_paying none) _) _
  exact map_paying (many_paying ⟨steps.shrinking, connective_consuming paying.shrinking⟩ steps) _

section
variable {nested : Rule Lead} (deeper : Paying levels nested)
include deeper

theorem heldWith_paying : Paying levels (heldWith levels nested) := by
  have joined (first : Condition) : Paying levels (connected (unaryWith levels nested) first) :=
    connected_paying (unaryWith_paying deeper) first
  refine bind_paying (leadWith_paying deeper) fun lead => ?_
  cases lead with
  | condition first => exact map_paying (joined first) _
  | operand target =>
    refine peek_paying fun kind => choice_paying (pure_paying _) ?_
    exact bind_paying (predicate_paying levels target) fun first => map_paying (joined first) _

theorem nestedWith_paying : Paying (levels + 1) (nestedWith levels nested) := by
  refine peek_paying fun kind => choice_paying ?_ ?_
  · exact opening_paying fun _ => map_paying (unaryWith_paying deeper) _
  · refine bind_paying (bracketed_paying (heldWith_paying deeper)) fun held => ?_
    cases held with
    | condition condition => exact pure_paying _
    | operand operand => exact pure_paying _

end

theorem nestedLead_paying (levels : Nat) : Paying levels (nestedLead levels) := by
  induction levels with
  | zero => exact tooDeep_paying
  | succ levels ih => exact nestedWith_paying ih

theorem conditions_paying (levels : Nat) : Paying levels (conditions levels) :=
  have unary := unaryWith_paying (nestedLead_paying levels)
  bind_paying unary fun first => connected_paying unary first

end VectorQuery.Grammar
