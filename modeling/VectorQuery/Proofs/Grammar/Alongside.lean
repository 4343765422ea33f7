import VectorQuery.Proofs.Grammar.Condition
import VectorQuery.Proofs.Grammar.Separated

/-! The rules up to filters make the same of a number with its sign and of the two apart. Values
and operands start where no operand has ended, so there they meet the same token. Only an
operation may meet the number on one side and the minus on the other, and it takes a difference
from both. -/
namespace VectorQuery.Grammar

variable {α : Type} {before after : Stage} {levels : Nat}

/-! Single tokens. -/

theorem kinded_alongside (kind : TokenKind) (steady : kind.isSteady = true)
    (read : Token → Option α) :
    Alongside before .loose (take fun token => if token.kind = kind then read token else none) := by
  refine take_alongside fun token unsteady => if_neg ?_
  rintro rfl
  rw [steady] at unsteady
  contradiction

theorem identifier_alongside : Alongside before .loose identifier :=
  kinded_alongside .identifier rfl fun token => some token.text

theorem text_alongside : Alongside before .loose text :=
  kinded_alongside (.literal .text) rfl fun token => some token.text

theorem comma_alongside : Alongside before .loose comma :=
  accept_alongside rfl

/-! Literals. -/

theorem valueWith_alongside {list : Rule (List Value)} {mapping : Rule Mapping}
    (lists : Alongside .fresh .loose list) (mappings : Alongside .fresh .loose mapping) :
    Alongside .fresh .loose (valueWith list mapping) := by
  refine peek_fresh fun kind => ?_
  split
  · exact map_alongside lists _
  · exact map_alongside mappings _
  · exact take_fresh _

section
variable {item : Rule Value} (each : Alongside .fresh .loose item) (shrinking : Shrinking item)
include each shrinking

theorem listOf_alongside : Alongside before .loose (listOf item) := by
  refine bind_alongside (operator_alongside .openBracket rfl) fun _ => ?_
  refine found_alongside rfl (pure_alongside []) ?_
  refine bind_alongside (separated_alongside shrinking each) fun items => ?_
  exact map_alongside (operator_alongside .closeBracket rfl) fun _ => items

theorem mappingOf_alongside : Alongside before .loose (mappingOf item) := by
  refine bind_alongside (operator_alongside .openBrace rfl) fun _ =>
    map_alongside (many_alongside (entry_consuming shrinking) ?_) _
  refine bind_alongside comma_alongside fun _ => found_alongside rfl (pure_alongside none) ?_
  refine bind_alongside text_alongside fun key => ?_
  refine bind_alongside (operator_alongside .colon rfl) fun _ => ?_
  exact map_alongside each fun value => some (key, value)

end

theorem value_alongside (levels : Nat) : Alongside .fresh .loose (value levels) := by
  induction levels with
  | zero =>
    rw [value_eq]
    exact valueWith_alongside tooDeep_alongside tooDeep_alongside
  | succ levels ih =>
    have shrinking := (value_sound levels).shrinking
    rw [value_eq]
    exact valueWith_alongside (listOf_alongside ih shrinking) (mappingOf_alongside ih shrinking)

theorem list_alongside : Alongside before .loose (list levels) := by
  cases levels with
  | zero => exact tooDeep_alongside
  | succ levels => exact listOf_alongside (value_alongside levels) (value_sound levels).shrinking

theorem mapping_alongside : Alongside before .loose (mapping levels) := by
  cases levels with
  | zero => exact tooDeep_alongside
  | succ levels => exact mappingOf_alongside (value_alongside levels) (value_sound levels).shrinking

/-! Operands. -/

theorem segment_alongside : Alongside before .loose segment := by
  refine found_alongside rfl ?_ (found_alongside rfl ?_ (pure_alongside none))
  · refine bind_alongside (take_fresh _) fun part => ?_
    exact map_alongside (operator_alongside .closeBracket rfl) fun _ => some part
  · exact map_alongside identifier_alongside _

theorem path_alongside : Alongside before .loose path :=
  bind_alongside identifier_alongside fun _ =>
    map_alongside (many_alongside segment_consuming segment_alongside) _

/-- Where the next token has a meaning, it is read, and an operand starts behind it. -/
theorem meant_alongside {ι : Type} (meaning : TokenKind → Option ι)
    {next : Option TokenKind → Rule α} {yes : ι → Rule α}
    (opens : ∀ kind found, meaning kind = some found → kind.closesOperand = false)
    (steady : ∀ kind, kind.isSteady = false → before = .fresh ∨ meaning kind = none)
    (known : ∀ kind found, meaning kind = some found →
      next (some kind) = token >>= fun _ => yes found)
    (unknown : ∀ kind, meaning kind = none → next (some kind) = next none)
    (first : ∀ found, Alongside .fresh after (yes found))
    (second : Alongside before after (next none)) :
    Alongside before after (peek >>= next) := by
  intro left right related
  rw [bind_of_ok (peek_apply left), bind_of_ok (peek_apply right)]
  rcases related.cases with ⟨rfl, rfl⟩ | ⟨token, rest, rest', rfl, rfl, behind⟩ |
    ⟨isLoose, token, minus, number, rest, rest', rfl, rfl, split, -⟩
  · exact second related
  · rw [List.head?_cons, List.head?_cons, Option.map_some]
    cases meant : meaning token.kind with
    | none =>
      rw [unknown _ meant]
      exact second related
    | some found =>
      rw [known _ _ meant, bind_of_ok (token_ok_iff.mpr rfl), bind_of_ok (token_ok_iff.mpr rfl)]
      rw [Stage.behind, opens _ _ meant] at behind
      exact first found behind
  · have meaningless (other : Token) (unsteady : other.kind.isSteady = false) :
        next (some other.kind) = next none := by
      refine unknown _ ((steady other.kind unsteady).resolve_left ?_)
      rw [isLoose]
      exact nofun
    rw [List.head?_cons, List.head?_cons, Option.map_some, Option.map_some,
      meaningless token split.isSteady_token, meaningless minus split.isSteady_minus]
    exact second related

theorem closesOperand_of_sign {kind : TokenKind} {sign : Sign} (known : kind.sign? = some sign) :
    kind.closesOperand = false := by
  unfold TokenKind.sign? at known
  split at known <;> first
    | rfl
    | contradiction

theorem closesOperand_of_arithmetic {kind : TokenKind} {operation : Arithmetic}
    (known : kind.arithmetic? = some operation) : kind.closesOperand = false := by
  unfold TokenKind.arithmetic? at known
  split at known <;> first
    | rfl
    | contradiction

theorem closesOperand_of_comparator {kind : TokenKind} {comparator : Comparator}
    (known : kind.comparator? = some comparator) : kind.closesOperand = false := by
  unfold TokenKind.comparator? at known
  split at known <;> first
    | rfl
    | contradiction

section
variable {bracket : Rule Operand} (brackets : Alongside .fresh .loose bracket)
include brackets

theorem primary_alongside : Alongside .fresh .loose (primary levels bracket) := by
  refine peek_fresh fun kind => ?_
  split
  · exact brackets
  · exact map_alongside list_alongside _
  · exact bind_alongside (keyword_alongside _) fun _ =>
      map_alongside (bracketed_alongside path_alongside) _
  · exact map_alongside path_alongside _
  · exact map_alongside (take_fresh _) _

theorem term_alongside : Alongside .fresh .loose (term levels bracket) := by
  have primaries : Alongside .fresh .loose (primary levels bracket) := primary_alongside brackets
  refine meant_alongside TokenKind.sign? (fun _ _ => closesOperand_of_sign) (fun _ _ => .inl rfl)
    (fun kind sign known => ?_) (fun kind unknown => ?_)
    (fun sign => map_alongside primaries (.signed sign)) primaries
  · rw [Option.bind_some, known]
  · rw [Option.bind_some, unknown, Option.bind_none]

end

/-! Operations. -/

section
variable {term : Rule Operand} {token : Token} {rest : List Token}

theorem operation_of_arithmetic {operation : Arithmetic}
    (meaning : token.kind.arithmetic? = some operation) :
    Grammar.operation term (token :: rest) =
      (term >>= fun right => pure (some (operation, right))) rest := by
  rw [Grammar.operation, bind_of_ok (next?_apply _)]
  simp only [List.head?_cons, meaning]
  exact bind_of_ok (token_ok_iff.mpr rfl) _

theorem operation_of_glued (glued : token.isGlued = true) :
    operation term (token :: rest) =
      (gluedLiteral >>= fun number => pure (some (.subtract, .literal number)))
        (token :: rest) := by
  have meaningless : token.kind.arithmetic? = none := by
    rcases Token.isGlued_cases glued with kind | kind <;> rw [kind] <;> rfl
  rw [operation, bind_of_ok (next?_apply _)]
  simp only [List.head?_cons, meaningless, glued, if_true]

theorem operation_of_other (meaningless : token.kind.arithmetic? = none)
    (plain : token.isGlued = false) :
    operation term (token :: rest) = .ok (none, token :: rest) := by
  rw [operation, bind_of_ok (next?_apply _)]
  simp only [List.head?_cons, meaningless, plain]
  rfl

end

theorem term_of_number {bracket : Rule Operand} {number : Token} {rest : List Token}
    (kind : number.kind = .literal .integer ∨ number.kind = .literal .float) :
    term levels bracket (number :: rest) =
      (literal >>= fun value => pure (.literal value)) (number :: rest) := by
  rw [term, bind_of_ok (peek_apply _), List.head?_cons, Option.map_some]
  rcases kind with kind | kind
  all_goals
    rw [kind]
    change primary levels bracket (number :: rest) = _
    rw [primary, bind_of_ok (peek_apply _), List.head?_cons, Option.map_some, kind]

theorem literal?_of_split {token minus number : Token} (split : SplitInto token minus number) :
    number.literal? = token.unsigned.literal? := by
  have kind : number.kind = token.unsigned.kind := split.kind
  unfold Token.literal?
  rw [kind, split.text]

section
variable {bracket : Rule Operand} (brackets : Alongside .fresh .loose bracket)
include brackets

/-- The minus is an operation, and the number behind it is its right side. -/
theorem operation_alongside : Alongside before .loose (operation (term levels bracket)) := by
  intro left right related
  rcases related.cases with ⟨rfl, rfl⟩ | ⟨token, rest, rest', rfl, rfl, behind⟩ |
    ⟨-, token, minus, number, rest, rest', rfl, rfl, split, behind⟩
  · exact .read related.loosen
  · cases meaning : token.kind.arithmetic? with
    | some operation =>
      rw [operation_of_arithmetic meaning, operation_of_arithmetic meaning]
      rw [Stage.behind, closesOperand_of_arithmetic meaning] at behind
      exact map_alongside (term_alongside brackets) _ behind
    | none =>
      cases glued : token.isGlued with
      | false =>
        rw [operation_of_other meaning glued, operation_of_other meaning glued]
        exact .read related.loosen
      | true =>
        rw [operation_of_glued glued, operation_of_glued glued]
        exact (take_same _ behind.loosen).bind fun _ => pure_alongside _
  · -- The number has no sign on the right, so there it is a term without one.
    have meaning : minus.kind.arithmetic? = some .subtract := by rw [split.minus]; rfl
    have numeral := Token.isGlued_cases split.glued
    rw [← split.kind] at numeral
    rw [operation_of_glued split.glued, operation_of_arithmetic meaning, bind_apply, bind_apply,
      term_of_number numeral, bind_apply]
    simp only [gluedLiteral, literal, take, literal?_of_split split]
    cases token.unsigned.literal? with
    | none => exact .refused
    | some value => exact .read behind

section
variable (sound : Sound bracket (PrimaryPhrase levels))
include sound

theorem continued_alongside (first : Operand) :
    Alongside before .loose (continued levels bracket first) := by
  refine map_alongside (many_alongside ?_ (operation_alongside brackets)) _
  exact operation_consuming (term_sound sound).shrinking

theorem operandWith_alongside : Alongside .fresh .loose (operandWith levels bracket) :=
  bind_alongside (term_alongside brackets) fun first => continued_alongside brackets sound first

end

end

theorem nestedOperand_alongside (levels : Nat) :
    Alongside .fresh .loose (nestedOperand levels) := by
  induction levels with
  | zero => exact tooDeep_alongside
  | succ levels ih =>
    have inner := operandWith_alongside ih (nestedOperand_sound levels)
    exact map_alongside (bracketed_alongside inner) Operand.nested

theorem operand_alongside : Alongside .fresh .loose (operand levels) :=
  operandWith_alongside (nestedOperand_alongside levels) (nestedOperand_sound levels)

theorem operations_alongside (first : Operand) :
    Alongside before .loose (operations levels first) :=
  continued_alongside (nestedOperand_alongside levels) (nestedOperand_sound levels) first

/-! Filters. -/

theorem comparator?_of_unsteady {kind : TokenKind} (unsteady : kind.isSteady = false) :
    kind.comparator? = none := by
  unfold TokenKind.isSteady at unsteady
  split at unsteady <;> first
    | rfl
    | contradiction

theorem predicate_alongside (target : Operand) :
    Alongside before .loose (predicate levels target) := by
  have operands : Alongside .fresh .loose (operand levels) := operand_alongside
  refine meant_alongside TokenKind.comparator? (fun _ _ => closesOperand_of_comparator)
    (fun _ unsteady => .inr (comparator?_of_unsteady unsteady))
    (fun kind comparator known => ?_) (fun kind unknown => ?_)
    (fun comparator => map_alongside operands (.compare target comparator)) ?_
  · rw [Option.bind_some, known]
  · rw [Option.bind_some, unknown, Option.bind_none]
  · have denied {before : Stage} : Alongside before .loose (accept (.keyword .not)) :=
      accept_alongside rfl
    refine found_alongside rfl ?_ (bind_alongside denied fun negated => ?_)
    · exact bind_alongside denied fun negated => map_alongside (expect_alongside rfl) _
    · refine found_alongside rfl (map_alongside text_alongside _) ?_
      refine found_alongside rfl ?_ (found_alongside rfl ?_ refuse_alongside)
      · refine bind_alongside operands fun low => bind_alongside (keyword_alongside _) fun _ => ?_
        exact map_alongside operands _
      · exact map_alongside list_alongside _

theorem containment_alongside (function : Containment) :
    Alongside .fresh .loose (containment levels function) := by
  refine bind_alongside (take_fresh _) fun _ => bracketed_alongside ?_
  refine bind_alongside path_alongside fun target => ?_
  exact found_alongside rfl (map_alongside (value_alongside levels) _) (pure_alongside _)

section
variable {nested : Rule Lead} (deeper : Alongside .fresh .loose nested)
include deeper

theorem leadWith_alongside : Alongside .fresh .loose (leadWith levels nested) := by
  refine peek_fresh fun kind => choice_alongside ?_ ?_
  · refine bind_alongside deeper fun lead => ?_
    cases lead with
    | condition condition => exact pure_alongside _
    | operand first => exact map_alongside (operations_alongside first) _
  · cases kind.bind TokenKind.containment? with
    | some function => exact map_alongside (containment_alongside function) _
    | none => exact map_alongside operand_alongside _

theorem unaryWith_alongside : Alongside .fresh .loose (unaryWith levels nested) := by
  refine bind_alongside (leadWith_alongside deeper) fun lead => ?_
  cases lead with
  | condition condition => exact pure_alongside _
  | operand target => exact predicate_alongside target

end

section
variable {unary : Rule Condition} (each : Alongside .fresh .loose unary)
include each

theorem connective_alongside : Alongside before .loose (connective unary) :=
  found_alongside rfl (map_alongside each _)
    (found_alongside rfl (map_alongside each _) (pure_alongside none))

theorem connected_alongside (shrinking : Shrinking unary) (first : Condition) :
    Alongside before .loose (connected unary first) :=
  map_alongside (many_alongside (connective_consuming shrinking) (connective_alongside each)) _

end

section
variable {nested : Rule Lead} (deeper : Alongside .fresh .loose nested)
  (sound : Sound nested (NestedPhrase levels))
include deeper sound

theorem heldWith_alongside : Alongside .fresh .loose (heldWith levels nested) := by
  have joined (first : Condition) :
      Alongside .loose .loose (connected (unaryWith levels nested) first) :=
    connected_alongside (unaryWith_alongside deeper) (unaryWith_sound sound).shrinking first
  refine bind_alongside (leadWith_alongside deeper) fun lead => ?_
  cases lead with
  | condition first => exact map_alongside (joined first) _
  | operand target =>
    refine peek_choice_alongside rfl (pure_alongside _) ?_
    exact bind_alongside (predicate_alongside target) fun first => map_alongside (joined first) _

theorem nestedWith_alongside : Alongside .fresh .loose (nestedWith levels nested) := by
  refine peek_choice_alongside rfl ?_ ?_
  · exact bind_alongside (keyword_alongside _) fun _ =>
      map_alongside (unaryWith_alongside deeper) _
  · refine bind_alongside (bracketed_alongside (heldWith_alongside deeper sound)) fun held => ?_
    cases held with
    | condition condition => exact pure_alongside _
    | operand operand => exact pure_alongside _

end

theorem nestedLead_alongside (levels : Nat) : Alongside .fresh .loose (nestedLead levels) := by
  induction levels with
  | zero => exact tooDeep_alongside
  | succ levels ih => exact nestedWith_alongside ih (nestedLead_sound levels)

theorem unary_alongside : Alongside .fresh .loose (unary levels) :=
  unaryWith_alongside (nestedLead_alongside levels)

theorem conditions_alongside : Alongside .fresh .loose (conditions levels) :=
  bind_alongside unary_alongside fun first =>
    connected_alongside unary_alongside (unary_sound levels).shrinking first

end VectorQuery.Grammar
