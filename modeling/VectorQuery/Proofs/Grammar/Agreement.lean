import VectorQuery.Proofs.Grammar.Condition
import VectorQuery.Proofs.Grammar.Coupling

/-! Every rule of the grammar keeps to every coupling: it looks at the kinds and texts of
tokens, it stays in front of semicolons, and it opens its levels one by one. -/
namespace VectorQuery.Grammar

variable {coupling : Coupling} {α : Type} {levels levels' : Nat}

/-! Meanings of single tokens. -/

theorem literal?_alike {token token' : Token} (alike : token.Alike token') :
    token.literal? = token'.literal? := by
  unfold Token.literal?
  rw [← alike.kind]
  split
  next integer => rw [alike.text_of_kind integer rfl]
  next float => rw [alike.text_of_kind float rfl]
  next text => rw [alike.text_of_kind text rfl]
  all_goals rfl

theorem unsigned_alike {token token' : Token} (alike : token.Alike token') :
    token.unsigned.Alike token'.unsigned :=
  ⟨alike.kind, fun plain => by rw [Token.unsigned, Token.unsigned, alike.text plain]⟩

theorem isGlued_alike {token token' : Token} (alike : token.Alike token') :
    token.isGlued = token'.isGlued := by
  unfold Token.isGlued
  rw [← alike.kind]
  cases numeral : token.kind == .literal .integer || token.kind == .literal .float with
  | false => rfl
  | true =>
    rw [Bool.or_eq_true, beq_iff_eq, beq_iff_eq] at numeral
    rcases numeral with integer | float
    · rw [alike.text_of_kind integer rfl]
    · rw [alike.text_of_kind float rfl]

theorem not_tellsAll_of_isWord {kind : TokenKind} (word : kind.isWord = true) :
    kind.tellsAll = false := by
  cases kind with
  | keyword _ | identifier => rfl
  | literal _ | operator _ | separator _ => contradiction

theorem isWord_alike {token token' : Token} (alike : token.Alike token') (word : String) :
    token.isWord word = token'.isWord word := by
  unfold Token.isWord
  rw [← alike.kind]
  cases bare : token.kind.isWord with
  | false => rfl
  | true => rw [alike.text (not_tellsAll_of_isWord bare)]

theorem literal_agree : Agree coupling literal literal :=
  take_agree ⟨fun _ _ => literal?_alike, fun token semicolon => by simp [Token.literal?, semicolon]⟩

theorem gluedLiteral_agree : Agree coupling gluedLiteral gluedLiteral := by
  refine take_agree ⟨fun _ _ alike => literal?_alike (unsigned_alike alike), ?_⟩
  intro token semicolon
  simp [Token.literal?, Token.unsigned, semicolon]

/-- A token of one kind that is not told by its kind alone. -/
theorem settled_of_kind {kind : TokenKind} (other : kind ≠ .separator .semicolon)
    (plain : kind.tellsAll = false) (read : String → Option α) :
    Settled fun token => if token.kind = kind then read token.text else none := by
  refine ⟨fun token token' alike => ?_, fun token semicolon => ?_⟩
  · rw [← alike.kind]
    split
    next same => rw [alike.text (by rw [same, plain])]
    next => rfl
  · rw [semicolon, if_neg other.symm]

theorem identifier_agree : Agree coupling identifier identifier :=
  take_agree (settled_of_kind (by decide) rfl some)

theorem text_agree : Agree coupling text text :=
  take_agree (settled_of_kind (by decide) rfl some)

theorem integer_agree : Agree coupling integer integer :=
  take_agree (settled_of_kind (by decide) rfl fun text => readInteger? text.toList)

theorem keyword_agree (word : Keyword) : Agree coupling (keyword word) (keyword word) :=
  expect_agree (by simp)

theorem operator_agree (symbol : Operator) : Agree coupling (operator symbol) (operator symbol) :=
  expect_agree (by simp)

theorem comma_agree : Agree coupling comma comma :=
  accept_agree (by decide)

/-! Literals. -/

theorem valueWith_agree {list list' : Rule (List Value)} {mapping mapping' : Rule Mapping}
    (lists : Agree coupling list list') (mappings : Agree coupling mapping mapping') :
    Agree coupling (valueWith list mapping) (valueWith list' mapping') := by
  refine peek_agree fun kind => ?_
  split
  · exact (map_agree lists _).headed _
  · exact (map_agree mappings _).headed _
  · exact literal_agree.headed _

section
variable {item item' : Rule Value} (agree : Agree coupling item item') (shrinking : Shrinking item)
  (shrinking' : Shrinking item')
include agree shrinking shrinking'

theorem listOf_agree : Agree coupling (listOf item) (listOf item') := by
  refine bind_agree (operator_agree _) fun _ => found_agree (by decide) (pure_agree []) ?_
  refine bind_agree (separated_agree shrinking shrinking' agree) fun items => ?_
  exact bind_agree (operator_agree _) fun _ => pure_agree items

theorem mappingOf_agree : Agree coupling (mappingOf item) (mappingOf item') := by
  refine bind_agree (operator_agree _) fun _ => map_agree ?_ _
  refine many_agree (entry_consuming shrinking) (entry_consuming shrinking') ?_
  refine bind_agree comma_agree fun _ => found_agree (by decide) (pure_agree none) ?_
  refine bind_agree text_agree fun key => bind_agree (operator_agree _) fun _ => ?_
  exact map_agree agree fun value => some (key, value)

end

section
variable (related : coupling.levels levels levels')
include related

theorem value_agree : Agree coupling (value levels) (value levels') := by
  induction levels generalizing levels' with
  | zero =>
    rw [value_eq, value_eq]
    exact valueWith_agree (agree_of_levels related rfl fun _ _ none _ => by contradiction)
      (agree_of_levels related rfl fun _ _ none _ => by contradiction)
  | succ levels ih =>
    rw [value_eq, value_eq]
    refine valueWith_agree (agree_of_levels related rfl fun fewer fewer' same within => ?_)
      (agree_of_levels related rfl fun fewer fewer' same within => ?_)
    · obtain rfl := Nat.succ.inj same
      exact listOf_agree (ih within) (value_sound _).shrinking (value_sound _).shrinking
    · obtain rfl := Nat.succ.inj same
      exact mappingOf_agree (ih within) (value_sound _).shrinking (value_sound _).shrinking

theorem list_agree : Agree coupling (list levels) (list levels') := by
  refine agree_of_levels related rfl fun fewer fewer' _ within => ?_
  exact listOf_agree (value_agree within) (value_sound _).shrinking (value_sound _).shrinking

theorem mapping_agree : Agree coupling (mapping levels) (mapping levels') := by
  refine agree_of_levels related rfl fun fewer fewer' _ within => ?_
  exact mappingOf_agree (value_agree within) (value_sound _).shrinking (value_sound _).shrinking

end

/-! Operands. -/

theorem segment_agree : Agree coupling segment segment := by
  have named : Agree coupling subscript subscript := by
    refine take_agree ⟨fun token token' alike => ?_, fun token semicolon => by simp [semicolon]⟩
    rw [← alike.kind]
    split
    next text => rw [alike.text_of_kind text rfl]
    next integer => rw [alike.text_of_kind integer rfl]
    next => rfl
  refine found_agree (by decide) ?_ (found_agree (by decide) ?_ (pure_agree none))
  · exact bind_agree named fun part => bind_agree (operator_agree _) fun _ => pure_agree _
  · exact map_agree identifier_agree _

theorem path_agree : Agree coupling path path :=
  bind_agree identifier_agree fun _ =>
    map_agree (many_agree segment_consuming segment_consuming segment_agree) _

section
variable {bracket bracket' : Rule Operand} (related : coupling.levels levels levels')
  (brackets : Agree coupling bracket bracket')
include related brackets

theorem primary_agree : Agree coupling (primary levels bracket) (primary levels' bracket') := by
  refine peek_agree fun kind => ?_
  split
  · exact brackets.headed _
  · exact (map_agree (list_agree related) _).headed _
  · exact (bind_agree (keyword_agree _) fun _ => map_agree (bracketed_agree path_agree) _).headed _
  · exact (map_agree path_agree _).headed _
  · exact (map_agree literal_agree _).headed _

theorem term_agree : Agree coupling (term levels bracket) (term levels' bracket') := by
  refine peek_agree fun kind => ?_
  cases signed : kind.bind TokenKind.sign? with
  | some sign =>
    refine token_coupled ?_ fun _ _ _ => map_agree (primary_agree related brackets) _
    rintro rfl
    contradiction
  | none => exact (primary_agree related brackets).headed _

end

theorem operation_agree {term term' : Rule Operand} (terms : Agree coupling term term') :
    Agree coupling (operation term) (operation term') := by
  refine next?_agree (pure_agree none) fun token token' heads => ?_
  have alike := coupling.alike heads
  simp only [← alike.kind, ← isGlued_alike alike]
  cases meaning : token.kind.arithmetic? with
  | some operation =>
    refine token_coupled ?_ fun _ _ _ => map_agree terms _
    intro semicolon
    rw [Option.some.inj semicolon] at meaning
    contradiction
  | none => exact (choice_coupled (map_agree gluedLiteral_agree _) (pure_agree none)).headed _

section
variable {bracket bracket' : Rule Operand} (related : coupling.levels levels levels')
  (sound : Sound bracket (PrimaryPhrase levels)) (sound' : Sound bracket' (PrimaryPhrase levels'))
  (brackets : Agree coupling bracket bracket')
include related sound sound' brackets

theorem continued_agree (first : Operand) :
    Agree coupling (continued levels bracket first) (continued levels' bracket' first) := by
  refine map_agree (many_agree (operation_consuming (term_sound sound).shrinking)
    (operation_consuming (term_sound sound').shrinking) ?_) _
  exact operation_agree (term_agree related brackets)

theorem operandWith_agree :
    Agree coupling (operandWith levels bracket) (operandWith levels' bracket') :=
  bind_agree (term_agree related brackets) fun first =>
    continued_agree related sound sound' brackets first

end

section
variable (related : coupling.levels levels levels')
include related

theorem nestedOperand_agree : Agree coupling (nestedOperand levels) (nestedOperand levels') := by
  induction levels generalizing levels' with
  | zero => exact agree_of_levels related rfl fun _ _ none _ => by contradiction
  | succ levels ih =>
    refine agree_of_levels related rfl fun fewer fewer' same within => ?_
    obtain rfl := Nat.succ.inj same
    exact map_agree (bracketed_agree (operandWith_agree within (nestedOperand_sound _)
      (nestedOperand_sound _) (ih within))) _

theorem operand_agree : Agree coupling (operand levels) (operand levels') :=
  operandWith_agree related (nestedOperand_sound _) (nestedOperand_sound _)
    (nestedOperand_agree related)

theorem operations_agree (first : Operand) :
    Agree coupling (operations levels first) (operations levels' first) :=
  continued_agree related (nestedOperand_sound _) (nestedOperand_sound _)
    (nestedOperand_agree related) first

/-! Filters. -/

theorem predicate_agree (target : Operand) :
    Agree coupling (predicate levels target) (predicate levels' target) := by
  refine peek_agree fun kind => ?_
  cases meaning : kind.bind TokenKind.comparator? with
  | some comparator =>
    refine token_coupled ?_ fun _ _ _ => map_agree (operand_agree related) _
    rintro rfl
    contradiction
  | none =>
    have denied : Agree coupling (accept (.keyword .not)) (accept (.keyword .not)) :=
      accept_agree (by decide)
    refine (found_agree (by decide) ?_ ?_).headed _
    · exact bind_agree denied fun _ => bind_agree (expect_agree (by decide)) fun _ => pure_agree _
    · refine bind_agree denied fun negated => found_agree (by decide) (map_agree text_agree _) ?_
      refine found_agree (by decide) ?_ (found_agree (by decide) ?_ refuse_agree)
      · refine bind_agree (operand_agree related) fun low => bind_agree (keyword_agree _) fun _ => ?_
        exact map_agree (operand_agree related) _
      · exact map_agree (list_agree related) _

theorem containment_agree (function : Containment) {kind : Option TokenKind}
    (other : kind ≠ some (.separator .semicolon)) :
    Coupled coupling (coupling.headed kind) (containment levels function)
      (containment levels' function) := by
  refine token_coupled other fun _ _ _ => bracketed_agree (bind_agree path_agree fun target => ?_)
  exact found_agree (by decide) (map_agree (value_agree related) _) (pure_agree _)

section
variable {nested nested' : Rule Lead} (deeper : Agree coupling nested nested')
include deeper

theorem leadWith_agree : Agree coupling (leadWith levels nested) (leadWith levels' nested') := by
  refine peek_agree fun kind => choice_coupled ?_ ?_
  · refine (bind_agree deeper fun lead => ?_).headed _
    cases lead with
    | condition condition => exact pure_agree _
    | operand first => exact map_agree (operations_agree related first) _
  · cases meaning : kind.bind TokenKind.containment? with
    | some function =>
      refine bind_coupled (containment_agree related function ?_) fun _ => pure_agree _
      rintro rfl
      contradiction
    | none => exact (map_agree (operand_agree related) _).headed _

theorem unaryWith_agree : Agree coupling (unaryWith levels nested) (unaryWith levels' nested') := by
  refine bind_agree (leadWith_agree related deeper) fun lead => ?_
  cases lead with
  | condition condition => exact pure_agree _
  | operand target => exact predicate_agree related target

end

end

theorem connective_agree {unary unary' : Rule Condition} (agree : Agree coupling unary unary') :
    Agree coupling (connective unary) (connective unary') :=
  found_agree (by decide) (map_agree agree _)
    (found_agree (by decide) (map_agree agree _) (pure_agree none))

theorem connected_agree {unary unary' : Rule Condition} (shrinking : Shrinking unary)
    (shrinking' : Shrinking unary') (agree : Agree coupling unary unary') (first : Condition) :
    Agree coupling (connected unary first) (connected unary' first) :=
  map_agree (many_agree (connective_consuming shrinking) (connective_consuming shrinking')
    (connective_agree agree)) _

section
variable (related : coupling.levels levels levels')
include related

section
variable {nested nested' : Rule Lead} (sound : Sound nested (NestedPhrase levels))
  (sound' : Sound nested' (NestedPhrase levels')) (deeper : Agree coupling nested nested')
include sound sound' deeper

theorem heldWith_agree : Agree coupling (heldWith levels nested) (heldWith levels' nested') := by
  have joined (first : Condition) : Agree coupling
      (connected (unaryWith levels nested) first) (connected (unaryWith levels' nested') first) :=
    connected_agree (unaryWith_sound sound).shrinking (unaryWith_sound sound').shrinking
      (unaryWith_agree related deeper) first
  refine bind_agree (leadWith_agree related deeper) fun lead => ?_
  cases lead with
  | condition first => exact map_agree (joined first) _
  | operand target =>
    refine peek_choice_agree (pure_agree _) ?_
    exact bind_agree (predicate_agree related target) fun first => map_agree (joined first) _

theorem nestedWith_agree :
    Agree coupling (nestedWith levels nested) (nestedWith levels' nested') := by
  refine peek_choice_agree ?_ ?_
  · exact bind_agree (keyword_agree _) fun _ => map_agree (unaryWith_agree related deeper) _
  · refine bind_agree (bracketed_agree (heldWith_agree related sound sound' deeper)) fun held => ?_
    cases held with
    | condition condition => exact pure_agree _
    | operand operand => exact pure_agree _

end

theorem nestedLead_agree : Agree coupling (nestedLead levels) (nestedLead levels') := by
  induction levels generalizing levels' with
  | zero => exact agree_of_levels related rfl fun _ _ none _ => by contradiction
  | succ levels ih =>
    refine agree_of_levels related rfl fun fewer fewer' same within => ?_
    obtain rfl := Nat.succ.inj same
    exact nestedWith_agree within (nestedLead_sound _) (nestedLead_sound _) (ih within)

theorem unary_agree : Agree coupling (unary levels) (unary levels') :=
  unaryWith_agree related (nestedLead_agree related)

theorem conditions_agree : Agree coupling (conditions levels) (conditions levels') :=
  bind_agree (unary_agree related) fun first =>
    connected_agree (unary_sound _).shrinking (unary_sound _).shrinking (unary_agree related) first

end

end VectorQuery.Grammar
