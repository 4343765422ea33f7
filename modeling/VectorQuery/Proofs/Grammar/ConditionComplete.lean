import VectorQuery.Proofs.Grammar.Condition

/-! Every phrase of the filter grammar is read. The rule for round brackets learns late
whether they hold a condition or an operand, so an operand is followed through the
rule that may answer with either. -/
namespace VectorQuery.Grammar

variable {levels : Nat}

/-! What starts a condition. -/

theorem leadWith_of_condition {nested : Rule Lead} {token : Token} {tokens rest : List Token}
    {condition : Condition} (opens : token.kind.opensLead = true)
    (read : nested (token :: tokens) = .ok (.condition condition, rest)) :
    leadWith levels nested (token :: tokens) = .ok (.condition condition, rest) := by
  rw [leadWith, bind_of_ok (peek_apply _), if_pos (by simpa using opens), bind_of_ok read]
  rfl

theorem leadWith_of_bracket {nested : Rule Lead} {token : Token} {tokens middle : List Token}
    {first : Operand} (opens : token.kind.opensLead = true)
    (read : nested (token :: tokens) = .ok (.operand first, middle)) :
    leadWith levels nested (token :: tokens) =
      (operations levels first middle).map fun read => (.operand read.1, read.2) := by
  rw [leadWith, bind_of_ok (peek_apply _), if_pos (by simpa using opens), bind_of_ok read]
  exact bind_pure_apply _ _ _

theorem leadWith_of_operand {nested : Rule Lead} {token : Token} {tokens : List Token}
    (starts : token.kind.opensLead = false) (plain : token.kind.containment? = none) :
    leadWith levels nested (token :: tokens) =
      (operand levels (token :: tokens)).map fun read => (.operand read.1, read.2) := by
  rw [leadWith, bind_of_ok (peek_apply _), if_neg (by simpa using starts)]
  simp only [List.head?_cons, Option.map_some, Option.bind_some, plain]
  exact bind_pure_apply _ _ _

theorem leadWith_of_containment {nested : Rule Lead} {tokens : List Token} {condition : Condition}
    (phrase : ContainmentPhrase levels tokens condition) (rest : List Token) :
    leadWith levels nested (tokens ++ rest) = .ok (.condition condition, rest) := by
  obtain ⟨word, others, function, rfl, named, read⟩ := containment_of_phrase phrase rest
  have starts : word.kind.opensLead = false := by
    unfold TokenKind.containment? at named
    split at named <;> simp_all [TokenKind.opensLead]
  rw [List.cons_append] at read ⊢
  rw [leadWith, bind_of_ok (peek_apply _), if_neg (by simpa using starts)]
  simp only [List.head?_cons, Option.map_some, Option.bind_some, named]
  rw [bind_of_ok read, pure_apply]

theorem heldWith_of_condition {nested : Rule Lead} {tokens middle : List Token}
    {first : Condition} (start : leadWith levels nested tokens = .ok (.condition first, middle)) :
    heldWith levels nested tokens =
      (connected (unaryWith levels nested) first middle).map fun read =>
        (.condition read.1, read.2) := by
  rw [heldWith, bind_of_ok start]
  exact bind_pure_apply _ _ _

theorem heldWith_of_operand {nested : Rule Lead} {tokens rest : List Token} {closing : Token}
    {operand : Operand} (closes : closing.kind = .operator .closeParen)
    (start : leadWith levels nested tokens = .ok (.operand operand, closing :: rest)) :
    heldWith levels nested tokens = .ok (.operand operand, closing :: rest) := by
  rw [heldWith, bind_of_ok start]
  simp only
  rw [bind_of_ok (peek_apply _), if_pos (by simp [closes]), pure_apply]

theorem heldWith_of_predicate {nested : Rule Lead} {tokens middle rest : List Token}
    {target : Operand} {first : Condition} (lacks : Lacks (.operator .closeParen) middle)
    (start : leadWith levels nested tokens = .ok (.operand target, middle))
    (said : predicate levels target middle = .ok (first, rest)) :
    heldWith levels nested tokens =
      (connected (unaryWith levels nested) first rest).map fun read =>
        (.condition read.1, read.2) := by
  rw [heldWith, bind_of_ok start]
  simp only
  rw [bind_of_ok (peek_apply _), if_neg lacks, bind_of_ok said]
  exact bind_pure_apply _ _ _

theorem nestedLead_of_held {opening closing : Token} {tokens rest : List Token} {held : Lead}
    (opens : opening.kind = .operator .openParen) (closes : closing.kind = .operator .closeParen)
    (inner : heldWith levels (nestedLead levels) (tokens ++ closing :: rest) =
      .ok (held, closing :: rest)) :
    nestedLead (levels + 1) (opening :: (tokens ++ closing :: rest)) =
      .ok (match held with
        | .condition condition => .condition (.nested condition)
        | .operand operand => .operand (.nested operand), rest) := by
  have whole := bracketed_ok_iff.mpr ⟨opening, closing, _, rfl, opens, inner, closes⟩
  rw [nestedLead, nestedWith, bind_of_ok (peek_apply _), if_neg (by simp [opens]), groupWith,
    bind_of_ok whole]
  cases held <;> rfl

theorem nestedLead_of_denied {token : Token} {tokens rest : List Token} {condition : Condition}
    (denies : token.kind = .keyword .not)
    (inner : unary levels tokens = .ok (condition, rest)) :
    nestedLead (levels + 1) (token :: tokens) = .ok (.condition (.negation condition), rest) := by
  rw [nestedLead, nestedWith, bind_of_ok (peek_apply _), if_pos (by simp [denies]), deniedWith,
    keyword, bind_of_ok (expect_cons denies _), bind_of_ok (by exact inner), pure_apply]

/-- An operation goes on from a lead as it does from an operand. -/
def LeadsOperand (levels : Nat) (tokens : List Token) (operand : Operand) (rest : List Token) :
    Prop :=
  leadWith levels (nestedLead levels) (tokens ++ rest) =
    (operations levels operand rest).map fun read => (.operand read.1, read.2)

theorem LeadsOperand.of_ends {tokens rest : List Token} {operand : Operand}
    (leads : LeadsOperand levels tokens operand rest) (ends : EndsOperand rest) :
    leadWith levels (nestedLead levels) (tokens ++ rest) = .ok (.operand operand, rest) := by
  rw [leads, operations, continued_of_ends (nestedOperand_sound levels) ends]
  rfl

theorem LeadsOperand.of_some {tokens others rest : List Token} {left right : Operand}
    {step : Arithmetic} (leads : LeadsOperand levels tokens left (others ++ rest))
    (found : operation (term levels (nestedOperand levels)) (others ++ rest) =
      .ok (some (step, right), rest)) :
    LeadsOperand levels (tokens ++ others) (.binary left step right) rest := by
  rw [LeadsOperand, List.append_assoc, leads, operations,
    continued_of_some (nestedOperand_sound levels) found]
  rfl

theorem leadsOperand_of_head {token : Token} {tokens rest : List Token} {operand : Operand}
    (phrase : OperandPhrase levels (token :: tokens) operand) (ends : EndsPath rest)
    (starts : token.kind.opensLead = false) (plain : token.kind.containment? = none) :
    LeadsOperand levels (token :: tokens) operand rest := by
  rw [LeadsOperand, List.cons_append, leadWith_of_operand starts plain, ← List.cons_append,
    phrase.continues rest ends]

end VectorQuery.Grammar

namespace VectorQuery
open Grammar

theorem TokenKind.plain_of_sign {kind : TokenKind} {sign : Sign} (meaning : kind.sign? = some sign) :
    kind.opensLead = false ∧ kind.containment? = none := by
  unfold TokenKind.sign? at meaning
  split at meaning <;> simp_all [TokenKind.opensLead, TokenKind.containment?]

mutual
theorem OperandPhrase.leads {levels : Nat} {tokens : List Token} {operand : Operand} :
    OperandPhrase levels tokens operand → ∀ rest, EndsPath rest →
      LeadsOperand levels tokens operand rest
  | .term phrase, rest, ends => phrase.leads rest ends
  | @OperandPhrase.operation _ _ others _ _ token _ left meaning right, rest, ends =>
    (left.leads _ (endsPath_of_arithmetic meaning _)).of_some
      (operation_cons meaning (right.reads rest ends))
  | .glued left glued meaning, rest, ends => by
    obtain ⟨form, kind⟩ := isGlued_kind glued
    exact (left.leads _ (endsPath_of_literal kind _)).of_some (operation_glued glued meaning rest)

theorem TermPhrase.leads {levels : Nat} {tokens : List Token} {operand : Operand} :
    TermPhrase levels tokens operand → ∀ rest, EndsPath rest →
      LeadsOperand levels tokens operand rest
  | .unsigned phrase, rest, ends => phrase.leads rest ends
  | .signed meaning phrase, rest, ends => by
    obtain ⟨starts, plain⟩ := TokenKind.plain_of_sign meaning
    exact leadsOperand_of_head (.term (.signed meaning phrase)) ends starts plain

theorem PrimaryPhrase.leads {levels : Nat} {tokens : List Token} {operand : Operand} :
    PrimaryPhrase levels tokens operand → ∀ rest, EndsPath rest →
      LeadsOperand levels tokens operand rest
  | .literal meaning, rest, ends => by
    obtain ⟨form, kind⟩ := literal?_kind meaning
    exact leadsOperand_of_head (.term (.unsigned (.literal meaning))) ends
      (by simp [kind, TokenKind.opensLead]) (by simp [kind, TokenKind.containment?])
  | .list phrase, rest, ends => by
    have whole : OperandPhrase levels _ _ := .term (.unsigned (.list phrase))
    obtain ⟨opening, others, rfl, opens⟩ := phrase.head
    exact leadsOperand_of_head whole ends
      (by simp [opens, TokenKind.opensLead]) (by simp [opens, TokenKind.containment?])
  | .path phrase, rest, ends => by
    have whole : OperandPhrase levels _ _ := .term (.unsigned (.path phrase))
    obtain ⟨root, others, rfl, named⟩ := phrase.head
    exact leadsOperand_of_head whole ends
      (by simp [named, TokenKind.opensLead]) (by simp [named, TokenKind.containment?])
  | .arrayLength named opens phrase closes, rest, ends =>
    leadsOperand_of_head (.term (.unsigned (.arrayLength named opens phrase closes))) ends
      (by simp [named, TokenKind.opensLead]) (by simp [named, TokenKind.containment?])
  | @PrimaryPhrase.nested levels opening closing _ operand opens phrase closes, rest, _ => by
    have ends : EndsOperand (closing :: rest) :=
      endsOperand_cons (by simp [closes, TokenKind.endsOperand]) rest
    have held := heldWith_of_operand closes ((phrase.leads _ ends.1).of_ends ends)
    have bracket := nestedLead_of_held opens closes held
    simp only [LeadsOperand, List.cons_append, List.append_assoc, List.nil_append]
    exact leadWith_of_bracket (by simp [opens, TokenKind.opensLead]) bracket
end

theorem NegationPhrase.head {tokens : List Token} {negated : Bool}
    (phrase : NegationPhrase tokens negated) (word : Token) (rest : List Token) :
    ∃ token others, tokens ++ word :: rest = token :: others ∧
      (token.kind = .keyword .not ∨ token = word) := by
  cases phrase with
  | absent => exact ⟨word, rest, rfl, .inr rfl⟩
  | present denies => exact ⟨_, _, rfl, .inl denies⟩

/-- What is said of an operand does not go on with it, and does not close a bracket. -/
theorem PredicatePhrase.head {levels : Nat} {target : Operand} {tokens : List Token}
    {condition : Condition} (phrase : PredicatePhrase levels target tokens condition) :
    ∃ token others, tokens = token :: others ∧ token.kind.endsOperand = true ∧
      token.kind ≠ .operator .closeParen := by
  have denied {word : Token} {name : Keyword} (named : word.kind = .keyword name)
      {negation : List Token} {negated : Bool} (phrase : NegationPhrase negation negated)
      (rest : List Token) :
      ∃ token others, negation ++ word :: rest = token :: others ∧
        token.kind.endsOperand = true ∧ token.kind ≠ .operator .closeParen := by
    obtain ⟨token, others, split, denies | rfl⟩ := phrase.head word rest
    · exact ⟨token, others, split, by simp [denies, TokenKind.endsOperand], by simp [denies]⟩
    · exact ⟨token, others, split, by simp [named, TokenKind.endsOperand], by simp [named]⟩
  cases phrase with
  | compare meaning _ =>
    refine ⟨_, _, rfl, ?_⟩
    unfold TokenKind.comparator? at meaning
    split at meaning <;> simp_all [TokenKind.endsOperand]
  | isNull is _ _ => exact ⟨_, _, rfl, by simp [is, TokenKind.endsOperand], by simp [is]⟩
  | like negation named _ => exact denied named negation _
  | between negation named _ _ _ =>
    simp only [List.append_assoc, List.cons_append]
    exact denied named negation _
  | within negation named _ => exact denied named negation _

end VectorQuery

namespace VectorQuery.Grammar

variable {levels : Nat}

/-- A lead that is the condition, or its operand before what is said of it. -/
def LeadsCondition (levels : Nat) (tokens : List Token) (condition : Condition)
    (rest : List Token) : Prop :=
  leadWith levels (nestedLead levels) (tokens ++ rest) = .ok (.condition condition, rest) ∨
    ∃ target others, PredicatePhrase levels target others condition ∧
      leadWith levels (nestedLead levels) (tokens ++ rest) = .ok (.operand target, others ++ rest)

theorem LeadsCondition.unary {tokens rest : List Token} {condition : Condition}
    (leads : LeadsCondition levels tokens condition rest) (ends : EndsOperand rest) :
    unary levels (tokens ++ rest) = .ok (condition, rest) := by
  rcases leads with whole | ⟨target, others, phrase, start⟩
  · rw [Grammar.unary, unaryWith, bind_of_ok whole]
    rfl
  · rw [Grammar.unary, unaryWith, bind_of_ok start]
    exact predicate_of_phrase phrase ends

theorem LeadsCondition.held {tokens rest : List Token} {condition : Condition}
    (leads : LeadsCondition levels tokens condition rest) (ends : EndsOperand rest) :
    heldWith levels (nestedLead levels) (tokens ++ rest) =
      (connected (Grammar.unary levels) condition rest).map fun read =>
        (.condition read.1, read.2) := by
  rcases leads with whole | ⟨target, others, phrase, start⟩
  · exact heldWith_of_condition whole
  · have said := predicate_of_phrase phrase ends
    obtain ⟨token, _, rfl, _, open'⟩ := phrase.head
    exact heldWith_of_predicate (lacks_cons open' _) start said

/-- No connective follows. -/
def EndsConditions (tokens : List Token) : Prop :=
  Lacks (.keyword .and) tokens ∧ Lacks (.keyword .or) tokens

theorem connected_of_ends {condition : Condition} {rest : List Token}
    (ends : EndsConditions rest) :
    connected (unary levels) condition rest = .ok (condition, rest) := by
  have stops : connective (unary levels) rest = .ok (none, rest) := by
    rw [connective, accept_bind_of_lacks ends.1, accept_bind_of_lacks ends.2, pure_apply]
  have loop := many_of_none (connective_consuming (unary_sound levels).shrinking) stops
  rw [connected, bind_of_ok loop]
  rfl

theorem connected_of_some {left right : Condition} {join : Connective}
    {tokens middle : List Token}
    (found : connective (unary levels) tokens = .ok (some (join, right), middle)) :
    connected (unary levels) left tokens =
      connected (unary levels) (join.join left right) middle := by
  have consuming := connective_consuming (unary_sound levels).shrinking
  simp only [connected, bind_apply, many_of_some consuming found]
  cases many (connective (unary levels)) middle <;> rfl

theorem connective_of_and {token : Token} {tokens rest : List Token} {right : Condition}
    (joins : token.kind = .keyword .and) (read : unary levels tokens = .ok (right, rest)) :
    connective (unary levels) (token :: tokens) = .ok (some (.conjunction, right), rest) := by
  rw [connective, accept_bind_cons joins, bind_of_ok read, pure_apply]

theorem connective_of_or {token : Token} {tokens rest : List Token} {right : Condition}
    (joins : token.kind = .keyword .or) (read : unary levels tokens = .ok (right, rest)) :
    connective (unary levels) (token :: tokens) = .ok (some (.disjunction, right), rest) := by
  have lacks : Lacks (.keyword .and) (token :: tokens) := lacks_cons (by simp [joins]) _
  rw [connective, accept_bind_of_lacks lacks, accept_bind_cons joins, bind_of_ok read, pure_apply]

end VectorQuery.Grammar

namespace VectorQuery
open Grammar

mutual
theorem UnaryPhrase.leads {levels : Nat} {tokens : List Token} {condition : Condition} :
    UnaryPhrase levels tokens condition → ∀ rest, EndsOperand rest →
      LeadsCondition levels tokens condition rest
  | .negation denies phrase, rest, ends => by
    have inner := nestedLead_of_denied denies ((phrase.leads rest ends).unary ends)
    exact .inl (leadWith_of_condition (by simp [denies, TokenKind.opensLead]) inner)
  | @UnaryPhrase.nested levels opening closing _ _ opens phrase closes, rest, _ => by
    have inside : EndsOperand (closing :: rest) :=
      endsOperand_cons (by simp [closes, TokenKind.endsOperand]) rest
    have last : EndsConditions (closing :: rest) :=
      ⟨lacks_cons (by simp [closes]) rest, lacks_cons (by simp [closes]) rest⟩
    have held := phrase.held _ inside
    rw [connected_of_ends last] at held
    have bracket := nestedLead_of_held opens closes held
    left
    simp only [List.cons_append, List.append_assoc, List.nil_append]
    exact leadWith_of_condition (by simp [opens, TokenKind.opensLead]) bracket
  | .containment phrase, rest, _ => .inl (leadWith_of_containment phrase rest)
  | @UnaryPhrase.predicate _ _ others target _ operand phrase, rest, _ => by
    have behind : EndsOperand (others ++ rest) := by
      obtain ⟨token, _, rfl, ends, _⟩ := phrase.head
      exact endsOperand_cons ends _
    have start := (operand.leads _ behind.1).of_ends behind
    exact .inr ⟨target, others, phrase, by rwa [List.append_assoc]⟩

theorem ConditionsPhrase.held {levels : Nat} {tokens : List Token} {condition : Condition} :
    ConditionsPhrase levels tokens condition → ∀ rest, EndsOperand rest →
      heldWith levels (nestedLead levels) (tokens ++ rest) =
        (connected (Grammar.unary levels) condition rest).map fun read => (.condition read.1, read.2)
  | .unary phrase, rest, ends => (phrase.leads rest ends).held ends
  | @ConditionsPhrase.conjunction _ _ others token _ _ left joins right, rest, ends => by
    have behind : EndsOperand (token :: (others ++ rest)) :=
      endsOperand_cons (by simp [joins, TokenKind.endsOperand]) _
    have found := connective_of_and joins ((right.leads rest ends).unary ends)
    rw [List.append_assoc, List.cons_append, left.held _ behind, connected_of_some found]
    rfl
  | @ConditionsPhrase.disjunction _ _ others token _ _ left joins right, rest, ends => by
    have behind : EndsOperand (token :: (others ++ rest)) :=
      endsOperand_cons (by simp [joins, TokenKind.endsOperand]) _
    have found := connective_of_or joins ((right.leads rest ends).unary ends)
    rw [List.append_assoc, List.cons_append, left.held _ behind, connected_of_some found]
    rfl
end

theorem UnaryPhrase.reads {levels : Nat} {tokens : List Token} {condition : Condition}
    (phrase : UnaryPhrase levels tokens condition) {rest : List Token} (ends : EndsOperand rest) :
    Grammar.unary levels (tokens ++ rest) = .ok (condition, rest) :=
  (phrase.leads rest ends).unary ends

theorem ConditionsPhrase.continues {levels : Nat} {tokens : List Token} {condition : Condition}
    (phrase : ConditionsPhrase levels tokens condition) (rest : List Token)
    (ends : EndsOperand rest) :
    conditions levels (tokens ++ rest) = connected (Grammar.unary levels) condition rest := by
  -- The productions on the right are unary, so one induction on the left suffices.
  match phrase with
  | .unary phrase => exact bind_of_ok (phrase.reads ends) _
  | @ConditionsPhrase.conjunction _ _ others token _ _ left joins right =>
    have behind : EndsOperand (token :: (others ++ rest)) :=
      endsOperand_cons (by simp [joins, TokenKind.endsOperand]) _
    rw [List.append_assoc, List.cons_append, left.continues _ behind,
      connected_of_some (connective_of_and joins (right.reads ends))]
    rfl
  | @ConditionsPhrase.disjunction _ _ others token _ _ left joins right =>
    have behind : EndsOperand (token :: (others ++ rest)) :=
      endsOperand_cons (by simp [joins, TokenKind.endsOperand]) _
    rw [List.append_assoc, List.cons_append, left.continues _ behind,
      connected_of_some (connective_of_or joins (right.reads ends))]
    rfl

end VectorQuery

namespace VectorQuery.Grammar

/-- A filter ends with the text, a semicolon, a round bracket or `WITH`. -/
def EndsFilter (tokens : List Token) : Prop :=
  ∀ token ∈ tokens.head?, token.kind = .separator .semicolon ∨
    token.kind = .operator .closeParen ∨ token.kind = .keyword .with

theorem EndsFilter.operand {tokens : List Token} (ends : EndsFilter tokens) :
    EndsOperand tokens := by
  cases tokens with
  | nil => simp [EndsOperand, EndsPath, Lacks]
  | cons token rest =>
    refine endsOperand_cons ?_ rest
    rcases ends token rfl with kind | kind | kind <;> simp [kind, TokenKind.endsOperand]

theorem EndsFilter.conditions {tokens : List Token} (ends : EndsFilter tokens) :
    EndsConditions tokens := by
  cases tokens with
  | nil => simp [EndsConditions, Lacks]
  | cons token rest =>
    constructor <;> refine lacks_cons ?_ rest <;>
      rcases ends token rfl with kind | kind | kind <;> simp [kind]

/-- At every number of levels, the rule reads the phrases that nest no deeper. -/
theorem conditions_ok_iff {levels : Nat} {tokens rest : List Token} {condition : Condition}
    (ends : EndsFilter rest) :
    conditions levels (tokens ++ rest) = .ok (condition, rest) ↔
      ConditionsPhrase levels tokens condition := by
  constructor
  · intro read
    obtain ⟨taken, split, phrase⟩ := conditions_sound levels read
    obtain rfl := List.append_cancel_right split
    exact phrase
  · intro phrase
    rw [phrase.continues rest ends.operand, connected_of_ends ends.conditions]

/-- The written grammar is unambiguous. -/
theorem filterPhrase_unique {tokens : List Token} {condition condition' : Condition}
    (phrase : FilterPhrase tokens condition) (phrase' : FilterPhrase tokens condition') :
    condition = condition' := by
  have ends : EndsFilter [] := by simp [EndsFilter]
  have read := (conditions_ok_iff ends).mpr (phrase.bounded (Nat.le_refl _))
  have read' := (conditions_ok_iff ends).mpr (phrase'.bounded (Nat.le_refl _))
  rw [read] at read'
  exact (Prod.mk.inj (Except.ok.inj read')).1

/-- With more levels than tokens, the rule reads exactly the written grammar. -/
theorem conditions_read_grammar {levels : Nat} {tokens rest : List Token} {condition : Condition}
    (enough : tokens.length < levels) (ends : EndsFilter rest) :
    conditions levels (tokens ++ rest) = .ok (condition, rest) ↔ FilterPhrase tokens condition := by
  rw [conditions_ok_iff ends]
  exact ⟨fun phrase => ⟨levels, phrase⟩, fun phrase => FilterPhrase.bounded phrase (by omega)⟩

/-- `(a) is null` before `WITH`: the bracket holds an operand. -/
theorem conditions_read_grammar_of_bracket :
    let tokens : List Token :=
      [⟨.operator .openParen, "(", 1, 1⟩, ⟨.identifier, "a", 1, 2⟩,
        ⟨.operator .closeParen, ")", 1, 3⟩, ⟨.keyword .is, "IS", 1, 5⟩,
        ⟨.literal .null, "null", 1, 8⟩]
    let rest : List Token := [⟨.keyword .with, "WITH", 1, 13⟩]
    tokens.length < 6 ∧ EndsFilter rest ∧
      conditions 6 (tokens ++ rest) = .ok (.isNull (.nested (.path ⟨"a", []⟩)) false, rest) ∧
      FilterPhrase tokens (.isNull (.nested (.path ⟨"a", []⟩)) false) := by
  intro tokens rest
  have enough : tokens.length < 6 := by decide
  have ends : EndsFilter rest := by simp [rest, EndsFilter]
  have read : conditions 6 (tokens ++ rest) =
      .ok (.isNull (.nested (.path ⟨"a", []⟩)) false, rest) := by rfl
  exact ⟨enough, ends, read, (conditions_read_grammar enough ends).mp read⟩

end VectorQuery.Grammar
