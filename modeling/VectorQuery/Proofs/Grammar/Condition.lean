import VectorQuery.Proofs.Grammar.Operand

/-! Conditions read from tokens. -/
namespace VectorQuery.Grammar

variable {levels : Nat}

theorem negation_sound :
    Sound (accept (.keyword .not)) NegationPhrase := by
  intro tokens found rest read
  rcases accept_ok_cases read with ⟨token, rfl, rfl, denies⟩ | ⟨rfl, rfl, _⟩
  · exact ⟨[token], rfl, .present denies⟩
  · exact ⟨[], rfl, .absent⟩

theorem predicate_sound (levels : Nat) (target : Operand) :
    Sound (predicate levels target) (PredicatePhrase levels target) := by
  intro tokens condition rest read
  rw [predicate, bind_of_ok (peek_apply tokens)] at read
  generalize same : (tokens.head?.map Token.kind).bind TokenKind.comparator? = comparator at read
  cases comparator with
  | some comparator =>
    simp only [bind_ok_iff, token_ok_iff, pure_ok_iff] at read
    obtain ⟨token, middle, rfl, right, after, taken, rfl, rfl⟩ := read
    obtain ⟨others, rfl, phrase⟩ := operand_sound levels taken
    exact ⟨token :: others, rfl, .compare (by simpa using same) phrase⟩
  | none =>
    simp only [↓accept_bind_ok_iff, bind_ok_iff, expect_ok_iff, text_ok_iff, keyword,
      pure_ok_iff] at read
    rcases read with ⟨word, middle, rfl, is, negated, after, denied, _, _, ⟨null, rfl, isNull⟩, rfl, rfl⟩ |
      ⟨_, negated, after, denied, read⟩
    · obtain ⟨negation, rfl, phrase⟩ := negation_sound denied
      exact ⟨word :: negation ++ [null], by simp, .isNull is phrase isNull⟩
    · obtain ⟨negation, rfl, phrase⟩ := negation_sound denied
      rcases read with ⟨word, _, rfl, like, _, _, ⟨pattern, rfl, text, rfl⟩, rfl, rfl⟩ |
        ⟨_, ⟨word, _, rfl, between, low, _, least, _, _, ⟨conjunction, rfl, and⟩, high, _, most, rfl, rfl⟩ |
        ⟨_, ⟨word, _, rfl, within, items, _, inner, rfl, rfl⟩ | ⟨_, refused⟩⟩⟩
      · exact ⟨negation ++ [word, pattern], by simp, .like phrase like text⟩
      · obtain ⟨first, rfl, low⟩ := operand_sound levels least
        obtain ⟨last, rfl, high⟩ := operand_sound levels most
        exact ⟨negation ++ word :: first ++ conjunction :: last, by simp,
          .between phrase between low and high⟩
      · obtain ⟨list, rfl, items⟩ := list_sound levels inner
        exact ⟨negation ++ word :: list, by simp, .within phrase within items⟩
      · exact absurd refused refuse_ne_ok

theorem containment_sound {function : Containment} {token : Token} {tokens rest : List Token}
    {condition : Condition} (named : token.kind.containment? = some function)
    (read : containment levels function (token :: tokens) = .ok (condition, rest)) :
    ∃ read, token :: tokens = read ++ rest ∧ ContainmentPhrase levels read condition := by
  rw [containment] at read
  simp only [comma, ↓accept_bind_ok_iff, bind_ok_iff, token_ok_iff, bracketed_ok_iff,
    List.cons.injEq, pure_ok_iff] at read
  obtain ⟨_, _, ⟨rfl, rfl⟩, opening, closing, _, rfl, opens, ⟨target, _, inner, read⟩, closes⟩ := read
  obtain ⟨path, rfl, target⟩ := path_sound inner
  rcases read with ⟨comma, _, rfl, separates, value, _, taken, rfl, rfl⟩ | ⟨_, rfl, rfl⟩
  · obtain ⟨others, rfl, value⟩ := value_sound levels taken
    exact ⟨_ :: opening :: path ++ comma :: others ++ [closing], by simp,
      .value named opens target separates value closes⟩
  · exact ⟨_ :: opening :: path ++ [closing], by simp, .alone named opens target closes⟩

/-- What a condition starts with: the whole of it, or its operand. -/
def LeadPhrase (levels : Nat) (tokens : List Token) : Lead → Prop
  | .condition condition => UnaryPhrase levels tokens condition
  | .operand operand => OperandPhrase levels tokens operand

/-- What `NOT` or a round bracket opens. -/
def NestedPhrase (levels : Nat) (tokens : List Token) : Lead → Prop
  | .condition condition => UnaryPhrase levels tokens condition
  | .operand operand => PrimaryPhrase levels tokens operand

section
variable {nested : Rule Lead} (deeper : Sound nested (NestedPhrase levels))
include deeper

theorem leadWith_sound : Sound (leadWith levels nested) (LeadPhrase levels) := by
  intro tokens lead rest read
  rw [leadWith, bind_of_ok (peek_apply tokens)] at read
  split at read
  · rw [bind_ok_iff] at read
    obtain ⟨inner, middle, taken, read⟩ := read
    obtain ⟨start, rfl, phrase⟩ := deeper taken
    cases inner with
    | condition condition =>
      obtain ⟨rfl, rfl⟩ := pure_ok_iff.mp read
      exact ⟨start, rfl, phrase⟩
    | operand first =>
      simp only [bind_ok_iff, pure_ok_iff] at read
      obtain ⟨operand, after, continued, rfl, rfl⟩ := read
      obtain ⟨others, rfl, whole⟩ := operations_sound (.term (.unsigned phrase)) continued
      exact ⟨start ++ others, by simp, whole⟩
  · generalize same : (tokens.head?.map Token.kind).bind TokenKind.containment? = function at read
    cases function with
    | some function =>
      simp only [bind_ok_iff, pure_ok_iff] at read
      obtain ⟨condition, after, taken, rfl, rfl⟩ := read
      cases tokens with
      | nil => contradiction
      | cons token tail =>
        obtain ⟨start, split, phrase⟩ := containment_sound (by simpa using same) taken
        exact ⟨start, split, .containment phrase⟩
    | none =>
      simp only [bind_ok_iff, pure_ok_iff] at read
      obtain ⟨operand, after, taken, rfl, rfl⟩ := read
      exact operand_sound levels taken

theorem unaryWith_sound : Sound (unaryWith levels nested) (UnaryPhrase levels) := by
  intro tokens condition rest read
  rw [unaryWith, bind_ok_iff] at read
  obtain ⟨lead, middle, start, read⟩ := read
  obtain ⟨taken, rfl, phrase⟩ := leadWith_sound deeper start
  cases lead with
  | condition condition =>
    obtain ⟨rfl, rfl⟩ := pure_ok_iff.mp read
    exact ⟨taken, rfl, phrase⟩
  | operand target =>
    obtain ⟨others, rfl, said⟩ := predicate_sound levels target read
    exact ⟨taken ++ others, by simp, .predicate phrase said⟩

end

theorem connective_ok_cases {unary : Rule Condition} {tokens rest : List Token}
    {found : Option (Connective × Condition)} (read : connective unary tokens = .ok (found, rest)) :
    (∃ token middle connective right, found = some (connective, right) ∧ tokens = token :: middle ∧
      (token.kind = .keyword .and ∧ connective = .conjunction ∨
        token.kind = .keyword .or ∧ connective = .disjunction) ∧
      unary middle = .ok (right, rest)) ∨
    found = none ∧ rest = tokens := by
  rw [connective] at read
  simp only [↓accept_bind_ok_iff, bind_ok_iff, pure_ok_iff] at read
  rcases read with ⟨token, middle, rfl, and, right, after, taken, rfl, rfl⟩ |
    ⟨_, ⟨token, middle, rfl, or, right, after, taken, rfl, rfl⟩ | ⟨_, rfl, rfl⟩⟩
  · exact .inl ⟨token, middle, _, right, rfl, rfl, .inl ⟨and, rfl⟩, taken⟩
  · exact .inl ⟨token, middle, _, right, rfl, rfl, .inr ⟨or, rfl⟩, taken⟩
  · exact .inr ⟨rfl, rfl⟩

theorem connective_consuming {unary : Rule Condition} (shrinking : Shrinking unary) :
    Consuming (connective unary) := by
  intro tokens value rest read
  rcases connective_ok_cases read with ⟨_, _, _, _, _, rfl, _, taken⟩ | ⟨absent, _⟩
  · have := shrinking taken
    simp only [List.length_cons]
    omega
  · contradiction

theorem connected_sound {unary : Rule Condition} (sound : Sound unary (UnaryPhrase levels))
    {first : Condition} {start : List Token} (phrase : ConditionsPhrase levels start first) :
    Sound (connected unary first) fun read condition =>
      ConditionsPhrase levels (start ++ read) condition := by
  intro tokens condition rest read
  simp only [connected, bind_ok_iff, pure_ok_iff] at read
  obtain ⟨connectives, middle, loop, rfl, rfl⟩ := read
  refine many_induction (connective_consuming sound.shrinking) (motive := fun tokens connectives rest =>
    ∀ first start, ConditionsPhrase levels start first → ∃ read, tokens = read ++ rest ∧
      ConditionsPhrase levels (start ++ read)
        (connectives.foldl (fun left step => step.1.join left step.2) first))
    ?_ ?_ loop first start phrase
  · intro tokens rest found first start phrase
    rcases connective_ok_cases found with ⟨_, _, _, _, present, _⟩ | ⟨_, rfl⟩
    · contradiction
    · exact ⟨[], rfl, by simpa using phrase⟩
  · intro tokens value middle connectives rest found ih first start phrase
    rcases connective_ok_cases found with ⟨token, middle, connective, right, present, rfl, joins, taken⟩ |
      ⟨absent, _⟩
    · obtain rfl := Option.some.inj present
      obtain ⟨read, rfl, right⟩ := sound taken
      rcases joins with ⟨and, rfl⟩ | ⟨or, rfl⟩
      · obtain ⟨others, rfl, whole⟩ := ih _ _ (.conjunction phrase and right)
        exact ⟨token :: read ++ others, by simp, by simpa [Connective.join] using whole⟩
      · obtain ⟨others, rfl, whole⟩ := ih _ _ (.disjunction phrase or right)
        exact ⟨token :: read ++ others, by simp, by simpa [Connective.join] using whole⟩
    · contradiction

/-- Round brackets hold conditions or an operand. -/
def HeldPhrase (levels : Nat) (tokens : List Token) : Lead → Prop
  | .condition condition => ConditionsPhrase levels tokens condition
  | .operand operand => OperandPhrase levels tokens operand

section
variable {nested : Rule Lead} (deeper : Sound nested (NestedPhrase levels))
include deeper

theorem heldWith_sound : Sound (heldWith levels nested) (HeldPhrase levels) := by
  intro tokens held rest read
  rw [heldWith, bind_ok_iff] at read
  obtain ⟨lead, middle, start, read⟩ := read
  obtain ⟨taken, rfl, phrase⟩ := leadWith_sound deeper start
  have unary := unaryWith_sound deeper
  cases lead with
  | condition first =>
    simp only [bind_ok_iff, pure_ok_iff] at read
    obtain ⟨condition, after, joined, rfl, rfl⟩ := read
    obtain ⟨others, rfl, whole⟩ := connected_sound unary (.unary phrase) joined
    exact ⟨taken ++ others, by simp, whole⟩
  | operand target =>
    simp only [bind_of_ok (peek_apply middle)] at read
    split at read
    · obtain ⟨rfl, rfl⟩ := pure_ok_iff.mp read
      exact ⟨taken, rfl, phrase⟩
    · simp only [bind_ok_iff, pure_ok_iff] at read
      obtain ⟨first, later, said, condition, after, joined, rfl, rfl⟩ := read
      obtain ⟨tail, rfl, predicate⟩ := predicate_sound levels target said
      obtain ⟨others, rfl, whole⟩ := connected_sound unary (.unary (.predicate phrase predicate)) joined
      exact ⟨taken ++ tail ++ others, by simp, whole⟩

theorem nestedWith_sound : Sound (nestedWith levels nested) (NestedPhrase (levels + 1)) := by
  intro tokens lead rest read
  rw [nestedWith, bind_of_ok (peek_apply tokens)] at read
  split at read
  · simp only [deniedWith, keyword, bind_ok_iff, expect_ok_iff, pure_ok_iff] at read
    obtain ⟨_, _, ⟨token, rfl, denies⟩, condition, after, denied, rfl, rfl⟩ := read
    obtain ⟨taken, rfl, phrase⟩ := unaryWith_sound deeper denied
    exact ⟨token :: taken, rfl, .negation denies phrase⟩
  · simp only [groupWith, bind_ok_iff, bracketed_ok_iff] at read
    obtain ⟨held, after, ⟨opening, closing, middle, rfl, opens, inner, closes⟩, read⟩ := read
    obtain ⟨taken, rfl, phrase⟩ := heldWith_sound deeper inner
    cases held with
    | condition condition =>
      obtain ⟨rfl, rfl⟩ := pure_ok_iff.mp read
      exact ⟨opening :: taken ++ [closing], by simp, .nested opens phrase closes⟩
    | operand operand =>
      obtain ⟨rfl, rfl⟩ := pure_ok_iff.mp read
      exact ⟨opening :: taken ++ [closing], by simp, .nested opens phrase closes⟩

end

theorem nestedLead_sound (levels : Nat) : Sound (nestedLead levels) (NestedPhrase levels) := by
  induction levels with
  | zero => exact tooDeep_sound _
  | succ levels ih => exact nestedWith_sound ih

theorem unary_sound (levels : Nat) : Sound (unary levels) (UnaryPhrase levels) :=
  unaryWith_sound (nestedLead_sound levels)

theorem conditions_sound (levels : Nat) : Sound (conditions levels) (ConditionsPhrase levels) := by
  intro tokens condition rest read
  rw [conditions, bind_ok_iff] at read
  obtain ⟨first, middle, start, read⟩ := read
  obtain ⟨taken, rfl, phrase⟩ := unary_sound levels start
  obtain ⟨others, rfl, whole⟩ := connected_sound (unary_sound levels) (.unary phrase) read
  exact ⟨taken ++ others, by simp, whole⟩

/-! Every phrase is read. -/

theorem negation_of_phrase {tokens : List Token} {negated : Bool}
    (phrase : NegationPhrase tokens negated) {rest : List Token} (lacks : Lacks (.keyword .not) rest) :
    accept (.keyword .not) (tokens ++ rest) = .ok (negated, rest) := by
  cases phrase with
  | absent => exact accept_of_lacks lacks
  | present denies => exact accept_cons denies rest

/-- What may be denied of an operand. -/
def deniable (levels : Nat) (target : Operand) (negated : Bool) : Rule Condition := do
  if ← accept (.keyword .like) then return .like target (← text) negated
  else if ← accept (.keyword .between) then
    let low ← operand levels
    keyword .and
    return .between target low (← operand levels) negated
  else if ← accept (.keyword .in) then return .within target (← list levels) negated
  else refuse

theorem predicate_of_deniable {target : Operand} {tokens : List Token} {negated : Bool}
    {word : Token} {name : Keyword} (negation : NegationPhrase tokens negated)
    (named : word.kind = .keyword name) (notIs : name ≠ .is) (notNot : name ≠ .not)
    (rest : List Token) :
    predicate levels target (tokens ++ word :: rest) =
      deniable levels target negated (word :: rest) := by
  have behind : Lacks (.keyword .not) (word :: rest) := lacks_cons (by simpa [named]) rest
  have comparator : ((tokens ++ word :: rest).head?.map Token.kind).bind TokenKind.comparator? = none := by
    cases negation with
    | absent => simp [named, TokenKind.comparator?]
    | present denies => simp [denies, TokenKind.comparator?]
  have lacksIs : Lacks (.keyword .is) (tokens ++ word :: rest) := by
    cases negation with
    | absent => exact lacks_cons (by simpa [named]) rest
    | present denies => exact lacks_cons (by simp [denies]) _
  rw [predicate, bind_of_ok (peek_apply _)]
  simp only [comparator]
  rw [accept_bind_of_lacks lacksIs, bind_of_ok (negation_of_phrase negation behind)]
  rfl

theorem predicate_of_phrase {target : Operand} {tokens : List Token} {condition : Condition}
    (phrase : PredicatePhrase levels target tokens condition) {rest : List Token}
    (ends : EndsOperand rest) :
    predicate levels target (tokens ++ rest) = .ok (condition, rest) := by
  cases phrase with
  | compare meaning right =>
    rw [predicate, bind_of_ok (peek_apply _)]
    simp only [List.cons_append, List.head?_cons, Option.map_some, Option.bind_some, meaning]
    rw [bind_of_ok (token_ok_iff.mpr rfl), bind_of_ok (right.reads ends), pure_apply]
  | @isNull word null tokens negated is negation isNull =>
    have behind : Lacks (.keyword .not) (null :: rest) := lacks_cons (by simp [isNull]) rest
    rw [predicate, bind_of_ok (peek_apply _)]
    simp only [List.cons_append, List.append_assoc, List.nil_append, List.head?_cons,
      Option.map_some, is, Option.bind_some, TokenKind.comparator?]
    rw [accept_bind_cons is, bind_of_ok (negation_of_phrase negation behind),
      bind_of_ok (expect_cons isNull rest), pure_apply]
  | @like word pattern tokens negated negation like isText =>
    have content : text (pattern :: rest) = .ok (pattern.text, rest) :=
      text_ok_iff.mpr ⟨pattern, rfl, isText, rfl⟩
    simp only [List.append_assoc, List.cons_append, List.nil_append]
    rw [predicate_of_deniable negation like (by decide) (by decide), deniable,
      accept_bind_cons like, bind_of_ok content, pure_apply]
  | @between word conjunction tokens least most low high negated negation between lower and upper =>
    have middle : EndsOperand (conjunction :: (most ++ rest)) :=
      endsOperand_cons (by simp [and, TokenKind.endsOperand]) _
    have notLike : Lacks (.keyword .like) (word :: (least ++ conjunction :: (most ++ rest))) :=
      lacks_cons (by simp [between]) _
    simp only [List.append_assoc, List.cons_append]
    rw [predicate_of_deniable negation between (by decide) (by decide), deniable,
      accept_bind_of_lacks notLike, accept_bind_cons between, bind_of_ok (lower.reads middle),
      keyword, bind_of_ok (expect_cons and _), bind_of_ok (upper.reads ends), pure_apply]
  | @within word tokens list items negated negation within inner =>
    have lacks (name : Keyword) (differs : name ≠ .in) :
        Lacks (.keyword name) (word :: (list ++ rest)) := lacks_cons (by simpa [within] using differs.symm) _
    simp only [List.append_assoc, List.cons_append]
    rw [predicate_of_deniable negation within (by decide) (by decide), deniable,
      accept_bind_of_lacks (lacks .like (by decide)),
      accept_bind_of_lacks (lacks .between (by decide)), accept_bind_cons within,
      bind_of_ok (inner.reads rest), pure_apply]

theorem containment_of_phrase {tokens : List Token} {condition : Condition}
    (phrase : ContainmentPhrase levels tokens condition) (rest : List Token) :
    ∃ word others function, tokens = word :: others ∧ word.kind.containment? = some function ∧
      containment levels function (tokens ++ rest) = .ok (condition, rest) := by
  cases phrase with
  | @alone word opening closing tokens function target named opens phrase closes =>
    refine ⟨word, _, function, rfl, named, ?_⟩
    have ends : EndsOperand (closing :: rest) :=
      endsOperand_cons (by simp [closes, TokenKind.endsOperand]) rest
    have lacks : Lacks (.separator .comma) (closing :: rest) := lacks_cons (by simp [closes]) rest
    simp only [List.cons_append, List.append_assoc, List.nil_append]
    rw [containment, bind_of_ok (token_ok_iff.mpr rfl)]
    refine bracketed_ok_iff.mpr ⟨opening, closing, _, rfl, opens, ?_, closes⟩
    rw [bind_of_ok (path_of_phrase phrase ends.1), comma, accept_bind_of_lacks lacks, pure_apply]
  | @value word opening comma closing tokens others function target value named opens phrase
      separates inner closes =>
    refine ⟨word, _, function, rfl, named, ?_⟩
    have ends : EndsOperand (comma :: (others ++ closing :: rest)) :=
      endsOperand_cons (by simp [separates, TokenKind.endsOperand]) _
    simp only [List.cons_append, List.append_assoc, List.nil_append]
    rw [containment, bind_of_ok (token_ok_iff.mpr rfl)]
    refine bracketed_ok_iff.mpr ⟨opening, closing, _, rfl, opens, ?_, closes⟩
    rw [bind_of_ok (path_of_phrase phrase ends.1), Grammar.comma, accept_bind_cons separates,
      bind_of_ok (inner.reads _), pure_apply]

end VectorQuery.Grammar
