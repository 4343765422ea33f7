import VectorQuery.Grammar.Filter

/-! The written grammar of filters, over tokens. A phrase says which tokens stand for
which tree, one constructor for each production and whatever follows the tokens.
`levels` bounds how many brackets, lists, objects and `NOT` are open at once; the
grammar without a bound is the union over all of them. -/
namespace VectorQuery

/-- A comma that may be left out. -/
inductive OptionalComma : List Token → Prop
  | absent : OptionalComma []
  | present {comma : Token} :
      comma.kind = .separator .comma → OptionalComma [comma]

mutual
/-- A literal, a list or an object. -/
inductive ValuePhrase : Nat → List Token → Value → Prop
  | literal {levels : Nat} {token : Token} {value : Value} :
      token.literal? = some value → ValuePhrase levels [token] value
  | list {levels : Nat} {tokens : List Token} {items : List Value} :
      ListPhrase levels tokens items → ValuePhrase levels tokens (.array items)
  | mapping {levels : Nat} {tokens : List Token} {mapping : Mapping} :
      MappingPhrase levels tokens mapping → ValuePhrase levels tokens mapping.toValue

/-- `[` items `]`. -/
inductive ListPhrase : Nat → List Token → List Value → Prop
  | empty {levels : Nat} {opening closing : Token} :
      opening.kind = .operator .openBracket → closing.kind = .operator .closeBracket →
      ListPhrase (levels + 1) [opening, closing] []
  | items {levels : Nat} {opening closing : Token} {tokens : List Token} {items : List Value} :
      opening.kind = .operator .openBracket → ItemsPhrase levels tokens items →
      closing.kind = .operator .closeBracket →
      ListPhrase (levels + 1) (opening :: tokens ++ [closing]) items

/-- A value, or several with a comma between neighbours. -/
inductive ItemsPhrase : Nat → List Token → List Value → Prop
  | one {levels : Nat} {tokens : List Token} {item : Value} :
      ValuePhrase levels tokens item → ItemsPhrase levels tokens [item]
  | more {levels : Nat} {first others : List Token} {comma : Token} {item : Value}
      {items : List Value} :
      ValuePhrase levels first item → comma.kind = .separator .comma →
      ItemsPhrase levels others items →
      ItemsPhrase levels (first ++ comma :: others) (item :: items)

/-- Entries between braces. A key that comes again keeps its place and takes the later
value. -/
inductive MappingPhrase : Nat → List Token → Mapping → Prop
  | entries {levels : Nat} {opening closing : Token} {tokens : List Token}
      {entries : List (String × Value)} :
      opening.kind = .operator .openBrace → EntriesPhrase levels tokens entries →
      closing.kind = .operator .closeBrace →
      MappingPhrase (levels + 1) (opening :: tokens ++ [closing]) (Mapping.ofList entries)

/-- A comma may stand before every key and before the end. -/
inductive EntriesPhrase : Nat → List Token → List (String × Value) → Prop
  | none {levels : Nat} {tokens : List Token} :
      OptionalComma tokens → EntriesPhrase levels tokens []
  | more {levels : Nat} {separator first others : List Token} {key colon : Token} {value : Value}
      {entries : List (String × Value)} :
      OptionalComma separator → key.kind = .literal .text → colon.kind = .operator .colon →
      ValuePhrase levels first value → EntriesPhrase levels others entries →
      EntriesPhrase levels (separator ++ key :: colon :: first ++ others)
        ((key.text, value) :: entries)
end

/-- A subscript in square brackets or a field behind a point. -/
inductive SegmentPhrase : List Token → PathSegment → Prop
  | key {opening token closing : Token} :
      opening.kind = .operator .openBracket → token.kind = .literal .text →
      closing.kind = .operator .closeBracket →
      SegmentPhrase [opening, token, closing] (.key token.text)
  | index {opening token closing : Token} {index : Int64} :
      opening.kind = .operator .openBracket → token.kind = .literal .integer →
      readInteger? token.text.toList = some index → closing.kind = .operator .closeBracket →
      SegmentPhrase [opening, token, closing] (.index index)
  | field {dot token : Token} :
      dot.kind = .operator .dot → token.kind = .identifier →
      SegmentPhrase [dot, token] (.field token.text)

theorem SegmentPhrase.length_pos {tokens : List Token} {segment : PathSegment}
    (phrase : SegmentPhrase tokens segment) : 0 < tokens.length := by
  cases phrase <;> simp

inductive SegmentsPhrase : List Token → List PathSegment → Prop
  | none : SegmentsPhrase [] []
  | more {first others : List Token} {segment : PathSegment} {segments : List PathSegment} :
      SegmentPhrase first segment → SegmentsPhrase others segments →
      SegmentsPhrase (first ++ others) (segment :: segments)

inductive PathPhrase : List Token → Path → Prop
  | path {root : Token} {tokens : List Token} {segments : List PathSegment} :
      root.kind = .identifier → SegmentsPhrase tokens segments →
      PathPhrase (root :: tokens) ⟨root.text, segments⟩

mutual
/-- Terms with operations between them, grouped from the left. A number whose minus
sign stands against it is subtracted without its sign. -/
inductive OperandPhrase : Nat → List Token → Operand → Prop
  | term {levels : Nat} {tokens : List Token} {operand : Operand} :
      TermPhrase levels tokens operand → OperandPhrase levels tokens operand
  | operation {levels : Nat} {tokens others : List Token} {left right : Operand} {token : Token}
      {operation : Arithmetic} :
      OperandPhrase levels tokens left → token.kind.arithmetic? = some operation →
      TermPhrase levels others right →
      OperandPhrase levels (tokens ++ token :: others) (.binary left operation right)
  | glued {levels : Nat} {tokens : List Token} {left : Operand} {token : Token} {value : Value} :
      OperandPhrase levels tokens left → token.isGlued = true →
      token.unsigned.literal? = some value →
      OperandPhrase levels (tokens ++ [token]) (.binary left .subtract (.literal value))

/-- An operand without operations, with at most one sign. -/
inductive TermPhrase : Nat → List Token → Operand → Prop
  | unsigned {levels : Nat} {tokens : List Token} {operand : Operand} :
      PrimaryPhrase levels tokens operand → TermPhrase levels tokens operand
  | signed {levels : Nat} {tokens : List Token} {operand : Operand} {token : Token}
      {sign : Sign} :
      token.kind.sign? = some sign → PrimaryPhrase levels tokens operand →
      TermPhrase levels (token :: tokens) (.signed sign operand)

inductive PrimaryPhrase : Nat → List Token → Operand → Prop
  | literal {levels : Nat} {token : Token} {value : Value} :
      token.literal? = some value → PrimaryPhrase levels [token] (.literal value)
  | list {levels : Nat} {tokens : List Token} {items : List Value} :
      ListPhrase levels tokens items → PrimaryPhrase levels tokens (.literal (.array items))
  | path {levels : Nat} {tokens : List Token} {path : Path} :
      PathPhrase tokens path → PrimaryPhrase levels tokens (.path path)
  | arrayLength {levels : Nat} {function opening closing : Token} {tokens : List Token}
      {path : Path} :
      function.kind = .keyword .arrayLength → opening.kind = .operator .openParen →
      PathPhrase tokens path → closing.kind = .operator .closeParen →
      PrimaryPhrase levels (function :: opening :: tokens ++ [closing]) (.arrayLength path)
  | nested {levels : Nat} {opening closing : Token} {tokens : List Token} {operand : Operand} :
      opening.kind = .operator .openParen → OperandPhrase levels tokens operand →
      closing.kind = .operator .closeParen →
      PrimaryPhrase (levels + 1) (opening :: tokens ++ [closing]) (.nested operand)
end

/-- `NOT` or nothing. -/
inductive NegationPhrase : List Token → Bool → Prop
  | absent : NegationPhrase [] false
  | present {token : Token} :
      token.kind = .keyword .not → NegationPhrase [token] true

/-- What is said of an operand. -/
inductive PredicatePhrase (levels : Nat) (target : Operand) : List Token → Condition → Prop
  | compare {token : Token} {tokens : List Token} {comparator : Comparator} {right : Operand} :
      token.kind.comparator? = some comparator → OperandPhrase levels tokens right →
      PredicatePhrase levels target (token :: tokens) (.compare target comparator right)
  | isNull {word null : Token} {tokens : List Token} {negated : Bool} :
      word.kind = .keyword .is → NegationPhrase tokens negated → null.kind = .literal .null →
      PredicatePhrase levels target (word :: tokens ++ [null]) (.isNull target negated)
  | like {word pattern : Token} {tokens : List Token} {negated : Bool} :
      NegationPhrase tokens negated → word.kind = .keyword .like → pattern.kind = .literal .text →
      PredicatePhrase levels target (tokens ++ [word, pattern]) (.like target pattern.text negated)
  | between {word conjunction : Token} {tokens least most : List Token} {low high : Operand}
      {negated : Bool} :
      NegationPhrase tokens negated → word.kind = .keyword .between →
      OperandPhrase levels least low → conjunction.kind = .keyword .and →
      OperandPhrase levels most high →
      PredicatePhrase levels target (tokens ++ word :: least ++ conjunction :: most)
        (.between target low high negated)
  | within {word : Token} {tokens list : List Token} {items : List Value} {negated : Bool} :
      NegationPhrase tokens negated → word.kind = .keyword .in → ListPhrase levels list items →
      PredicatePhrase levels target (tokens ++ word :: list) (.within target items negated)

/-- A containment function applied to a path and perhaps a value. -/
inductive ContainmentPhrase (levels : Nat) : List Token → Condition → Prop
  | alone {word opening closing : Token} {tokens : List Token} {function : Containment}
      {target : Path} :
      word.kind.containment? = some function → opening.kind = .operator .openParen →
      PathPhrase tokens target → closing.kind = .operator .closeParen →
      ContainmentPhrase levels (word :: opening :: tokens ++ [closing])
        (.contains function target none)
  | value {word opening comma closing : Token} {tokens others : List Token}
      {function : Containment} {target : Path} {value : Value} :
      word.kind.containment? = some function → opening.kind = .operator .openParen →
      PathPhrase tokens target → comma.kind = .separator .comma →
      ValuePhrase levels others value → closing.kind = .operator .closeParen →
      ContainmentPhrase levels (word :: opening :: tokens ++ comma :: others ++ [closing])
        (.contains function target (some value))

mutual
/-- Conditions with connectives between them, grouped from the left. -/
inductive ConditionsPhrase : Nat → List Token → Condition → Prop
  | unary {levels : Nat} {tokens : List Token} {condition : Condition} :
      UnaryPhrase levels tokens condition → ConditionsPhrase levels tokens condition
  | conjunction {levels : Nat} {tokens others : List Token} {token : Token}
      {left right : Condition} :
      ConditionsPhrase levels tokens left → token.kind = .keyword .and →
      UnaryPhrase levels others right →
      ConditionsPhrase levels (tokens ++ token :: others) (.conjunction left right)
  | disjunction {levels : Nat} {tokens others : List Token} {token : Token}
      {left right : Condition} :
      ConditionsPhrase levels tokens left → token.kind = .keyword .or →
      UnaryPhrase levels others right →
      ConditionsPhrase levels (tokens ++ token :: others) (.disjunction left right)

/-- A condition without connectives. -/
inductive UnaryPhrase : Nat → List Token → Condition → Prop
  | negation {levels : Nat} {token : Token} {tokens : List Token} {condition : Condition} :
      token.kind = .keyword .not → UnaryPhrase levels tokens condition →
      UnaryPhrase (levels + 1) (token :: tokens) (.negation condition)
  | nested {levels : Nat} {opening closing : Token} {tokens : List Token}
      {condition : Condition} :
      opening.kind = .operator .openParen → ConditionsPhrase levels tokens condition →
      closing.kind = .operator .closeParen →
      UnaryPhrase (levels + 1) (opening :: tokens ++ [closing]) (.nested condition)
  | containment {levels : Nat} {tokens : List Token} {condition : Condition} :
      ContainmentPhrase levels tokens condition → UnaryPhrase levels tokens condition
  | predicate {levels : Nat} {tokens others : List Token} {target : Operand}
      {condition : Condition} :
      OperandPhrase levels tokens target → PredicatePhrase levels target others condition →
      UnaryPhrase levels (tokens ++ others) condition
end

/-! No phrase nests deeper than it has tokens, so that many levels are enough for it. -/

mutual
theorem ValuePhrase.bounded {levels : Nat} {tokens : List Token} {value : Value} :
    ValuePhrase levels tokens value → ∀ bound, tokens.length ≤ bound →
      ValuePhrase bound tokens value
  | .literal meaning, _, _ => .literal meaning
  | .list phrase, bound, enough => .list (phrase.bounded bound enough)
  | .mapping phrase, bound, enough => .mapping (phrase.bounded bound enough)

theorem ListPhrase.bounded {levels : Nat} {tokens : List Token} {items : List Value} :
    ListPhrase levels tokens items → ∀ bound, tokens.length ≤ bound → ListPhrase bound tokens items
  | .empty opens closes, bound + 1, _ => .empty opens closes
  | .items opens phrase closes, bound + 1, enough =>
    .items opens (phrase.bounded bound (by simp at enough; omega)) closes

theorem ItemsPhrase.bounded {levels : Nat} {tokens : List Token} {items : List Value} :
    ItemsPhrase levels tokens items → ∀ bound, tokens.length ≤ bound →
      ItemsPhrase bound tokens items
  | .one phrase, bound, enough => .one (phrase.bounded bound enough)
  | .more first separates others, bound, enough => by
    simp only [List.length_append, List.length_cons] at enough
    exact .more (first.bounded bound (by omega)) separates (others.bounded bound (by omega))

theorem MappingPhrase.bounded {levels : Nat} {tokens : List Token} {mapping : Mapping} :
    MappingPhrase levels tokens mapping → ∀ bound, tokens.length ≤ bound →
      MappingPhrase bound tokens mapping
  | .entries opens phrase closes, bound + 1, enough =>
    .entries opens (phrase.bounded bound (by simp at enough; omega)) closes

theorem EntriesPhrase.bounded {levels : Nat} {tokens : List Token}
    {entries : List (String × Value)} :
    EntriesPhrase levels tokens entries → ∀ bound, tokens.length ≤ bound →
      EntriesPhrase bound tokens entries
  | .none separator, _, _ => .none separator
  | .more separator named maps value others, bound, enough => by
    simp only [List.length_append, List.length_cons] at enough
    exact .more separator named maps (value.bounded bound (by omega))
      (others.bounded bound (by omega))
end

mutual
theorem OperandPhrase.bounded {levels : Nat} {tokens : List Token} {operand : Operand} :
    OperandPhrase levels tokens operand → ∀ bound, tokens.length ≤ bound →
      OperandPhrase bound tokens operand
  | .term phrase, bound, enough => .term (phrase.bounded bound enough)
  | .operation left meaning right, bound, enough => by
    simp only [List.length_append, List.length_cons] at enough
    exact .operation (left.bounded bound (by omega)) meaning (right.bounded bound (by omega))
  | .glued left glued meaning, bound, enough => by
    simp only [List.length_append, List.length_cons] at enough
    exact .glued (left.bounded bound (by omega)) glued meaning

theorem TermPhrase.bounded {levels : Nat} {tokens : List Token} {operand : Operand} :
    TermPhrase levels tokens operand → ∀ bound, tokens.length ≤ bound →
      TermPhrase bound tokens operand
  | .unsigned phrase, bound, enough => .unsigned (phrase.bounded bound enough)
  | .signed meaning phrase, bound, enough =>
    .signed meaning (phrase.bounded bound (by simp at enough; omega))

theorem PrimaryPhrase.bounded {levels : Nat} {tokens : List Token} {operand : Operand} :
    PrimaryPhrase levels tokens operand → ∀ bound, tokens.length ≤ bound →
      PrimaryPhrase bound tokens operand
  | .literal meaning, _, _ => .literal meaning
  | .list phrase, bound, enough => .list (phrase.bounded bound enough)
  | .path phrase, _, _ => .path phrase
  | .arrayLength named opens phrase closes, _, _ => .arrayLength named opens phrase closes
  | .nested opens phrase closes, bound + 1, enough =>
    .nested opens (phrase.bounded bound (by simp at enough; omega)) closes
end

theorem PredicatePhrase.bounded {levels : Nat} {target : Operand} {tokens : List Token}
    {condition : Condition} (phrase : PredicatePhrase levels target tokens condition) (bound : Nat)
    (enough : tokens.length ≤ bound) : PredicatePhrase bound target tokens condition := by
  cases phrase with
  | compare meaning right => exact .compare meaning (right.bounded bound (by simp at enough; omega))
  | isNull is negation null => exact .isNull is negation null
  | like negation like pattern => exact .like negation like pattern
  | between negation between low and high =>
    simp only [List.length_append, List.length_cons] at enough
    exact .between negation between (low.bounded bound (by omega)) and
      (high.bounded bound (by omega))
  | within negation within list =>
    simp only [List.length_append, List.length_cons] at enough
    exact .within negation within (list.bounded bound (by omega))

theorem ContainmentPhrase.bounded {levels : Nat} {tokens : List Token} {condition : Condition}
    (phrase : ContainmentPhrase levels tokens condition) (bound : Nat)
    (enough : tokens.length ≤ bound) : ContainmentPhrase bound tokens condition := by
  cases phrase with
  | alone named opens target closes => exact .alone named opens target closes
  | value named opens target separates inner closes =>
    simp only [List.length_append, List.length_cons] at enough
    exact .value named opens target separates (inner.bounded bound (by omega)) closes

mutual
theorem ConditionsPhrase.bounded {levels : Nat} {tokens : List Token} {condition : Condition} :
    ConditionsPhrase levels tokens condition → ∀ bound, tokens.length ≤ bound →
      ConditionsPhrase bound tokens condition
  | .unary phrase, bound, enough => .unary (phrase.bounded bound enough)
  | .conjunction left joins right, bound, enough => by
    simp only [List.length_append, List.length_cons] at enough
    exact .conjunction (left.bounded bound (by omega)) joins (right.bounded bound (by omega))
  | .disjunction left joins right, bound, enough => by
    simp only [List.length_append, List.length_cons] at enough
    exact .disjunction (left.bounded bound (by omega)) joins (right.bounded bound (by omega))

theorem UnaryPhrase.bounded {levels : Nat} {tokens : List Token} {condition : Condition} :
    UnaryPhrase levels tokens condition → ∀ bound, tokens.length ≤ bound →
      UnaryPhrase bound tokens condition
  | .negation denies phrase, bound + 1, enough =>
    .negation denies (phrase.bounded bound (by simp at enough; omega))
  | .nested opens phrase closes, bound + 1, enough =>
    .nested opens (phrase.bounded bound (by simp at enough; omega)) closes
  | .containment phrase, bound, enough => .containment (phrase.bounded bound enough)
  | .predicate operand phrase, bound, enough => by
    simp only [List.length_append] at enough
    exact .predicate (operand.bounded bound (by omega)) (phrase.bounded bound (by omega))
end

/-- The tokens spell the condition, however deep it nests. -/
def FilterPhrase (tokens : List Token) (condition : Condition) : Prop :=
  ∃ levels, ConditionsPhrase levels tokens condition

theorem FilterPhrase.bounded {tokens : List Token} {condition : Condition}
    (phrase : FilterPhrase tokens condition) {levels : Nat} (enough : tokens.length ≤ levels) :
    ConditionsPhrase levels tokens condition := by
  obtain ⟨deep, phrase⟩ := phrase
  exact phrase.bounded levels enough

end VectorQuery
