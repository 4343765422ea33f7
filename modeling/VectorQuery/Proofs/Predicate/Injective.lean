import VectorQuery.Proofs.Grammar.Condition
import VectorQuery.Proofs.Predicate.Condition

/-! The predicate of a filter loses nothing. Two filters of statements that compile to
one predicate differ at most in how they spell a denial or a negative number. -/
namespace VectorQuery

/-- The identifiers among the tokens are names, as they are in every statement. -/
def Named (tokens : List Token) : Prop :=
  ∀ token ∈ tokens, token.kind = .identifier → IsName token.text

theorem Named.left {tokens others : List Token} (named : Named (tokens ++ others)) : Named tokens :=
  fun token inside => named token (List.mem_append_left others inside)

theorem Named.right {tokens others : List Token} (named : Named (tokens ++ others)) : Named others :=
  fun token inside => named token (List.mem_append_right tokens inside)

theorem Named.tail {token : Token} {tokens : List Token} (named : Named (token :: tokens)) :
    Named tokens :=
  fun other inside => named other (List.mem_cons_of_mem token inside)

theorem SegmentPhrase.named {tokens : List Token} {segment : PathSegment}
    (phrase : SegmentPhrase tokens segment) (named : Named tokens) : segment.IsNamed := by
  cases phrase with
  | key | index => trivial
  | @field dot token _ identifier => exact named token (by simp) identifier

theorem SegmentsPhrase.named {tokens : List Token} {segments : List PathSegment}
    (phrase : SegmentsPhrase tokens segments) (named : Named tokens) :
    ∀ segment ∈ segments, segment.IsNamed := by
  induction phrase with
  | none => simp
  | more first _ ih =>
    intro segment inside
    rcases List.mem_cons.mp inside with rfl | inside
    · exact first.named named.left
    · exact ih named.right segment inside

theorem PathPhrase.named {tokens : List Token} {path : Path} (phrase : PathPhrase tokens path)
    (named : Named tokens) : path.IsNamed := by
  cases phrase with
  | @path root _ _ identifier segments =>
    exact ⟨named root (by simp) identifier, segments.named named.tail⟩

/-- Every float in the operand is a number. -/
def Operand.isFinite : Operand → Bool
  | .path _ | .arrayLength _ => true
  | .literal value => value.isFinite
  | .signed _ operand => operand.isFinite
  | .binary left _ right => left.isFinite && right.isFinite
  | .nested operand => operand.isFinite

mutual
theorem OperandPhrase.wellFormed {levels : Nat} {tokens : List Token} {operand : Operand} :
    OperandPhrase levels tokens operand → Named tokens → operand.isFinite = true →
      operand.WellFormed
  | .term phrase, named, finite => (phrase.wellFormed named finite).2
  | .operation left _ right, named, finite => by
    simp only [Operand.isFinite, Bool.and_eq_true] at finite
    obtain ⟨term, formed⟩ := right.wellFormed named.right.tail finite.2
    exact ⟨left.wellFormed named.left finite.1, term, formed⟩
  | .glued left _ _, named, finite => by
    simp only [Operand.isFinite, Bool.and_eq_true] at finite
    exact ⟨left.wellFormed named.left finite.1, rfl, finite.2⟩

theorem TermPhrase.wellFormed {levels : Nat} {tokens : List Token} {operand : Operand} :
    TermPhrase levels tokens operand → Named tokens → operand.isFinite = true →
      operand.isTerm = true ∧ operand.WellFormed
  | .unsigned phrase, named, finite => by
    obtain ⟨primary, formed⟩ := phrase.wellFormed named finite
    exact ⟨Operand.isTerm_of_isPrimary primary, formed⟩
  | .signed _ phrase, named, finite => ⟨rfl, phrase.wellFormed named.tail finite⟩

theorem PrimaryPhrase.wellFormed {levels : Nat} {tokens : List Token} {operand : Operand} :
    PrimaryPhrase levels tokens operand → Named tokens → operand.isFinite = true →
      operand.isPrimary = true ∧ operand.WellFormed
  | .literal _, _, finite => ⟨rfl, finite⟩
  | .list _, _, finite => ⟨rfl, finite⟩
  | .path phrase, named, _ => ⟨rfl, phrase.named named⟩
  | .arrayLength _ _ phrase _, named, _ => ⟨rfl, phrase.named named.tail.tail.left⟩
  | .nested _ phrase _, named, finite => ⟨rfl, phrase.wellFormed named.tail.left finite⟩
end

namespace Condition

/-- Every float in the condition is a number. -/
def isFinite : Condition → Bool
  | .compare left _ right => left.isFinite && right.isFinite
  | .like target _ _ => target.isFinite
  | .between target low high _ => target.isFinite && low.isFinite && high.isFinite
  | .within target items _ => target.isFinite && Value.areFinite items
  | .isNull target _ => target.isFinite
  | .contains _ _ value => value.all Value.isFinite
  | .negation condition => condition.isFinite
  | .conjunction left right => left.isFinite && right.isFinite
  | .disjunction left right => left.isFinite && right.isFinite
  | .nested condition => condition.isFinite

theorem wellFormed_deniedIf {negated : Bool} {condition : Condition}
    (formed : condition.WellFormed) : (deniedIf negated condition).WellFormed := by
  cases negated <;> exact formed

end Condition

theorem PredicatePhrase.wellFormed {levels : Nat} {target : Operand} {tokens : List Token}
    {condition : Condition} (phrase : PredicatePhrase levels target tokens condition)
    (named : Named tokens) (formed : target.WellFormed) (finite : condition.isFinite = true) :
    condition.spelled.WellFormed := by
  cases phrase with
  | compare _ right =>
    simp only [Condition.isFinite, Bool.and_eq_true] at finite
    exact ⟨formed, right.wellFormed named.tail finite.2⟩
  | isNull => exact formed
  | like => exact Condition.wellFormed_deniedIf ⟨formed, rfl⟩
  | between _ _ low _ high =>
    simp only [Condition.isFinite, Bool.and_eq_true] at finite
    exact ⟨formed, low.wellFormed named.left.right.tail finite.1.2,
      high.wellFormed named.right.tail finite.2⟩
  | within =>
    simp only [Condition.isFinite, Bool.and_eq_true] at finite
    exact Condition.wellFormed_deniedIf ⟨formed, finite.2, rfl⟩

theorem PredicatePhrase.target_isFinite {levels : Nat} {target : Operand} {tokens : List Token}
    {condition : Condition} (phrase : PredicatePhrase levels target tokens condition)
    (finite : condition.isFinite = true) : target.isFinite = true := by
  cases phrase <;> simp_all [Condition.isFinite]

theorem ContainmentPhrase.wellFormed {levels : Nat} {tokens : List Token} {condition : Condition}
    (phrase : ContainmentPhrase levels tokens condition) (named : Named tokens)
    (finite : condition.isFinite = true) : condition.spelled.WellFormed := by
  cases phrase with
  | alone _ _ path _ => exact ⟨path.named named.tail.tail.left, by simp⟩
  | value _ _ path _ _ _ =>
    refine ⟨path.named named.left.left.tail.tail, fun inner inside => ?_⟩
    obtain rfl := Option.some.inj inside
    exact finite

mutual
/-- Conditions of statements are well formed once their denials are spelled out. -/
theorem ConditionsPhrase.wellFormed {levels : Nat} {tokens : List Token} {condition : Condition} :
    ConditionsPhrase levels tokens condition → Named tokens → condition.isFinite = true →
      condition.spelled.WellFormed
  | .unary phrase, named, finite => phrase.wellFormed named finite
  | .conjunction left _ right, named, finite => by
    simp only [Condition.isFinite, Bool.and_eq_true] at finite
    exact ⟨left.wellFormed named.left finite.1, right.wellFormed named.right.tail finite.2⟩
  | .disjunction left _ right, named, finite => by
    simp only [Condition.isFinite, Bool.and_eq_true] at finite
    exact ⟨left.wellFormed named.left finite.1, right.wellFormed named.right.tail finite.2⟩

theorem UnaryPhrase.wellFormed {levels : Nat} {tokens : List Token} {condition : Condition} :
    UnaryPhrase levels tokens condition → Named tokens → condition.isFinite = true →
      condition.spelled.WellFormed
  | .negation _ phrase, named, finite => phrase.wellFormed named.tail finite
  | .nested _ phrase _, named, finite => phrase.wellFormed named.tail.left finite
  | .containment phrase, named, finite => phrase.wellFormed named finite
  | .predicate operand phrase, named, finite =>
    phrase.wellFormed named.right
      (operand.wellFormed named.left (phrase.target_isFinite finite)) finite
end

namespace Condition

/-- The rule for filters reads the condition somewhere in the tokens of a statement, with
some number of levels. -/
def IsRead (condition : Condition) : Prop :=
  ∃ text statement tokens rest levels, Token.sequence text = .ok statement ∧
    tokens <:+ statement ∧ Grammar.conditions levels tokens = .ok (condition, rest)

theorem IsRead.wellFormed {condition : Condition} (read : condition.IsRead)
    (finite : condition.isFinite = true) : condition.spelled.WellFormed := by
  obtain ⟨text, statement, tokens, rest, levels, lexed, ⟨before, rfl⟩, parsed⟩ := read
  obtain ⟨taken, rfl, phrase⟩ := Grammar.conditions_sound levels parsed
  have named : Named (before ++ (taken ++ rest)) := Token.sequence_names lexed
  exact phrase.wellFormed named.right.left finite

/-- Filters share a predicate only where a denied `LIKE` or `IN` stands for its bracketed
denial, or a minus before a number for the negative number. -/
theorem normal_eq_of_predicate_eq {condition condition' : Condition} (read : condition.IsRead)
    (read' : condition'.IsRead) (finite : condition.isFinite = true)
    (finite' : condition'.isFinite = true) (same : condition.predicate = condition'.predicate) :
    condition.normal = condition'.normal := by
  have characters : condition.spelled.characters ++ [] = condition'.spelled.characters ++ [] := by
    rw [Condition.characters, Condition.characters, predicate_spelled, predicate_spelled, same]
  have ends : EndsPredicate [] := by simp [EndsPredicate]
  have equal := (told (read.wellFormed finite) (read'.wellFormed finite') ends ends characters).1
  rwa [normal_spelled, normal_spelled] at equal

/-- `a not like 'x'` and `(not a like 'x')` share a predicate. -/
theorem normal_eq_of_denied_like :
    let denied : Condition := .like (.path ⟨"a", []⟩) "x" true
    let denial : Condition := .nested (.negation (.like (.path ⟨"a", []⟩) "x" false))
    denied.IsRead ∧ denial.IsRead ∧ denied.isFinite = true ∧ denial.isFinite = true ∧
      denied.predicate = denial.predicate ∧ denied.normal = denial.normal := by
  intro denied denial
  let tokens : List Token :=
    [⟨.identifier, "a", 1, 1⟩, ⟨.keyword .not, "NOT", 1, 3⟩, ⟨.keyword .like, "LIKE", 1, 7⟩,
      ⟨.literal .text, "x", 1, 12⟩]
  let tokens' : List Token :=
    [⟨.operator .openParen, "(", 1, 1⟩, ⟨.keyword .not, "NOT", 1, 2⟩, ⟨.identifier, "a", 1, 6⟩,
      ⟨.keyword .like, "LIKE", 1, 8⟩, ⟨.literal .text, "x", 1, 13⟩,
      ⟨.operator .closeParen, ")", 1, 16⟩]
  have read : denied.IsRead :=
    ⟨"a not like 'x'", tokens, tokens, [], 8, rfl, List.suffix_refl _, rfl⟩
  have read' : denial.IsRead :=
    ⟨"(not a like 'x')", tokens', tokens', [], 8, rfl, List.suffix_refl _, rfl⟩
  have same : denied.predicate = denial.predicate := by decide +kernel
  exact ⟨read, read', rfl, rfl, same, normal_eq_of_predicate_eq read read' rfl rfl same⟩

end Condition

end VectorQuery
