import VectorQuery.Proofs.Grammar.ConditionComplete
import VectorQuery.Proofs.Grammar.Nesting

/-! How high the trees of conditions are. Connectives and operations group from the left and
open no level, so a tree is as high as its longest chain of them, whatever the limit; levels
and chains together bound it. -/
namespace VectorQuery

/-! Heights count every constructor on the way to the deepest leaf. -/

namespace Value

mutual
def height : Value → Nat
  | .array items => itemsHeight items + 1
  | .object entries => entriesHeight entries + 1
  | .null | .boolean _ | .integer _ | .float _ | .text _ => 1

def itemsHeight : List Value → Nat
  | [] => 0
  | item :: rest => max item.height (itemsHeight rest)

def entriesHeight : List (String × Value) → Nat
  | [] => 0
  | (_, value) :: rest => max value.height (entriesHeight rest)
end

mutual
theorem height_le_nesting : (value : Value) → value.height ≤ value.nesting + 1
  | .array items => Nat.succ_le_succ (itemsHeight_le_nesting items)
  | .object entries => Nat.succ_le_succ (entriesHeight_le_nesting entries)
  | .null | .boolean _ | .integer _ | .float _ | .text _ => Nat.le_refl 1

theorem itemsHeight_le_nesting : (items : List Value) → itemsHeight items ≤ itemsNesting items + 1
  | [] => Nat.zero_le _
  | item :: rest => by
    have := height_le_nesting item
    have := itemsHeight_le_nesting rest
    simp only [itemsHeight, itemsNesting]
    omega

theorem entriesHeight_le_nesting : (entries : List (String × Value)) →
    entriesHeight entries ≤ entriesNesting entries + 1
  | [] => Nat.zero_le _
  | (_, value) :: rest => by
    have := height_le_nesting value
    have := entriesHeight_le_nesting rest
    simp only [entriesHeight, entriesNesting]
    omega
end

theorem height_le {value : Value} {levels : Nat} (shallow : value.nesting ≤ levels) (links : Nat) :
    value.height ≤ levels * (links + 2) + 1 := by
  have low := value.height_le_nesting
  have most : levels ≤ levels * (links + 2) := Nat.le_mul_of_pos_right levels (Nat.succ_pos _)
  omega

end Value

namespace Operand

def height : Operand → Nat
  | .path _ | .arrayLength _ => 1
  | .literal value => value.height + 1
  | .signed _ operand | .nested operand => operand.height + 1
  | .binary left _ right => max left.height right.height + 1

/-- The operations of the chain that an operand is. -/
def links : Operand → Nat
  | .binary left _ _ => left.links + 1
  | .path _ | .arrayLength _ | .literal _ | .signed _ _ | .nested _ => 0

/-- The length of the longest chain of operations within. -/
def chain : Operand → Nat
  | .path _ | .arrayLength _ | .literal _ => 0
  | .signed _ operand | .nested operand => operand.chain
  | .binary left _ right => max (left.links + 1) (max left.chain right.chain)

theorem links_le_chain (operand : Operand) : operand.links ≤ operand.chain := by
  cases operand with
  | binary left _ right => exact Nat.le_max_left _ _
  | path _ | arrayLength _ | literal _ | signed _ _ | nested _ => exact Nat.zero_le _

theorem chain_lt_height (operand : Operand) : operand.chain < operand.height := by
  induction operand with
  | path _ | arrayLength _ | literal _ => exact Nat.succ_pos _
  | signed _ _ ih | nested _ ih => exact Nat.lt_succ_of_lt ih
  | binary left _ right first second =>
    have := left.links_le_chain
    simp only [chain, height]
    omega

end Operand

namespace Condition

def height : Condition → Nat
  | .compare left _ right => max left.height right.height + 1
  | .like target _ _ | .isNull target _ => target.height + 1
  | .between target low high _ => max target.height (max low.height high.height) + 1
  | .within target items _ => max target.height (Value.itemsHeight items) + 1
  | .contains _ _ value => value.elim 0 Value.height + 1
  | .negation condition | .nested condition => condition.height + 1
  | .conjunction left right | .disjunction left right => max left.height right.height + 1

/-- The connectives of the chain that a condition is. -/
def links : Condition → Nat
  | .conjunction left _ | .disjunction left _ => left.links + 1
  | .compare _ _ _ | .like _ _ _ | .between _ _ _ _ | .within _ _ _ | .isNull _ _
  | .contains _ _ _ | .negation _ | .nested _ => 0

/-- The length of the longest chain of connectives or operations within. -/
def chain : Condition → Nat
  | .compare left _ right => max left.chain right.chain
  | .like target _ _ | .isNull target _ | .within target _ _ => target.chain
  | .between target low high _ => max target.chain (max low.chain high.chain)
  | .contains _ _ _ => 0
  | .negation condition | .nested condition => condition.chain
  | .conjunction left right | .disjunction left right =>
    max (left.links + 1) (max left.chain right.chain)

theorem links_le_chain (condition : Condition) : condition.links ≤ condition.chain := by
  cases condition with
  | conjunction left right | disjunction left right => exact Nat.le_max_left _ _
  | compare _ _ _ | like _ _ _ | between _ _ _ _ | within _ _ _ | isNull _ _ | contains _ _ _
  | negation _ | nested _ => exact Nat.zero_le _

theorem chain_lt_height (condition : Condition) : condition.chain < condition.height := by
  induction condition with
  | compare left _ right =>
    have := left.chain_lt_height
    have := right.chain_lt_height
    simp only [chain, height]
    omega
  | like target _ _ | isNull target _ => exact Nat.lt_succ_of_lt target.chain_lt_height
  | between target low high _ =>
    have := target.chain_lt_height
    have := low.chain_lt_height
    have := high.chain_lt_height
    simp only [chain, height]
    omega
  | within target _ _ =>
    have := target.chain_lt_height
    simp only [chain, height]
    omega
  | contains _ _ _ => exact Nat.succ_pos _
  | negation _ ih | nested _ ih => exact Nat.lt_succ_of_lt ih
  | conjunction left right first second | disjunction left right first second =>
    have := left.links_le_chain
    simp only [chain, height]
    omega

end Condition

/-! What phrases spell. A level may hold a chain, which is higher than its links by what the
last of them is made of. -/

theorem Token.height_of_literal? {token : Token} {value : Value}
    (meaning : token.literal? = some value) : value.height ≤ 1 := by
  have := value.height_le_nesting
  rw [Token.nesting_of_literal? meaning] at this
  exact this

mutual
theorem OperandPhrase.height_le {levels : Nat} {tokens : List Token} {operand : Operand} {links : Nat} :
    OperandPhrase levels tokens operand → operand.chain ≤ links →
      operand.height ≤ levels * (links + 2) + 3 + operand.links
  | .term phrase, short => Nat.le_trans (phrase.height_le short) (Nat.le_add_right _ _)
  | .operation left _ right, short => by
    simp only [Operand.chain, Nat.max_le] at short
    have := left.height_le short.2.1
    have := right.height_le short.2.2
    simp only [Operand.height, Operand.links]
    omega
  | .glued left _ meaning, short => by
    simp only [Operand.chain, Nat.max_le] at short
    have := left.height_le short.2.1
    have := Token.height_of_literal? meaning
    simp only [Operand.height, Operand.links]
    omega

theorem TermPhrase.height_le {levels : Nat} {tokens : List Token} {operand : Operand} {links : Nat} :
    TermPhrase levels tokens operand → operand.chain ≤ links →
      operand.height ≤ levels * (links + 2) + 3
  | .unsigned phrase, short => Nat.le_succ_of_le (phrase.height_le short)
  | .signed _ phrase, short => Nat.succ_le_succ (phrase.height_le short)

theorem PrimaryPhrase.height_le {levels : Nat} {tokens : List Token} {operand : Operand}
    {links : Nat} : PrimaryPhrase levels tokens operand → operand.chain ≤ links →
      operand.height ≤ levels * (links + 2) + 2
  | .literal meaning, _ => by
    have := Token.height_of_literal? meaning
    simp only [Operand.height]
    omega
  | .list phrase, _ => Nat.succ_le_succ (Value.height_le phrase.nesting_le links)
  | .path _, _ => by
    simp only [Operand.height]
    omega
  | .arrayLength _ _ _ _, _ => by
    simp only [Operand.height]
    omega
  | @PrimaryPhrase.nested levels _ _ _ operand _ phrase _, short => by
    have within : operand.chain ≤ links := short
    have := phrase.height_le within
    have := operand.links_le_chain
    simp only [Operand.height, Nat.succ_mul]
    omega
end

theorem OperandPhrase.height_le_chain {levels links : Nat} {tokens : List Token}
    {operand : Operand} (phrase : OperandPhrase levels tokens operand)
    (short : operand.chain ≤ links) : operand.height ≤ levels * (links + 2) + 3 + links :=
  Nat.le_trans (phrase.height_le short)
    (Nat.add_le_add_left (Nat.le_trans operand.links_le_chain short) _)

theorem PredicatePhrase.target_chain_le {levels : Nat} {target : Operand} {tokens : List Token}
    {condition : Condition} (phrase : PredicatePhrase levels target tokens condition) :
    target.chain ≤ condition.chain := by
  cases phrase with
  | compare _ _ | between _ _ _ _ _ => exact Nat.le_max_left _ _
  | within _ _ _ | isNull _ _ _ | like _ _ _ => exact Nat.le_refl _

theorem PredicatePhrase.height_le {levels links : Nat} {target : Operand} {tokens : List Token}
    {condition : Condition} (phrase : PredicatePhrase levels target tokens condition)
    (low : target.height ≤ levels * (links + 2) + 3 + links) (short : condition.chain ≤ links) :
    condition.height ≤ levels * (links + 2) + 4 + links := by
  cases phrase with
  | compare _ right =>
    have := right.height_le_chain (Nat.max_le.mp short).2
    simp only [Condition.height]
    omega
  | isNull _ _ _ | like _ _ _ =>
    simp only [Condition.height]
    omega
  | between _ _ first _ second =>
    simp only [Condition.chain, Nat.max_le] at short
    have := first.height_le_chain short.2.1
    have := second.height_le_chain short.2.2
    simp only [Condition.height]
    omega
  | within _ _ list =>
    have height := Value.height_le list.nesting_le links
    simp only [Value.height] at height
    simp only [Condition.height]
    omega

theorem ContainmentPhrase.height_le {levels : Nat} (links : Nat) {tokens : List Token}
    {condition : Condition} (phrase : ContainmentPhrase levels tokens condition) :
    condition.height ≤ levels * (links + 2) + 4 + links := by
  cases phrase with
  | alone _ _ _ _ =>
    simp only [Condition.height, Option.elim_none]
    omega
  | value _ _ _ _ inner _ =>
    have := Value.height_le inner.nesting_le links
    simp only [Condition.height, Option.elim_some]
    omega

mutual
theorem ConditionsPhrase.height_le {levels links : Nat} {tokens : List Token}
    {condition : Condition} : ConditionsPhrase levels tokens condition → condition.chain ≤ links →
      condition.height ≤ levels * (links + 2) + 4 + links + condition.links
  | .unary phrase, short => Nat.le_trans (phrase.height_le short) (Nat.le_add_right _ _)
  | .conjunction left _ right, short | .disjunction left _ right, short => by
    simp only [Condition.chain, Nat.max_le] at short
    have := left.height_le short.2.1
    have := right.height_le short.2.2
    simp only [Condition.height, Condition.links]
    omega

theorem UnaryPhrase.height_le {levels links : Nat} {tokens : List Token}
    {condition : Condition} : UnaryPhrase levels tokens condition → condition.chain ≤ links →
      condition.height ≤ levels * (links + 2) + 4 + links
  | @UnaryPhrase.negation levels _ _ inner _ phrase, short => by
    have within : inner.chain ≤ links := short
    have := phrase.height_le within
    simp only [Condition.height, Nat.succ_mul]
    omega
  | @UnaryPhrase.nested levels _ _ _ inner _ phrase _, short => by
    have within : inner.chain ≤ links := short
    have := phrase.height_le within
    have := inner.links_le_chain
    simp only [Condition.height, Nat.succ_mul]
    omega
  | .containment phrase, _ => phrase.height_le links
  | .predicate operand phrase, short =>
    phrase.height_le (operand.height_le_chain (Nat.le_trans phrase.target_chain_le short)) short
end

namespace Grammar

/-- The limit and the longest chain bound the height of what is read, and no bound is below
the chain. -/
theorem conditions_height {levels : Nat} {tokens rest : List Token} {condition : Condition}
    (read : conditions levels tokens = .ok (condition, rest)) :
    condition.chain < condition.height ∧
      condition.height ≤ (levels + 2) * (condition.chain + 2) := by
  obtain ⟨taken, -, phrase⟩ := conditions_sound levels read
  have high := phrase.height_le (Nat.le_refl _)
  have := condition.links_le_chain
  refine ⟨condition.chain_lt_height, ?_⟩
  rw [Nat.add_mul]
  omega

/-- `(a + 1 + 2 = 3) and b is null`: the longest chain has two operations. -/
theorem conditions_height_of_sum :
    let tokens : List Token :=
      [⟨.operator .openParen, "(", 1, 1⟩, ⟨.identifier, "a", 1, 2⟩, ⟨.operator .plus, "+", 1, 4⟩,
        ⟨.literal .integer, "1", 1, 6⟩, ⟨.operator .plus, "+", 1, 8⟩,
        ⟨.literal .integer, "2", 1, 10⟩, ⟨.operator .equal, "=", 1, 12⟩,
        ⟨.literal .integer, "3", 1, 14⟩, ⟨.operator .closeParen, ")", 1, 15⟩,
        ⟨.keyword .and, "AND", 1, 17⟩, ⟨.identifier, "b", 1, 21⟩, ⟨.keyword .is, "IS", 1, 23⟩,
        ⟨.literal .null, "null", 1, 26⟩]
    let sum : Operand := .binary (.binary (.path ⟨"a", []⟩) .add (.literal (.integer 1))) .add
      (.literal (.integer 2))
    let condition : Condition := .conjunction
      (.nested (.compare sum .equal (.literal (.integer 3)))) (.isNull (.path ⟨"b", []⟩) false)
    conditions 1 tokens = .ok (condition, []) ∧ condition.chain = 2 ∧
      2 < condition.height ∧ condition.height ≤ (1 + 2) * (2 + 2) := by
  intro tokens sum condition
  have read : conditions 1 tokens = .ok (condition, []) := by rfl
  exact ⟨read, rfl, conditions_height read⟩

/-! Chains of any length are read under every limit. -/

/-- `a IS NULL`. -/
def linked : Condition :=
  .isNull (.path ⟨"a", []⟩) false

def linkTokens : List Token :=
  [⟨.identifier, "a", 1, 1⟩, ⟨.keyword .is, "IS", 1, 3⟩, ⟨.literal .null, "NULL", 1, 6⟩]

/-- The same condition again behind every one of these connectives. -/
def chained : Nat → Condition
  | 0 => linked
  | links + 1 => .conjunction (chained links) linked

def chainTokens : Nat → List Token
  | 0 => linkTokens
  | links + 1 => chainTokens links ++ ⟨.keyword .and, "AND", 1, 11⟩ :: linkTokens

theorem chained_links (links : Nat) : (chained links).links = links := by
  induction links with
  | zero => rfl
  | succ links ih => rw [chained, Condition.links, ih]

theorem chained_phrase (levels links : Nat) :
    ConditionsPhrase levels (chainTokens links) (chained links) := by
  have link : UnaryPhrase levels linkTokens linked :=
    .predicate (.term (.unsigned (.path (.path rfl .none)))) (.isNull rfl .absent rfl)
  induction links with
  | zero => exact .unary link
  | succ links ih => exact .conjunction ih rfl link

/-- No bound that depends on the limit alone holds for the height of what is read. -/
theorem height_unbounded :
    ¬ ∃ bound : Nat → Nat, ∀ levels tokens condition rest,
      conditions levels tokens = .ok (condition, rest) → condition.height ≤ bound levels := by
  rintro ⟨bound, bounded⟩
  have ends : EndsFilter [] := by simp [EndsFilter]
  have read := (conditions_ok_iff ends).mpr (chained_phrase 64 (bound 64))
  have low := bounded _ _ _ _ read
  have high := (chained (bound 64)).chain_lt_height
  have links := (chained (bound 64)).links_le_chain
  rw [chained_links] at links
  omega

end Grammar

end VectorQuery
