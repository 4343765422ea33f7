import VectorQuery.Proofs.Value.Printed

/-! How deep conditions nest: round brackets, `NOT`, lists and objects count, and nothing
else does. What a phrase spells nests no deeper than the levels it may open. -/
namespace VectorQuery

namespace Value

mutual
def nesting : Value → Nat
  | .array items => itemsNesting items + 1
  | .object entries => entriesNesting entries + 1
  | .null | .boolean _ | .integer _ | .float _ | .text _ => 0

def itemsNesting : List Value → Nat
  | [] => 0
  | item :: rest => max item.nesting (itemsNesting rest)

def entriesNesting : List (String × Value) → Nat
  | [] => 0
  | (_, value) :: rest => max value.nesting (entriesNesting rest)
end

theorem itemsNesting_le_iff {items : List Value} {bound : Nat} :
    itemsNesting items ≤ bound ↔ ∀ item ∈ items, item.nesting ≤ bound := by
  induction items with
  | nil => simp [itemsNesting]
  | cons item rest ih => rw [itemsNesting, Nat.max_le, ih, List.forall_mem_cons]

theorem entriesNesting_le_iff {entries : List (String × Value)} {bound : Nat} :
    entriesNesting entries ≤ bound ↔ ∀ entry ∈ entries, entry.2.nesting ≤ bound := by
  induction entries with
  | nil => simp [entriesNesting]
  | cons entry rest ih =>
    obtain ⟨key, value⟩ := entry
    rw [entriesNesting, Nat.max_le, ih, List.forall_mem_cons]

theorem array_nesting_le_iff {items : List Value} {bound : Nat} :
    (array items).nesting ≤ bound + 1 ↔ ∀ item ∈ items, item.nesting ≤ bound := by
  rw [nesting, Nat.add_le_add_iff_right, itemsNesting_le_iff]

theorem object_nesting_le_iff {entries : List (String × Value)} {bound : Nat} :
    (object entries).nesting ≤ bound + 1 ↔ ∀ entry ∈ entries, entry.2.nesting ≤ bound := by
  rw [nesting, Nat.add_le_add_iff_right, entriesNesting_le_iff]

end Value

def Operand.nesting : Operand → Nat
  | .path _ | .arrayLength _ => 0
  | .literal value => value.nesting
  | .signed _ operand => operand.nesting
  | .binary left _ right => max left.nesting right.nesting
  | .nested operand => operand.nesting + 1

/-- The items of an `IN` list are those of a list. -/
def Condition.nesting : Condition → Nat
  | .compare left _ right => max left.nesting right.nesting
  | .like target _ _ | .isNull target _ => target.nesting
  | .between target low high _ => max target.nesting (max low.nesting high.nesting)
  | .within target items _ => max target.nesting (Value.array items).nesting
  | .contains _ _ value => value.elim 0 Value.nesting
  | .negation condition | .nested condition => condition.nesting + 1
  | .conjunction left right | .disjunction left right => max left.nesting right.nesting

/-! What phrases spell. -/

theorem Token.nesting_of_literal? {token : Token} {value : Value}
    (meaning : token.literal? = some value) : value.nesting = 0 := by
  have scalar := Token.isScalar_of_literal? meaning
  cases value with
  | array _ | object _ => contradiction
  | null | boolean _ | integer _ | float _ | text _ => rfl

mutual
theorem ValuePhrase.nesting_le {levels : Nat} {tokens : List Token} {value : Value} :
    ValuePhrase levels tokens value → value.nesting ≤ levels
  | .literal meaning => by simp [Token.nesting_of_literal? meaning]
  | .list phrase => phrase.nesting_le
  | .mapping phrase => phrase.nesting_le

theorem ListPhrase.nesting_le {levels : Nat} {tokens : List Token} {items : List Value} :
    ListPhrase levels tokens items → (Value.array items).nesting ≤ levels
  | .empty _ _ => Value.array_nesting_le_iff.mpr nofun
  | .items _ phrase _ => Value.array_nesting_le_iff.mpr phrase.nesting_le

theorem ItemsPhrase.nesting_le {levels : Nat} {tokens : List Token} {items : List Value} :
    ItemsPhrase levels tokens items → ∀ item ∈ items, item.nesting ≤ levels
  | .one phrase => List.forall_mem_singleton.mpr phrase.nesting_le
  | .more first _ others => List.forall_mem_cons.mpr ⟨first.nesting_le, others.nesting_le⟩

theorem MappingPhrase.nesting_le {levels : Nat} {tokens : List Token} {mapping : Mapping} :
    MappingPhrase levels tokens mapping → mapping.toValue.nesting ≤ levels
  | .entries _ phrase _ => Value.object_nesting_le_iff.mpr fun entry inside =>
      phrase.nesting_le entry (Mapping.mem_ofList inside)

theorem EntriesPhrase.nesting_le {levels : Nat} {tokens : List Token}
    {entries : List (String × Value)} :
    EntriesPhrase levels tokens entries → ∀ entry ∈ entries, entry.2.nesting ≤ levels
  | .none _ => nofun
  | .more _ _ _ value others => List.forall_mem_cons.mpr ⟨value.nesting_le, others.nesting_le⟩
end

mutual
theorem OperandPhrase.nesting_le {levels : Nat} {tokens : List Token} {operand : Operand} :
    OperandPhrase levels tokens operand → operand.nesting ≤ levels
  | .term phrase => phrase.nesting_le
  | .operation left _ right => Nat.max_le.mpr ⟨left.nesting_le, right.nesting_le⟩
  | .glued left _ meaning => by
    simp [Operand.nesting, left.nesting_le, Token.nesting_of_literal? meaning]

theorem TermPhrase.nesting_le {levels : Nat} {tokens : List Token} {operand : Operand} :
    TermPhrase levels tokens operand → operand.nesting ≤ levels
  | .unsigned phrase => phrase.nesting_le
  | .signed _ phrase => phrase.nesting_le

theorem PrimaryPhrase.nesting_le {levels : Nat} {tokens : List Token} {operand : Operand} :
    PrimaryPhrase levels tokens operand → operand.nesting ≤ levels
  | .literal meaning => by simp [Operand.nesting, Token.nesting_of_literal? meaning]
  | .list phrase => phrase.nesting_le
  | .path _ => Nat.zero_le _
  | .arrayLength _ _ _ _ => Nat.zero_le _
  | .nested _ phrase _ => Nat.succ_le_succ phrase.nesting_le
end

/-- What is said of an operand nests no deeper than the operand and the levels. -/
theorem PredicatePhrase.nesting_le {levels : Nat} {target : Operand} {tokens : List Token}
    {condition : Condition} (phrase : PredicatePhrase levels target tokens condition) :
    condition.nesting ≤ max target.nesting levels := by
  cases phrase with
  | compare _ right =>
    have := right.nesting_le
    simp only [Condition.nesting]
    omega
  | isNull _ _ _ => exact Nat.le_max_left _ _
  | like _ _ _ => exact Nat.le_max_left _ _
  | between _ _ low _ high =>
    have := low.nesting_le
    have := high.nesting_le
    simp only [Condition.nesting]
    omega
  | within _ _ list =>
    have := list.nesting_le
    simp only [Condition.nesting]
    omega

theorem PredicatePhrase.target_nesting_le {levels : Nat} {target : Operand} {tokens : List Token}
    {condition : Condition} (phrase : PredicatePhrase levels target tokens condition) :
    target.nesting ≤ condition.nesting := by
  cases phrase with
  | compare _ _ | between _ _ _ _ _ | within _ _ _ => exact Nat.le_max_left _ _
  | isNull _ _ _ | like _ _ _ => exact Nat.le_refl _

theorem ContainmentPhrase.nesting_le {levels : Nat} {tokens : List Token} {condition : Condition}
    (phrase : ContainmentPhrase levels tokens condition) : condition.nesting ≤ levels := by
  cases phrase with
  | alone _ _ _ _ => exact Nat.zero_le _
  | value _ _ _ _ inner _ => exact inner.nesting_le

mutual
theorem ConditionsPhrase.nesting_le {levels : Nat} {tokens : List Token} {condition : Condition} :
    ConditionsPhrase levels tokens condition → condition.nesting ≤ levels
  | .unary phrase => phrase.nesting_le
  | .conjunction left _ right => Nat.max_le.mpr ⟨left.nesting_le, right.nesting_le⟩
  | .disjunction left _ right => Nat.max_le.mpr ⟨left.nesting_le, right.nesting_le⟩

theorem UnaryPhrase.nesting_le {levels : Nat} {tokens : List Token} {condition : Condition} :
    UnaryPhrase levels tokens condition → condition.nesting ≤ levels
  | .negation _ phrase => Nat.succ_le_succ phrase.nesting_le
  | .nested _ phrase _ => Nat.succ_le_succ phrase.nesting_le
  | .containment phrase => phrase.nesting_le
  | .predicate operand phrase =>
    Nat.le_trans phrase.nesting_le (Nat.max_le.mpr ⟨operand.nesting_le, Nat.le_refl _⟩)
end

end VectorQuery
