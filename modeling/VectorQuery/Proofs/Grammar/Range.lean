import VectorQuery.Proofs.Binary64.Range
import VectorQuery.Proofs.Command.Finite
import VectorQuery.Proofs.Predicate.Injective

/-! Floats in range. A float token is finite exactly below the half way behind the largest
float, and what is read from such tokens alone is finite as a whole. -/
namespace VectorQuery

namespace Decimal

/-- No decimal starts with a sign. -/
theorem read?_sign {character : Char} (sign : character = '-' ∨ character = '+')
    (rest : List Char) : read? (character :: rest) = none := by
  rcases sign with rfl | rfl <;> rfl

theorem readExponent?_isSome {power : List Char} (written : IsPower power) :
    (readExponent? power).isSome = true := by
  rcases written with rfl | ⟨mark, sign, digits, rfl, marks, signs, filled, all⟩
  · rfl
  · have digital : (digits.isEmpty || !digits.all Char.isDigit) = false := by
      simpa [filled] using all
    rcases signs with rfl | rfl | rfl
    · have bare (sign : Char) (plain : sign.isDigit = false) (rest : List Char) :
          digits ≠ sign :: rest := fun same => by simp [all sign (by simp [same])] at plain
      simp only [readExponent?, marks, if_true, List.nil_append]
      split
      next rest => exact absurd rfl (bare '-' (by decide) rest)
      next rest => exact absurd rfl (bare '+' (by decide) rest)
      next => simp [digital]
    · simp [readExponent?, marks, digital]
    · simp [readExponent?, marks, digital]

theorem read?_isSome {whole places power : List Char} (before : IsFraction whole)
    (behind : IsPlaces places) (last : IsPower power) :
    (read? (whole ++ (places ++ power))).isSome = true := by
  rw [read?_of_numeral before behind last, Option.isSome_map]
  exact readExponent?_isSome last

end Decimal

namespace Binary64

def isSign (character : Char) : Bool :=
  character == '-' || character == '+'

/-- A float is a decimal behind a sign. -/
theorem exists_decimal_of_read? {text : List Char} {number : Binary64}
    (read : read? text = some number) : ∃ negative decimal,
      Decimal.read? (text.dropWhile isSign) = some decimal ∧ number = ofDecimal negative decimal := by
  -- No decimal starts with a sign, so that no other sign is dropped.
  have bare {text : List Char} {decimal : Decimal} (read : Decimal.read? text = some decimal) :
      text.dropWhile isSign = text := by
    cases text with
    | nil => rfl
    | cons character rest =>
      refine List.dropWhile_cons_of_neg fun sign => ?_
      simp only [isSign, Bool.or_eq_true, beq_iff_eq] at sign
      rw [Decimal.read?_sign sign] at read
      contradiction
  unfold read? at read
  split at read
  all_goals
    obtain ⟨decimal, spelled, rfl⟩ := Option.map_eq_some_iff.mp read
  next => exact ⟨true, decimal, by simpa [isSign, bare spelled] using spelled, rfl⟩
  next => exact ⟨false, decimal, by simpa [isSign, bare spelled] using spelled, rfl⟩
  next => exact ⟨false, decimal, by rw [bare spelled, spelled], rfl⟩

end Binary64

namespace Token

variable {token : Token}

/-- What a float spells behind its sign. -/
def decimal? (token : Token) : Option Decimal :=
  if token.kind = .literal .float then
    Decimal.read? (token.text.toList.dropWhile Binary64.isSign)
  else none

/-- A float, unless it is rounded to an infinite one. Every other token is in range. -/
def InRange (token : Token) : Prop :=
  ∀ decimal ∈ token.decimal?, decimal.ratio.1 < Magnitude.overflow * decimal.ratio.2

instance : Decidable token.InRange :=
  inferInstanceAs (Decidable (∀ decimal ∈ token.decimal?, _))

theorem isFinite_iff_inRange {number : Binary64}
    (meaning : token.literal? = some (.float number)) :
    number.isFinite = true ↔ token.InRange := by
  unfold literal? at meaning
  split at meaning
  case h_2 kind =>
    obtain ⟨_, read, same⟩ := Option.map_eq_some_iff.mp meaning
    obtain rfl := Value.float.inj same
    obtain ⟨negative, decimal, spelled, rfl⟩ := Binary64.exists_decimal_of_read? read
    rw [Binary64.isFinite_ofDecimal, InRange, decimal?, if_pos kind, spelled]
    simp
  all_goals simp at meaning

theorem InRange.isFinite (inRange : token.InRange) {value : Value}
    (meaning : token.literal? = some value) : value.isFinite = true := by
  cases value with
  | float number => exact (isFinite_iff_inRange meaning).mpr inRange
  | array items =>
    unfold literal? at meaning
    split at meaning <;> simp at meaning
  | object entries =>
    unfold literal? at meaning
    split at meaning <;> simp at meaning
  | _ => rfl

/-- The sign that a number loses does not count. -/
theorem InRange.unsigned (inRange : token.InRange) (glued : token.isGlued = true) :
    token.unsigned.InRange := by
  have sign := (Bool.and_eq_true_iff.mp glued).2
  rw [beq_iff_eq] at sign
  obtain ⟨digits, spelled⟩ := List.head?_eq_some_iff.mp sign
  have same : token.unsigned.decimal? = token.decimal? := by
    simp [decimal?, Token.unsigned, spelled, Binary64.isSign]
  rw [InRange, same]
  exact inRange

end Token

def Ranged (tokens : List Token) : Prop :=
  ∀ token ∈ tokens, token.InRange

namespace Ranged

variable {token : Token} {tokens others : List Token}

theorem head (ranged : Ranged (token :: tokens)) : token.InRange :=
  ranged token List.mem_cons_self

theorem tail (ranged : Ranged (token :: tokens)) : Ranged tokens :=
  fun other inside => ranged other (List.mem_cons_of_mem token inside)

theorem left (ranged : Ranged (tokens ++ others)) : Ranged tokens :=
  fun token inside => ranged token (List.mem_append_left others inside)

theorem right (ranged : Ranged (tokens ++ others)) : Ranged others :=
  fun token inside => ranged token (List.mem_append_right tokens inside)

end Ranged

/-! Phrases whose tokens are in range. -/

mutual
theorem ValuePhrase.isFinite {levels : Nat} {tokens : List Token} {value : Value} :
    ValuePhrase levels tokens value → Ranged tokens → value.isFinite = true
  | .literal meaning, ranged => ranged.head.isFinite meaning
  | .list phrase, ranged => phrase.areFinite ranged
  | .mapping phrase, ranged => phrase.isFinite ranged

theorem ListPhrase.areFinite {levels : Nat} {tokens : List Token} {items : List Value} :
    ListPhrase levels tokens items → Ranged tokens → Value.areFinite items = true
  | .empty _ _, _ => rfl
  | .items _ phrase _, ranged => phrase.areFinite ranged.tail.left

theorem ItemsPhrase.areFinite {levels : Nat} {tokens : List Token} {items : List Value} :
    ItemsPhrase levels tokens items → Ranged tokens → Value.areFinite items = true
  | .one phrase, ranged => Bool.and_eq_true_iff.mpr ⟨phrase.isFinite ranged, rfl⟩
  | .more first _ others, ranged =>
    Bool.and_eq_true_iff.mpr ⟨first.isFinite ranged.left, others.areFinite ranged.right.tail⟩

theorem MappingPhrase.isFinite {levels : Nat} {tokens : List Token} {mapping : Mapping} :
    MappingPhrase levels tokens mapping → Ranged tokens → mapping.toValue.isFinite = true
  | .entries _ phrase _, ranged => Mapping.isFinite_ofList (phrase.areFinite ranged.tail.left)

theorem EntriesPhrase.areFinite {levels : Nat} {tokens : List Token}
    {entries : List (String × Value)} : EntriesPhrase levels tokens entries → Ranged tokens →
      ∀ entry ∈ entries, entry.2.isFinite = true
  | .none _, _ => by simp
  | .more _ _ _ value others, ranged =>
    List.forall_mem_cons.mpr
      ⟨value.isFinite ranged.left.right.tail.tail, others.areFinite ranged.right⟩
end

mutual
theorem OperandPhrase.isFinite {levels : Nat} {tokens : List Token} {operand : Operand} :
    OperandPhrase levels tokens operand → Ranged tokens → operand.isFinite = true
  | .term phrase, ranged => phrase.isFinite ranged
  | .operation left _ right, ranged =>
    Bool.and_eq_true_iff.mpr ⟨left.isFinite ranged.left, right.isFinite ranged.right.tail⟩
  | .glued left glued meaning, ranged =>
    Bool.and_eq_true_iff.mpr
      ⟨left.isFinite ranged.left, (ranged.right.head.unsigned glued).isFinite meaning⟩

theorem TermPhrase.isFinite {levels : Nat} {tokens : List Token} {operand : Operand} :
    TermPhrase levels tokens operand → Ranged tokens → operand.isFinite = true
  | .unsigned phrase, ranged => phrase.isFinite ranged
  | .signed _ phrase, ranged => phrase.isFinite ranged.tail

theorem PrimaryPhrase.isFinite {levels : Nat} {tokens : List Token} {operand : Operand} :
    PrimaryPhrase levels tokens operand → Ranged tokens → operand.isFinite = true
  | .literal meaning, ranged => ranged.head.isFinite meaning
  | .list phrase, ranged => phrase.areFinite ranged
  | .path _, _ | .arrayLength _ _ _ _, _ => rfl
  | .nested _ phrase _, ranged => phrase.isFinite ranged.tail.left
end

theorem PredicatePhrase.isFinite {levels : Nat} {target : Operand} {tokens : List Token}
    {condition : Condition} (phrase : PredicatePhrase levels target tokens condition)
    (ranged : Ranged tokens) (finite : target.isFinite = true) : condition.isFinite = true := by
  cases phrase with
  | compare _ right => exact Bool.and_eq_true_iff.mpr ⟨finite, right.isFinite ranged.tail⟩
  | isNull | like => exact finite
  | between _ _ low _ high =>
    simp only [Condition.isFinite, Bool.and_eq_true]
    exact ⟨⟨finite, low.isFinite ranged.left.right.tail⟩, high.isFinite ranged.right.tail⟩
  | within _ _ list =>
    exact Bool.and_eq_true_iff.mpr ⟨finite, list.areFinite ranged.right.tail⟩

theorem ContainmentPhrase.isFinite {levels : Nat} {tokens : List Token} {condition : Condition}
    (phrase : ContainmentPhrase levels tokens condition) (ranged : Ranged tokens) :
    condition.isFinite = true := by
  cases phrase with
  | alone => rfl
  | value _ _ _ _ inner _ => exact inner.isFinite ranged.left.right.tail

mutual
theorem ConditionsPhrase.isFinite {levels : Nat} {tokens : List Token} {condition : Condition} :
    ConditionsPhrase levels tokens condition → Ranged tokens → condition.isFinite = true
  | .unary phrase, ranged => phrase.isFinite ranged
  | .conjunction left _ right, ranged | .disjunction left _ right, ranged =>
    Bool.and_eq_true_iff.mpr ⟨left.isFinite ranged.left, right.isFinite ranged.right.tail⟩

theorem UnaryPhrase.isFinite {levels : Nat} {tokens : List Token} {condition : Condition} :
    UnaryPhrase levels tokens condition → Ranged tokens → condition.isFinite = true
  | .negation _ phrase, ranged => phrase.isFinite ranged.tail
  | .nested _ phrase _, ranged => phrase.isFinite ranged.tail.left
  | .containment phrase, ranged => phrase.isFinite ranged
  | .predicate operand phrase, ranged =>
    phrase.isFinite ranged.right (operand.isFinite ranged.left)
end

end VectorQuery
