import VectorQuery.Proofs.Value.Unique

/-! The literals of predicates, and the signs in front of them. A literal in front of a
delimiter is told apart from every other literal and from what follows it, and a minus
sign in front of a number is as good as a negative number. -/
namespace VectorQuery

namespace Value
open Numeral Form

/-- The characters of the literal. -/
def characters (value : Value) : List Char :=
  value.literal.toList

theorem characters_integer (number : Int64) : characters (.integer number) = writeInteger number :=
  Form.characters_integer literalForm number

theorem characters_float (number : Binary64) :
    characters (.float number) = Binary64.plain.write number :=
  (Form.characters_float literalForm number).trans String.toList_ofList

theorem characters_text (content : String) :
    characters (.text content) = (Text.quoted content).toList :=
  Form.characters_text literalForm content

theorem number_run {value : Value} (numeral : value.mark = .number)
    (finite : value.isFinite = true) :
    (∃ first others, value.characters = first :: others ∧ isIntegral first = true) ∧
      ∀ character ∈ value.characters, isNumeric character = true :=
  literalForm_legible.number_run numeral finite

theorem characters_head (value : Value) (finite : value.isFinite = true) :
    ∃ character others, value.characters = character :: others ∧
      Mark.ofCharacter character = value.mark :=
  literalForm_legible.characters_head value finite

theorem no_item_closes (value : Value) (finite : value.isFinite = true) {closing : Char}
    (number : Mark.ofCharacter closing = .number) (other : isIntegral closing = false)
    (rest rest' : List Char) : value.characters ++ rest ≠ closing :: rest' :=
  literalForm_legible.no_item_closes value finite number other rest rest'

/-- No two values have one literal. -/
theorem characters_unique (value : Value) (finite : value.isFinite = true) :
    Unique characters (·.isFinite = true) value :=
  literalForm_legible.unique value finite

/-! Signs in front of numbers. -/

/-- The number with a minus sign, where it has none. -/
def opposite? : Value → Option Value
  | .integer number => if 0 ≤ number.toInt then some (.integer (-number)) else none
  | .float (.finite false magnitude) => some (.float (.finite true magnitude))
  | _ => none

theorem toInt_neg_of_nonneg {number : Int64} (positive : 0 ≤ number.toInt) :
    (-number).toInt = -number.toInt := by
  have most := number.toInt_le
  rw [Int64.toInt_neg, Int.bmod_eq_of_le]
  · simp only [Int64.toInt_maxValue] at most
    omega
  · omega

/-- The sign of a number stands in front of it, except that an integer zero has none. -/
theorem characters_opposite {value value' : Value} (opposite : value.opposite? = some value') :
    value = .integer 0 ∨ value'.characters = '-' :: value.characters := by
  unfold opposite? at opposite
  split at opposite
  next number =>
    split_ifs at opposite with positive
    obtain rfl := Option.some.inj opposite
    by_cases zero : number = 0
    · exact .inl (congrArg _ zero)
    · right
      have nonzero : number.toInt ≠ 0 := fun none => zero (Int64.toInt_inj.mp none)
      have negated := toInt_neg_of_nonneg positive
      rw [characters_integer, characters_integer, writeInteger, writeInteger, negated,
        if_pos (by omega), if_neg (by omega), Int.natAbs_neg]
  next magnitude =>
    obtain rfl := Option.some.inj opposite
    right
    simp [characters_float, Binary64.Layout.write]
  next => contradiction

theorem opposite?_of_digit {value : Value} (numeral : value.mark = .number)
    (finite : value.isFinite = true) {digit : Char} (isDigit : digit.isDigit = true)
    {others : List Char} (text : value.characters = digit :: others) :
    ∃ value', value.opposite? = some value' := by
  have unsigned (tail : List Char) : value.characters ≠ '-' :: tail := by
    intro same
    rw [(List.cons.inj (text.symm.trans same)).1] at isDigit
    contradiction
  cases value with
  | integer number =>
    by_cases negative : number.toInt < 0
    · rw [characters_integer, writeInteger, if_pos negative] at unsigned
      exact absurd rfl (unsigned _)
    · exact ⟨_, if_pos (by omega)⟩
  | float number =>
    cases number with
    | finite negative magnitude =>
      cases negative with
      | true => exact absurd (characters_float _) (unsigned _)
      | false => exact ⟨_, rfl⟩
    | infinite negative => contradiction
    | nan => contradiction
  | null | boolean _ | text _ | array _ | object _ => contradiction

theorem digit_of_minus {value : Value} (numeral : value.mark = .number)
    (finite : value.isFinite = true) {tail : List Char} (text : value.characters = '-' :: tail) :
    ∃ digit others, tail = digit :: others ∧ digit.isDigit = true := by
  obtain ⟨negative, whole, places, power, before, -, -, parts⟩ :=
    literalForm_legible.number_parts numeral finite
  have same : '-' :: tail = signed negative whole ++ (places ++ power) := text.symm.trans parts
  obtain ⟨digit, others, rfl⟩ := List.exists_cons_of_ne_nil before.1
  have isDigit := before.2.1 digit (by simp)
  cases negative with
  | true => exact ⟨digit, _, (List.cons.inj same).2, isDigit⟩
  | false =>
    obtain rfl := (List.cons.inj same).1
    contradiction

/-- No number reads as a zero with a sign and no point. -/
theorem characters_ne_minus_zero {value : Value} (finite : value.isFinite = true) :
    value.characters ≠ ['-', '0'] := by
  intro same
  have numeral : value.mark = .number := by
    obtain ⟨character, others, text, mark⟩ := characters_head value finite
    rw [← mark, (List.cons.inj (text.symm.trans same)).1]
    rfl
  cases value with
  | integer number =>
    rw [characters_integer] at same
    have read := readInteger?_writeInteger number
    rw [same] at read
    obtain rfl : number = 0 := (Option.some.inj read).symm
    exact absurd same (by decide)
  | float number =>
    obtain ⟨character, inside, other⟩ := write_not_integral Binary64.plain finite
    rw [← characters_float, same] at inside
    have integral : ∀ character ∈ ['-', '0'], isIntegral character = true :=
      List.all_eq_true.mp rfl
    simp [integral character inside] at other
  | null | boolean _ | text _ | array _ | object _ => contradiction

theorem isFinite_opposite {value value' : Value} (opposite : value.opposite? = some value') :
    value'.isFinite = true := by
  unfold opposite? at opposite
  split at opposite
  next number =>
    split_ifs at opposite
    obtain rfl := Option.some.inj opposite
    rfl
  next magnitude =>
    obtain rfl := Option.some.inj opposite
    rfl
  next => contradiction

end Value

end VectorQuery
