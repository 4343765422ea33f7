import Mathlib.Algebra.Group.Nat.Defs
import Mathlib.Data.List.Basic
import Mathlib.Data.List.Induction
import VectorQuery.Decimal
import VectorQuery.Proofs.Text

/-! Digits and written decimals. A positional text has digits on both sides of its point,
a scientific one ends in an exponent, and either reads back as the magnitude that it was
written from. -/
namespace VectorQuery

/-- Digits without a leading zero, or zero itself. -/
def IsWhole (text : List Char) : Prop :=
  text ≠ [] ∧ (∀ digit ∈ text, digit.isDigit = true) ∧ (text.head? = some '0' → text = ['0'])

/-- The digits behind a point. -/
def IsFraction (text : List Char) : Prop :=
  text ≠ [] ∧ ∀ digit ∈ text, digit.isDigit = true

theorem IsWhole.isFraction {text : List Char} (whole : IsWhole text) : IsFraction text :=
  ⟨whole.1, whole.2.1⟩

/-- Nothing, or a point and digits. -/
def IsPlaces (text : List Char) : Prop :=
  text = [] ∨ ∃ fraction, text = '.' :: fraction ∧ IsFraction fraction

/-- Nothing, or an exponent: its mark, perhaps a sign, and digits. -/
def IsPower (text : List Char) : Prop :=
  text = [] ∨ ∃ mark sign digits, text = mark :: (sign ++ digits) ∧ (mark = 'e' ∨ mark = 'E') ∧
    (sign = [] ∨ sign = ['+'] ∨ sign = ['-']) ∧ IsFraction digits

theorem isWhole_singleton {digit : Char} (isDigit : digit.isDigit = true) : IsWhole [digit] :=
  ⟨by simp, by simpa using isDigit, fun leads => by simpa using leads⟩

theorem IsFraction.drop {text : List Char} (written : IsFraction text) {count : Nat}
    (shorter : count < text.length) : IsFraction (text.drop count) :=
  ⟨by simpa using shorter, fun digit inside => written.2 digit (List.mem_of_mem_drop inside)⟩

theorem isDigit_of_mem_zeros {count : Nat} {digit : Char} (inside : digit ∈ List.replicate count '0') :
    digit.isDigit = true := by
  rw [(List.mem_replicate.mp inside).2]
  rfl

theorem IsFraction.append_zeros {text : List Char} (written : IsFraction text) (count : Nat) :
    IsFraction (text ++ List.replicate count '0') := by
  refine ⟨by simp [written.1], fun digit inside => ?_⟩
  rcases List.mem_append.mp inside with inside | inside
  · exact written.2 digit inside
  · exact isDigit_of_mem_zeros inside

theorem IsFraction.zeros_append {text : List Char} (written : IsFraction text) (count : Nat) :
    IsFraction (List.replicate count '0' ++ text) := by
  refine ⟨by simp [written.1], fun digit inside => ?_⟩
  rcases List.mem_append.mp inside with inside | inside
  · exact isDigit_of_mem_zeros inside
  · exact written.2 digit inside

theorem IsWhole.append_zeros {text : List Char} (written : IsWhole text)
    (leads : text.head? ≠ some '0') (count : Nat) : IsWhole (text ++ List.replicate count '0') := by
  have ⟨filled, all⟩ := written.isFraction.append_zeros count
  refine ⟨filled, all, fun zero => absurd zero ?_⟩
  rwa [List.head?_append_of_ne_nil _ written.1]

theorem IsWhole.take {text : List Char} (written : IsWhole text) {count : Nat} (filled : 0 < count) :
    IsWhole (text.take count) := by
  obtain ⟨some, all, leads⟩ := written
  refine ⟨?_, fun digit inside => all digit (List.mem_of_mem_take inside), fun zero => ?_⟩
  · simp only [ne_eq, List.take_eq_nil_iff, not_or]
    exact ⟨Nat.ne_of_gt filled, some⟩
  · rw [List.head?_take, if_neg (Nat.ne_of_gt filled)] at zero
    rw [leads zero, List.take_of_length_le filled]

theorem IsPower.ends {power rest : List Char} (isPower : IsPower power) {kind : Char → Bool}
    (others : kind 'e' = false ∧ kind 'E' = false) (ends : Text.Ends kind rest) :
    Text.Ends kind (power ++ rest) := by
  rcases isPower with rfl | ⟨mark, sign, digits, rfl, rfl | rfl, -, -⟩
  · exact ends
  · exact Text.ends_cons others.1 _
  · exact Text.ends_cons others.2 _

namespace Decimal

theorem ofDigits_eq (text : List Char) : ofDigits text = Nat.ofDigitChars 10 text 0 := rfl

theorem ofDigits_digits (number : Nat) : ofDigits (digits number) = number :=
  Nat.ofDigitChars_ten_toDigits

theorem ofDigits_append_zeros (text : List Char) (count : Nat) :
    ofDigits (text ++ List.replicate count '0') = 10 ^ count * ofDigits text := by
  rw [ofDigits_eq, Nat.ofDigitChars_append, Nat.ofDigitChars_replicate_zero, ofDigits_eq]

theorem ofDigits_zeros_append (text : List Char) (count : Nat) :
    ofDigits (List.replicate count '0' ++ text) = ofDigits text := by
  rw [ofDigits_eq, Nat.ofDigitChars_append, Nat.ofDigitChars_replicate_zero, Nat.mul_zero,
    ofDigits_eq]

theorem head_digits {number : Nat} (positive : number ≠ 0) :
    (digits number).head? ≠ some '0' := by
  induction number using Nat.strongRecOn with
  | ind number ih =>
    by_cases small : number < 10
    · rw [digits, Nat.toDigits_of_lt_base small]
      have : ∀ digit < 10, digit ≠ 0 → Nat.digitChar digit ≠ '0' := by decide
      simpa using this number small positive
    · have behind := ih (number / 10) (by omega) (by omega)
      rw [digits, Nat.toDigits_of_base_le (by decide) (by omega)]
      cases leading : Nat.toDigits 10 (number / 10) with
      | nil => exact absurd leading Nat.toDigits_ne_nil
      | cons digit rest => simpa [digits, leading] using behind

theorem digits_isWhole (number : Nat) : IsWhole (digits number) := by
  refine ⟨Nat.toDigits_ne_nil, fun digit inside => ?_, fun leads => ?_⟩
  · exact Nat.isDigit_of_mem_toDigits (by decide) (by decide) inside
  · by_cases zero : number = 0
    · rw [zero]
      rfl
    · exact absurd leads (head_digits zero)

theorem digits_of_isDigit {digit : Char} (isDigit : digit.isDigit = true) :
    digits (digit.toNat - '0'.toNat) = [digit] := by
  have code := Text.isDigit_code isDigit
  have zero : '0'.toNat = 48 := rfl
  have written : ∀ value < 10, Nat.digitChar value = Char.ofNat (48 + value) := by decide
  rw [digits, Nat.toDigits_of_lt_base (by omega), written _ (by omega),
    show 48 + (digit.toNat - '0'.toNat) = digit.toNat by omega, Char.ofNat_toNat]

/-- Without leading zeros, the digits of a number are the only ones. -/
theorem digits_ofDigits {text : List Char} (written : IsWhole text) : digits (ofDigits text) = text := by
  induction text using List.reverseRecOn with
  | nil => exact absurd rfl written.1
  | append_singleton front digit ih =>
    obtain ⟨-, all, leads⟩ := written
    have isDigit : digit.isDigit = true := all digit (by simp)
    have value : ofDigits (front ++ [digit]) = 10 * ofDigits front + (digit.toNat - '0'.toNat) := by
      simp [ofDigits]
    by_cases alone : front = []
    · subst alone
      simpa [ofDigits] using digits_of_isDigit isDigit
    · have head : front.head? ≠ some '0' := by
        intro zero
        rw [← List.head?_append_of_ne_nil front alone] at zero
        have single := congrArg List.length (leads zero)
        exact alone (by simpa using single)
      have whole : IsWhole front :=
        ⟨alone, fun digit inside => all digit (by simp [inside]), fun zero => absurd zero head⟩
      have behind := ih whole
      have positive : 0 < ofDigits front := by
        refine Nat.pos_of_ne_zero fun zero => head ?_
        rw [← behind, zero]
        rfl
      have small : digit.toNat - '0'.toNat < 10 := by
        have code := Text.isDigit_code isDigit
        have zero : '0'.toNat = 48 := rfl
        omega
      rw [value, digits, ← Nat.toDigits_append_toDigits (by decide) positive small]
      exact congrArg₂ (· ++ ·) behind (digits_of_isDigit isDigit)

theorem length_digits_le_iff {number places : Nat} (positive : 0 < places) :
    (digits number).length ≤ places ↔ number < 10 ^ places :=
  Nat.length_toDigits_le_iff (by decide) positive

theorem length_digits_pos (number : Nat) : 0 < (digits number).length :=
  Nat.length_toDigits_pos

theorem lt_pow_length_digits (number : Nat) : number < 10 ^ (digits number).length :=
  (length_digits_le_iff (length_digits_pos number)).mp (Nat.le_refl _)

theorem pow_length_digits_le {number : Nat} (positive : number ≠ 0) :
    10 ^ ((digits number).length - 1) ≤ number := by
  by_cases single : (digits number).length = 1
  · rw [single]
    omega
  · have longer := length_digits_pos number
    have exceeds : ¬number < 10 ^ ((digits number).length - 1) := by
      rw [← length_digits_le_iff (by omega)]
      omega
    omega

theorem length_digits_eq {number places : Nat} (least : 10 ^ places ≤ number)
    (most : number < 10 ^ (places + 1)) : (digits number).length = places + 1 := by
  have positive : number ≠ 0 := by
    have := Nat.pow_pos (n := places) (show 0 < 10 by decide)
    omega
  have above : places < (digits number).length :=
    (Nat.pow_lt_pow_iff_right (by decide)).mp (Nat.lt_of_le_of_lt least (lt_pow_length_digits number))
  have below : (digits number).length - 1 < places + 1 :=
    (Nat.pow_lt_pow_iff_right (by decide)).mp (Nat.lt_of_le_of_lt (pow_length_digits_le positive) most)
  omega

theorem length_digits_shift {number : Nat} (positive : number ≠ 0) (places : Nat) :
    (digits (number * 10 ^ places)).length = (digits number).length + places := by
  have least := Nat.mul_le_mul_right (10 ^ places) (pow_length_digits_le positive)
  have most := Nat.mul_lt_mul_of_pos_right (lt_pow_length_digits number)
    (Nat.pow_pos (n := places) (show 0 < 10 by decide))
  have longer := length_digits_pos number
  rw [← Nat.pow_add] at least most
  have exact := length_digits_eq least
    (by rwa [show (digits number).length - 1 + places + 1 = (digits number).length + places by omega])
  omega

theorem isPower_signed (number : Int) :
    IsPower ('e' :: (if number < 0 then '-' else '+') :: digits number.natAbs) := by
  refine .inr ⟨'e', [if number < 0 then '-' else '+'], _, rfl, .inl rfl, ?_,
    (digits_isWhole _).isFraction⟩
  split <;> simp

theorem readExponent?_signed (number : Int) :
    readExponent? ('e' :: (if number < 0 then '-' else '+') :: digits number.natAbs) = some number := by
  have written := (digits_isWhole number.natAbs).isFraction
  have all : (digits number.natAbs).all Char.isDigit = true := List.all_eq_true.mpr written.2
  have filled : (digits number.natAbs).isEmpty = false := by simp [written.1]
  by_cases negative : number < 0
  · have magnitude : -(number.natAbs : Int) = number := by omega
    simp only [readExponent?, negative, if_true, all, filled, ofDigits_digits]
    exact congrArg some magnitude
  · have magnitude : (number.natAbs : Int) = number := by omega
    simp only [readExponent?, negative, if_false, all, filled, ofDigits_digits]
    exact congrArg some magnitude

/-- The parts of a numeral, of which the last two may be missing. -/
theorem read?_of_numeral {whole places power : List Char} (before : IsFraction whole)
    (behind : IsPlaces places) (last : IsPower power) :
    read? (whole ++ (places ++ power)) = (readExponent? power).map fun exponent =>
      ⟨ofDigits (whole ++ places.tail), exponent - places.tail.length⟩ := by
  have digitless : Text.Ends Char.isDigit power := by
    simpa using last.ends ⟨by decide, by decide⟩ (Text.ends_nil Char.isDigit)
  have filled : whole.isEmpty = false := by simp [before.1]
  rcases behind with rfl | ⟨fraction, rfl, isFraction⟩
  · rw [read?, List.nil_append]
    simp only [Text.takeWhile_of_ends before.2 digitless, Text.dropWhile_of_ends before.2 digitless]
    rcases last with rfl | ⟨mark, sign, digits, rfl, rfl | rfl, -, -⟩ <;> simp [filled]
  · have point : Text.Ends Char.isDigit ('.' :: (fraction ++ power)) :=
      Text.ends_cons (by decide) _
    rw [read?, List.cons_append]
    simp only [Text.takeWhile_of_ends before.2 point, Text.dropWhile_of_ends before.2 point,
      Text.takeWhile_of_ends isFraction.2 digitless, Text.dropWhile_of_ends isFraction.2 digitless,
      filled, Bool.false_and, Bool.false_eq_true, if_false, List.tail_cons]

theorem read?_of_parts {whole fraction : List Char} (before : IsFraction whole)
    (behind : IsFraction fraction) :
    read? (whole ++ '.' :: fraction) = some ⟨ofDigits (whole ++ fraction), -fraction.length⟩ := by
  have read := read?_of_numeral before (.inr ⟨fraction, rfl, behind⟩) (.inl rfl)
  simpa [readExponent?] using read

/-- The magnitude with a place behind its point. -/
def pointed (decimal : Decimal) : Decimal :=
  match decimal.exponent with
  | .ofNat power => ⟨decimal.significand * 10 ^ (power + 1), -1⟩
  | .negSucc _ => decimal

/-- The digits on both sides of the point. Only a zero with a power of its own would put
zeros in front of the others. -/
theorem positional_parts (decimal : Decimal)
    (proper : decimal.significand ≠ 0 ∨ decimal.exponent = 0) :
    ∃ whole fraction, decimal.positional = whole ++ '.' :: fraction ∧ IsWhole whole ∧
      IsFraction fraction ∧ decimal.pointed = ⟨ofDigits (whole ++ fraction), -fraction.length⟩ := by
  have written := digits_isWhole decimal.significand
  have zero : IsWhole ['0'] := isWhole_singleton (by decide)
  obtain ⟨significand, exponent⟩ := decimal
  cases exponent with
  | ofNat power =>
    have whole : IsWhole (digits significand ++ List.replicate power '0') := by
      rcases proper with positive | none
      · exact written.append_zeros (head_digits positive) power
      · obtain rfl : power = 0 := Int.ofNat.inj none
        simpa using written
    refine ⟨_, ['0'], by simp [positional], whole, zero.isFraction, ?_⟩
    rw [List.append_assoc, show ['0'] = List.replicate 1 '0' from rfl,
      List.replicate_append_replicate, ofDigits_append_zeros, ofDigits_digits, Nat.mul_comm]
    rfl
  | negSucc power =>
    by_cases longer : power + 1 < (digits significand).length
    · refine ⟨(digits significand).take ((digits significand).length - (power + 1)),
        (digits significand).drop ((digits significand).length - (power + 1)),
        by simp [positional, longer], written.take (Nat.sub_pos_of_lt longer),
        written.isFraction.drop (Nat.sub_lt (length_digits_pos significand) (Nat.succ_pos power)), ?_⟩
      rw [List.take_append_drop, ofDigits_digits, List.length_drop]
      simp only [pointed, Decimal.mk.injEq, true_and]
      omega
    · refine ⟨['0'], List.replicate (power + 1 - (digits significand).length) '0' ++ digits significand,
        by simp [positional, longer], zero, written.isFraction.zeros_append _, ?_⟩
      rw [show ['0'] = List.replicate 1 '0' from rfl, ← List.append_assoc,
        List.replicate_append_replicate, ofDigits_zeros_append, ofDigits_digits]
      simp only [pointed, List.length_append, List.length_replicate, Decimal.mk.injEq, true_and]
      omega

theorem scientific_parts (decimal : Decimal) :
    ∃ whole places power, decimal.scientific = whole ++ (places ++ power) ∧ IsWhole whole ∧
      IsPlaces places ∧ IsPower power ∧ power ≠ [] ∧ read? decimal.scientific = some decimal := by
  have written := digits_isWhole decimal.significand
  have value : ofDigits (digits decimal.significand) = decimal.significand := ofDigits_digits _
  have exponent := readExponent?_signed (decimal.width - 1)
  have power := isPower_signed (decimal.width - 1)
  simp only [scientific]
  generalize mark : 'e' :: (if decimal.width - 1 < 0 then '-' else '+') ::
      digits (decimal.width - 1).natAbs = last at power exponent ⊢
  have filled : last ≠ [] := by simp [← mark]
  have width : decimal.width = (digits decimal.significand).length + decimal.exponent := rfl
  cases spelled : digits decimal.significand with
  | nil => exact absurd spelled written.1
  | cons lead others =>
    rw [spelled] at written value width
    have first := isWhole_singleton (written.2.1 lead (by simp))
    cases others with
    | nil =>
      refine ⟨[lead], [], last, rfl, first, .inl rfl, power, filled, ?_⟩
      have read := read?_of_numeral first.isFraction (.inl rfl) power
      have place : decimal.width - 1 - ([] : List Char).tail.length = decimal.exponent := by
        simp only [width, List.length_cons, List.length_nil, List.tail_nil]
        omega
      refine read.trans ?_
      rw [exponent, Option.map_some, place, List.tail_nil, List.append_nil, value]
    | cons next rest =>
      have fraction : IsFraction (next :: rest) :=
        ⟨by simp, fun digit inside => written.2.1 digit (List.mem_cons_of_mem lead inside)⟩
      have places : IsPlaces ('.' :: next :: rest) := .inr ⟨_, rfl, fraction⟩
      refine ⟨[lead], '.' :: next :: rest, last, by simp, first, places, power, filled, ?_⟩
      have read := read?_of_numeral first.isFraction places power
      have place : decimal.width - 1 - ('.' :: next :: rest).tail.length = decimal.exponent := by
        simp only [width, List.length_cons, List.tail_cons]
        omega
      have whole : [lead] ++ ('.' :: next :: rest).tail = lead :: next :: rest := rfl
      refine read.trans ?_
      rw [exponent, Option.map_some, place, whole, value]

end Decimal

/-! Integers. -/

/-- The 64-bit integer of this value, if there is one. -/
def int64? (number : Int) : Option Int64 :=
  if Int64.minValue.toInt ≤ number ∧ number ≤ Int64.maxValue.toInt then some (Int64.ofInt number)
  else none

theorem int64?_toInt (number : Int64) : int64? number.toInt = some number := by
  rw [int64?, if_pos ⟨number.minValue_le_toInt, number.toInt_le⟩, Int64.ofInt_toInt]

theorem readInteger?_minus {digits : List Char} (written : IsFraction digits) :
    readInteger? ('-' :: digits) = int64? (-(Decimal.ofDigits digits : Int)) := by
  have all : digits.all Char.isDigit = true := List.all_eq_true.mpr written.2
  simp only [readInteger?, all, int64?]
  simp [written.1]

theorem readInteger?_digits {digits : List Char} (written : IsFraction digits) :
    readInteger? digits = int64? (Decimal.ofDigits digits) := by
  have all : digits.all Char.isDigit = true := List.all_eq_true.mpr written.2
  have unsigned (sign : Char) (plain : sign.isDigit = false) (rest : List Char) :
      digits ≠ sign :: rest := by
    rintro rfl
    simp [written.2 sign (by simp)] at plain
  unfold readInteger?
  split
  next negative power sign =>
    split at sign
    next rest => exact absurd rfl (unsigned '-' (by decide) rest)
    next rest => exact absurd rfl (unsigned '+' (by decide) rest)
    next =>
      obtain ⟨rfl, rfl⟩ := Prod.mk.inj sign
      simp [all, written.1, int64?]

theorem readInteger?_writeInteger (number : Int64) :
    readInteger? (writeInteger number) = some number := by
  have written := (Decimal.digits_isWhole number.toInt.natAbs).isFraction
  unfold writeInteger
  split
  next negative =>
    rw [readInteger?_minus written, Decimal.ofDigits_digits,
      show -(number.toInt.natAbs : Int) = number.toInt by omega, int64?_toInt]
  next positive =>
    rw [readInteger?_digits written, Decimal.ofDigits_digits,
      show (number.toInt.natAbs : Int) = number.toInt by omega, int64?_toInt]

end VectorQuery
