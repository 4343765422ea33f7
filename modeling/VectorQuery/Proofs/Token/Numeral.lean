import Mathlib.Tactic.ByContra
import VectorQuery.Proofs.Binary64
import VectorQuery.Proofs.Decimal
import VectorQuery.Text.Blank
import VectorQuery.Token.Numeral

/-! Written numbers are scanned whole. Where nothing goes on with a number it is one
numeral, and a point or an exponent in it makes it a float. -/
namespace VectorQuery

namespace Text

theorem isBlank_code {character : Char} (blank : isBlank character = true) :
    character.toNat ≤ 0x20 ∨ 0x85 ≤ character.toNat := by
  simp only [isBlank, Bool.or_eq_true, Bool.and_eq_true, decide_eq_true_eq, beq_iff_eq] at blank
  omega

theorem not_isBlank {character : Char} (visible : 0x20 < character.toNat ∧ character.toNat < 0x85) :
    isBlank character = false := by
  by_contra blank
  have code := isBlank_code (by simpa using blank)
  omega

/-- Nothing follows, or white space does. -/
def Apart (rest : List Char) : Prop :=
  ∀ character ∈ rest.head?, isBlank character = true

theorem apart_cons {character : Char} (blank : isBlank character = true) (rest : List Char) :
    Apart (character :: rest) := by
  simpa [Apart] using blank

theorem Apart.ends {rest : List Char} (apart : Apart rest) {kind : Char → Bool}
    (visible : ∀ character, kind character = true → isBlank character = false) :
    Ends kind rest := by
  intro character first
  have blank := apart character first
  by_contra other
  have shown := visible character (by simpa using other)
  simp [blank] at shown

theorem not_isBlank_of_isDigit {character : Char} (digit : character.isDigit = true) :
    isBlank character = false := by
  have code := isDigit_code digit
  apply not_isBlank
  omega

end Text

namespace Numeral
open Text

theorem whole_append {digits rest : List Char} (written : IsWhole digits)
    (ends : Ends Char.isDigit rest) : whole (digits ++ rest) = (digits, rest) := by
  by_cases leads : digits.head? = some '0'
  · rw [written.2.2 leads]
    rfl
  · have first (others : List Char) : digits ++ rest ≠ '0' :: others := by
      intro same
      have head := congrArg List.head? same
      rw [List.head?_append_of_ne_nil _ written.1] at head
      exact leads head
    have run := takeWhile_of_ends written.2.1 ends
    have behind := dropWhile_of_ends written.2.1 ends
    unfold whole
    split
    next others same => exact absurd same (first others)
    next => rw [run, behind]

theorem startsWithDigit_append {digits : List Char} (written : IsFraction digits)
    (rest : List Char) : startsWithDigit (digits ++ rest) = true := by
  obtain ⟨filled, all⟩ := written
  cases digits with
  | nil => contradiction
  | cons digit others =>
    have isDigit := all digit (by simp)
    simpa [startsWithDigit] using isDigit

theorem fraction_append {digits rest : List Char} (written : IsFraction digits)
    (ends : Ends Char.isDigit rest) :
    fraction ('.' :: (digits ++ rest)) = ('.' :: digits, rest) := by
  have run := takeWhile_of_ends written.2 ends
  have behind := dropWhile_of_ends written.2 ends
  rw [fraction, if_pos (startsWithDigit_append written rest), run, behind]

theorem fraction_of_ends {rest : List Char} (ends : Ends (· == '.') rest) :
    fraction rest = ([], rest) := by
  unfold fraction
  split
  next others =>
    have other := ends '.' rfl
    simp at other
  next => rfl

theorem exponent_of_ends {rest : List Char}
    (ends : Ends (fun character => character == 'e' || character == 'E') rest) :
    exponent rest = ([], rest) := by
  cases rest with
  | nil => rfl
  | cons mark others =>
    have plain : ¬(mark = 'e' ∨ mark = 'E') := by simpa using ends mark rfl
    simp [exponent, plain]

theorem exponentSign_append {sign digits : List Char}
    (known : sign = [] ∨ sign = ['+'] ∨ sign = ['-']) (written : IsFraction digits)
    (rest : List Char) : exponentSign (sign ++ (digits ++ rest)) = (sign, digits ++ rest) := by
  rcases known with rfl | rfl | rfl
  · obtain ⟨filled, all⟩ := written
    cases digits with
    | nil => contradiction
    | cons digit others =>
      have isDigit := all digit (by simp)
      have unsigned : digit ≠ '+' ∧ digit ≠ '-' := by
        constructor <;> (rintro rfl; contradiction)
      simp [exponentSign, unsigned]
  · rfl
  · rfl

theorem exponent_append {power rest : List Char} (written : IsPower power) (filled : power ≠ [])
    (ends : Ends Char.isDigit rest) : exponent (power ++ rest) = (power, rest) := by
  rcases written with rfl | ⟨mark, sign, digits, rfl, known, signs, digitsWritten⟩
  · contradiction
  · have signed := exponentSign_append signs digitsWritten rest
    have run := takeWhile_of_ends digitsWritten.2 ends
    have behind := dropWhile_of_ends digitsWritten.2 ends
    have starts := startsWithDigit_append digitsWritten rest
    rw [List.cons_append, List.append_assoc, exponent]
    simp only [signed, run, behind, known, starts, and_self, if_true, List.cons_append]

/-- A minus sign and digits. -/
def signed (negative : Bool) (digits : List Char) : List Char :=
  if negative then '-' :: digits else digits

theorem signed_nil_append (negative : Bool) (digits : List Char) :
    signed negative [] ++ digits = signed negative digits := by
  cases negative <;> rfl

theorem sign_signed (negative : Bool) {digits : List Char} (written : IsFraction digits)
    (rest : List Char) :
    sign (signed negative digits ++ rest) = (signed negative [], digits ++ rest) := by
  cases negative with
  | true => rfl
  | false =>
    obtain ⟨filled, all⟩ := written
    cases digits with
    | nil => contradiction
    | cons digit others =>
      have isDigit := all digit (by simp)
      have unsigned : digit ≠ '-' := by
        rintro rfl
        contradiction
      simp only [signed, Bool.false_eq_true, if_false, List.cons_append]
      unfold sign
      split
      next same => exact absurd (List.cons.inj same).1 unsigned
      next => rfl

theorem starts_signed (negative : Bool) {digits : List Char} (written : IsFraction digits)
    (rest : List Char) : starts (signed negative digits ++ rest) = true := by
  have digit := startsWithDigit_append written rest
  cases negative with
  | true => exact digit
  | false =>
    simp only [signed, Bool.false_eq_true, if_false]
    unfold starts
    split
    next others same => simp [same, startsWithDigit] at digit
    next => exact digit

/-- The characters with which a numeral may go on. -/
def goesOn (character : Char) : Bool :=
  character.isDigit || character == '.' || character == 'e' || character == 'E'

/-- A numeral is scanned whole where nothing goes on with it. -/
theorem scan_numeral (negative : Bool) {whole places power rest : List Char}
    (before : IsWhole whole) (behind : IsPlaces places) (last : IsPower power)
    (ends : Ends goesOn rest) :
    scan (signed negative whole ++ (places ++ (power ++ rest))) =
      ⟨signed negative whole ++ (places ++ power), !places.isEmpty || !power.isEmpty, rest⟩ := by
  have digitless : Ends Char.isDigit rest :=
    ends.weaken fun character digit => by simp [goesOn, digit]
  have pointless : Ends (· == '.') rest :=
    ends.weaken fun character point => by simp_all [goesOn]
  have markless : Ends (fun character => character == 'e' || character == 'E') rest :=
    ends.weaken fun character mark => by simp_all [goesOn, or_assoc]
  have raised : exponent (power ++ rest) = (power, rest) := by
    by_cases filled : power = []
    · subst filled
      exact exponent_of_ends markless
    · exact exponent_append last filled digitless
  have placed : fraction (places ++ (power ++ rest)) = (places, power ++ rest) := by
    rcases behind with rfl | ⟨fraction, rfl, written⟩
    · exact fraction_of_ends (last.ends ⟨rfl, rfl⟩ pointless)
    · exact fraction_append written (last.ends ⟨rfl, rfl⟩ digitless)
  have stops : Ends Char.isDigit (places ++ (power ++ rest)) := by
    rcases behind with rfl | ⟨fraction, rfl, -⟩
    · exact last.ends ⟨rfl, rfl⟩ digitless
    · exact ends_cons (by decide) _
  rw [scan, sign_signed negative before.isFraction]
  simp only [whole_append before stops, placed, raised, List.append_assoc]
  rw [← signed_nil_append negative whole, List.append_assoc]

theorem writeInteger_eq (number : Int64) :
    ∃ negative digits, IsWhole digits ∧ writeInteger number = signed negative digits := by
  have written := Decimal.digits_isWhole number.toInt.natAbs
  by_cases negative : number.toInt < 0
  · exact ⟨true, _, written, if_pos negative⟩
  · exact ⟨false, _, written, if_neg negative⟩

theorem write_eq (layout : Binary64.Layout) {number : Binary64} (finite : number.isFinite = true) :
    ∃ negative whole places power, IsWhole whole ∧ IsPlaces places ∧ IsPower power ∧
      (places ≠ [] ∨ power ≠ []) ∧
      layout.write number = signed negative whole ++ (places ++ power) := by
  cases number with
  | infinite negative => contradiction
  | nan => contradiction
  | finite negative magnitude =>
    obtain ⟨whole, places, power, before, behind, last, filled, text, -⟩ :=
      Binary64.write_parts layout negative magnitude
    refine ⟨negative, whole, places, power, before, behind, last, filled, ?_⟩
    cases negative <;> simpa [signed] using text

end Numeral

end VectorQuery
