import VectorQuery.Proofs.Token.Scan

/-! The scan of a numeral takes the longest one that a text starts with. Each part takes all
that its form allows, and ends there where another part stands behind it, so that no numeral
goes on behind the place where the scan ends. -/
namespace VectorQuery
open Text

/-- The mark of an exponent is no digit and no point. -/
theorem IsPower.ends_of_filled {power : List Char} (written : IsPower power) (filled : power ≠ [])
    {kind : Char → Bool} (others : kind 'e' = false ∧ kind 'E' = false) (rest : List Char) :
    Ends kind (power ++ rest) := by
  rcases written with rfl | ⟨mark, sign, digits, rfl, rfl | rfl, -, -⟩
  · contradiction
  · exact ends_cons others.1 _
  · exact ends_cons others.2 _

theorem IsFraction.last {digits : List Char} (written : IsFraction digits) (front : List Char) :
    ∃ others digit, front ++ digits = others ++ [digit] ∧ digit.isDigit = true := by
  obtain ⟨filled, all⟩ := written
  refine ⟨front ++ digits.dropLast, digits.getLast filled, ?_, all _ (List.getLast_mem filled)⟩
  rw [List.append_assoc, List.dropLast_concat_getLast filled]

namespace Numeral

/-- An integer, or a float where a fraction or an exponent stands behind the whole digits. -/
inductive Written : Bool → List Char → Prop
  | parts {negative : Bool} {whole places power : List Char} :
      IsWhole whole → IsPlaces places → IsPower power →
        Written (!places.isEmpty || !power.isEmpty) (signed negative whole ++ (places ++ power))

/-! Parts. -/

/-- A part takes whatever of its form the text starts with. -/
def Greedy (part : List Char → List Char × List Char) (form : List Char → Prop) : Prop :=
  ∀ ⦃written rest⦄, form written → written <+: (part (written ++ rest)).1

theorem prefix_takeWhile {digits : List Char} (all : ∀ digit ∈ digits, digit.isDigit = true)
    (rest : List Char) : digits <+: (digits ++ rest).takeWhile Char.isDigit := by
  rw [List.takeWhile_append_of_pos all]
  exact List.prefix_append _ _

theorem whole_greedy : Greedy whole IsWhole := by
  intro digits rest written
  unfold whole
  split
  next others leads =>
    have head : digits.head? = some '0' := by
      rw [← List.head?_append_of_ne_nil _ written.1, leads]
      rfl
    obtain rfl := written.2.2 head
    exact List.prefix_refl _
  next => exact prefix_takeWhile written.2.1 rest

theorem fraction_greedy : Greedy fraction IsPlaces := by
  intro places rest written
  rcases written with rfl | ⟨digits, rfl, isFraction⟩
  · exact List.nil_prefix
  · rw [List.cons_append, fraction, if_pos (startsWithDigit_append isFraction rest)]
    exact List.cons_prefix_cons.mpr ⟨rfl, prefix_takeWhile isFraction.2 rest⟩

theorem exponent_greedy : Greedy exponent IsPower := by
  intro power rest written
  rcases written with rfl | ⟨mark, sign, digits, rfl, known, signs, isFraction⟩
  · exact List.nil_prefix
  · have signed := exponentSign_append signs isFraction rest
    have starts := startsWithDigit_append isFraction rest
    rw [List.cons_append, List.append_assoc, exponent]
    simp only [signed, known, starts, and_self, if_true, List.cons_append]
    refine List.cons_prefix_cons.mpr ⟨rfl, (List.prefix_append_right_inj sign).mpr ?_⟩
    exact prefix_takeWhile isFraction.2 rest

/-! Parts one behind another. A part that is the last one may take more than is asked; in
front of another part it stops. -/

theorem ends_of_fractional {places power : List Char} (behind : IsPlaces places)
    (last : IsPower power) (filled : places ++ power ≠ []) (rest : List Char) :
    Ends Char.isDigit (places ++ (power ++ rest)) := by
  rcases behind with rfl | ⟨digits, rfl, -⟩
  · exact last.ends_of_filled filled ⟨by decide, by decide⟩ rest
  · exact ends_cons (by decide) _

theorem fraction_of_power {places power : List Char} (behind : IsPlaces places)
    (last : IsPower power) (filled : power ≠ []) (rest : List Char) :
    fraction (places ++ (power ++ rest)) = (places, power ++ rest) := by
  rcases behind with rfl | ⟨digits, rfl, isFraction⟩
  · exact fraction_of_ends (last.ends_of_filled filled ⟨by decide, by decide⟩ rest)
  · exact fraction_append isFraction (last.ends_of_filled filled ⟨by decide, by decide⟩ rest)

theorem prefix_fractional {places power : List Char} (behind : IsPlaces places)
    (last : IsPower power) (rest : List Char) : places ++ power <+:
      (fraction (places ++ (power ++ rest))).1 ++
        (exponent (fraction (places ++ (power ++ rest))).2).1 := by
  by_cases filled : power = []
  · subst filled
    rw [List.append_nil, List.nil_append]
    exact (fraction_greedy behind).trans (List.prefix_append _ _)
  · rw [fraction_of_power behind last filled rest]
    exact (List.prefix_append_right_inj places).mpr (exponent_greedy last)

/-- No numeral that a text starts with goes on behind the scanned one. -/
theorem prefix_scan {isFloat : Bool} {numeral text : List Char} (written : Written isFloat numeral)
    (front : numeral <+: text) : numeral <+: (scan text).spelling := by
  obtain ⟨rest, rfl⟩ := front
  cases written with
  | @parts negative whole places power before behind last =>
    have minus := sign_signed negative before.isFraction (places ++ (power ++ rest))
    simp only [scan, List.append_assoc, minus]
    rw [← signed_nil_append, List.append_assoc]
    refine (List.prefix_append_right_inj _).mpr ?_
    by_cases filled : places ++ power = []
    · obtain ⟨rfl, rfl⟩ := List.append_eq_nil_iff.mp filled
      simp only [List.append_nil, List.nil_append]
      exact (whole_greedy before).trans (List.prefix_append _ _)
    · rw [whole_append before (ends_of_fractional behind last filled rest)]
      exact (List.prefix_append_right_inj whole).mpr (prefix_fractional behind last rest)

/-! The scanned numeral. -/

theorem written_scan {text : List Char} (starting : starts text = true) :
    Written (scan text).isFloat (scan text).spelling := by
  obtain ⟨negative, whole, places, power, before, behind, last, form, isFloat⟩ :=
    scan_form starting
  rw [form, isFloat]
  exact .parts before behind last

/-- A numeral alone is scanned whole, so that it is of one kind only. -/
theorem Written.scan_eq {isFloat : Bool} {numeral : List Char} (written : Written isFloat numeral) :
    scan numeral = ⟨numeral, isFloat, []⟩ := by
  cases written with
  | parts before behind last => simpa using scan_numeral _ before behind last (ends_nil goesOn)

theorem Written.last {isFloat : Bool} {numeral : List Char} (written : Written isFloat numeral) :
    ∃ front digit, numeral = front ++ [digit] ∧ digit.isDigit = true := by
  cases written with
  | @parts negative whole places power before behind last =>
    rcases last with rfl | ⟨mark, sign, digits, rfl, -, -, isFraction⟩
    · rcases behind with rfl | ⟨digits, rfl, isFraction⟩
      · simpa [signed_nil_append] using before.isFraction.last (signed negative [])
      · simpa using isFraction.last (signed negative whole ++ ['.'])
    · simpa using isFraction.last (signed negative whole ++ (places ++ mark :: sign))

/-- A text that starts with a digit, or with a minus sign and a digit, is cut into the longest
numeral in front and what follows. The numeral is a float exactly if it has a fraction or an
exponent. Its last character is a digit, so that neither a point nor the mark or the sign of
an exponent is taken without digits behind it. -/
theorem scan_longest {text : List Char} (starting : starts text = true) :
    text = (scan text).spelling ++ (scan text).rest ∧
    (∀ isFloat, Written isFloat (scan text).spelling ↔ (scan text).isFloat = isFloat) ∧
    (∀ isFloat numeral, Written isFloat numeral → numeral <+: text →
      numeral <+: (scan text).spelling) ∧
    ∃ front digit, (scan text).spelling = front ++ [digit] ∧ digit.isDigit = true := by
  have written := written_scan starting
  refine ⟨(scan_cuts text).1, fun isFloat => ⟨fun other => ?_, ?_⟩, ?_, written.last⟩
  · exact congrArg Scanned.isFloat (written.scan_eq.symm.trans other.scan_eq)
  · rintro rfl
    exact written
  · exact fun _ _ => prefix_scan

/-- A fraction is taken, and a mark and a sign with no digits behind them are left. -/
theorem scan_longest_of_dangling :
    let text := "-0.50e+.7".toList
    let numeral := "-0.50".toList
    starts text = true ∧ scan text = ⟨numeral, true, "e+.7".toList⟩ ∧
    Written true numeral ∧ ¬Written false numeral ∧
    ∀ isFloat other, Written isFloat other → other <+: text → other <+: numeral := by
  intro text numeral
  have starting : starts text = true := by decide
  have scanned : scan text = ⟨numeral, true, "e+.7".toList⟩ := by decide
  obtain ⟨-, kind, longest, -⟩ := scan_longest starting
  rw [scanned] at kind longest
  exact ⟨starting, scanned, (kind true).mpr rfl, fun other => absurd ((kind false).mp other) (by simp),
    longest⟩

end Numeral

end VectorQuery
