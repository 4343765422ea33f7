import VectorQuery.Binary64
import VectorQuery.Proofs.Decimal

/-! Floats that are written read back. The shortest decimal is chosen so that it does;
where none of seventeen digits does, the exact value stands in, and that is read back
because nothing has to be rounded. -/
namespace VectorQuery

theorem Decimal.ratio_integral (significand : Nat) : ratio ⟨significand, 0⟩ = (significand, 1) :=
  congrArg (·, 1) (Nat.mul_one significand)

namespace Magnitude

/-- Rounding a quotient does not depend on how it is expanded. -/
theorem nearest_expand (numerator denominator : Nat) {factor : Nat} (positive : 0 < factor) :
    nearest (numerator * factor) (denominator * factor) = nearest numerator denominator := by
  have less (part : Nat) : 2 * (part * factor) < denominator * factor ↔ 2 * part < denominator := by
    rw [← Nat.mul_assoc]
    exact Nat.mul_lt_mul_right positive
  have half (part : Nat) : 2 * (part * factor) = denominator * factor ↔ 2 * part = denominator := by
    rw [← Nat.mul_assoc]
    exact Nat.mul_left_inj (by omega)
  simp only [nearest, Nat.mul_div_mul_right _ _ positive, Nat.mul_mod_mul_right, less, half]

theorem ofRatio?_expand (numerator denominator : Nat) {factor : Nat} (positive : 0 < factor) :
    ofRatio? (numerator * factor) (denominator * factor) = ofRatio? numerator denominator := by
  have scaled : numerator * factor * scale = numerator * scale * factor := Nat.mul_right_comm ..
  have expanded (power : Nat) :
      denominator * factor * power = denominator * power * factor := Nat.mul_right_comm ..
  simp only [ofRatio?, scaled, expanded, Nat.mul_div_mul_right _ _ positive,
    nearest_expand _ _ positive]

theorem ofDecimal?_pointed (decimal : Decimal) : ofDecimal? decimal.pointed = ofDecimal? decimal := by
  obtain ⟨significand, exponent⟩ := decimal
  cases exponent with
  | negSucc power => rfl
  | ofNat power =>
    by_cases zero : significand = 0
    · simp [ofDecimal?, Decimal.pointed, zero]
    · have width : (Decimal.pointed ⟨significand, .ofNat power⟩).width =
          Decimal.width ⟨significand, .ofNat power⟩ := by
        simp only [Decimal.pointed, Decimal.width, Decimal.length_digits_shift zero]
        simp only [Int.ofNat_eq_natCast]
        omega
      have ratio : ofRatio? (Decimal.pointed ⟨significand, .ofNat power⟩).ratio.1
          (Decimal.pointed ⟨significand, .ofNat power⟩).ratio.2 =
          ofRatio? (Decimal.ratio ⟨significand, .ofNat power⟩).1
            (Decimal.ratio ⟨significand, .ofNat power⟩).2 := by
        have expand := ofRatio?_expand (significand * 10 ^ power) 1 (show 0 < 10 by decide)
        rw [Nat.mul_assoc, ← Nat.pow_succ] at expand
        exact expand
      have filled : (Decimal.pointed ⟨significand, .ofNat power⟩).significand ≠ 0 :=
        Nat.mul_ne_zero zero (Nat.ne_of_gt (Nat.pow_pos (show 0 < 10 by decide)))
      simp only [ofDecimal?, width, ratio, filled, zero]

theorem eq_zero_of_significand {magnitude : Magnitude} (none : magnitude.significand = 0) :
    magnitude = zero := by
  obtain ⟨significand, exponent, canonical⟩ := magnitude
  obtain rfl : significand = 0 := none
  obtain rfl : exponent = 0 := by
    rcases canonical.2.2 with least | least
    · simp at least
    · exact least
  rfl

theorem make?_canonical (magnitude : Magnitude) :
    make? magnitude.significand magnitude.exponent = some magnitude :=
  dif_pos magnitude.canonical

theorem nearest_of_multiple (quotient : Nat) {denominator : Nat} (positive : 0 < denominator) :
    nearest (quotient * denominator) denominator = quotient := by
  simp [nearest, Nat.mul_div_cancel _ positive, positive]

theorem log2_canonical {significand exponent : Nat} (canonical : Canonical significand exponent)
    (positive : significand ≠ 0) : (significand * 2 ^ exponent).log2 - 52 = exponent := by
  have filled : significand * 2 ^ exponent ≠ 0 :=
    Nat.mul_ne_zero positive (Nat.ne_of_gt (Nat.pow_pos (show 0 < 2 by decide)))
  obtain ⟨most, _, least | none⟩ := canonical
  · have log : (significand * 2 ^ exponent).log2 = 52 + exponent := by
      rw [Nat.log2_eq_iff filled, Nat.pow_add, Nat.add_right_comm, Nat.pow_add]
      exact ⟨Nat.mul_le_mul_right _ least, Nat.mul_lt_mul_of_pos_right most (Nat.pow_pos (by decide))⟩
    omega
  · have small := (Nat.log2_lt filled).mpr (show significand * 2 ^ exponent < 2 ^ 53 by simpa [none] using most)
    omega

/-- A quotient that is a magnitude is not rounded. -/
theorem ofRatio?_of_exact {magnitude : Magnitude} (positive : magnitude.significand ≠ 0)
    {numerator denominator : Nat} (nonzero : 0 < denominator)
    (exact : numerator * scale = magnitude.significand * 2 ^ magnitude.exponent * denominator) :
    ofRatio? numerator denominator = some magnitude := by
  have quotient : numerator * scale / denominator = magnitude.significand * 2 ^ magnitude.exponent := by
    rw [exact, Nat.mul_div_cancel _ nonzero]
  have log := log2_canonical magnitude.canonical positive
  have unrounded : nearest (numerator * scale) (denominator * Nat.pow 2 magnitude.exponent) =
      magnitude.significand := by
    rw [exact, Nat.mul_assoc, Nat.mul_comm _ denominator]
    exact nearest_of_multiple _ (Nat.mul_pos nonzero (Nat.pow_pos (by decide)))
  simp only [ofRatio?, quotient, log, unrounded]
  rw [if_pos magnitude.canonical.1, make?_canonical]

/-- An integral magnitude has at most 309 digits. -/
theorem length_integral (magnitude : Magnitude) :
    (Decimal.digits (magnitude.significand * Nat.pow 2 (magnitude.exponent - 1074))).length ≤ 309 := by
  obtain ⟨most, bound, _⟩ := magnitude.canonical
  rw [Decimal.length_digits_le_iff (by decide)]
  calc magnitude.significand * 2 ^ (magnitude.exponent - 1074)
      < 2 ^ 53 * 2 ^ (magnitude.exponent - 1074) :=
        Nat.mul_lt_mul_of_pos_right most (Nat.pow_pos (by decide))
    _ ≤ 2 ^ 53 * 2 ^ 971 :=
        Nat.mul_le_mul_left _ (Nat.pow_le_pow_right (by decide) (by omega))
    _ ≤ 10 ^ 309 := by decide +kernel

/-- Behind the point at most 309 digits are left over. -/
theorem length_fractional_le (magnitude : Magnitude) (places : Nat) :
    (Decimal.digits (magnitude.significand * Nat.pow 5 places)).length ≤ 309 + places := by
  rw [Decimal.length_digits_le_iff (by omega), Nat.pow_add]
  calc magnitude.significand * 5 ^ places
      < 2 ^ 53 * 5 ^ places :=
        Nat.mul_lt_mul_of_pos_right magnitude.canonical.1 (Nat.pow_pos (by decide))
    _ ≤ 10 ^ 309 * 10 ^ places :=
        Nat.mul_le_mul (by decide +kernel) (Nat.pow_le_pow_left (by decide) _)

/-- At most 324 of the places behind the point are in front of the digits. -/
theorem le_length_fractional {significand : Nat} (positive : significand ≠ 0) {places : Nat}
    (most : places ≤ 1074) :
    places - 324 ≤ (Decimal.digits (significand * Nat.pow 5 places)).length := by
  refine Nat.le_of_not_lt fun shorter => ?_
  obtain ⟨power, rfl⟩ : ∃ power, places = power + 325 := ⟨places - 325, by omega⟩
  have longer := Decimal.length_digits_pos (significand * Nat.pow 5 (power + 325))
  have below : significand * 5 ^ (power + 325) < 10 ^ power :=
    (Decimal.length_digits_le_iff (by omega)).mp (by rw [Nat.pow_eq] at shorter; omega)
  have above : 10 ^ power ≤ significand * 5 ^ (power + 325) := by
    calc 10 ^ power = 5 ^ power * 2 ^ power := by rw [← Nat.mul_pow]
      _ ≤ 5 ^ power * 2 ^ 749 :=
          Nat.mul_le_mul_left _ (Nat.pow_le_pow_right (by decide) (by omega))
      _ ≤ 5 ^ power * 5 ^ 325 := Nat.mul_le_mul_left _ (by decide +kernel)
      _ = 5 ^ (power + 325) := (Nat.pow_add 5 power 325).symm
      _ ≤ significand * 5 ^ (power + 325) :=
          Nat.le_mul_of_pos_left _ (Nat.pos_of_ne_zero positive)
  exact Nat.not_lt.mpr above below

/-- The widths of magnitudes stay within the range that is not cut off. -/
theorem width_exact (magnitude : Magnitude) (positive : magnitude.significand ≠ 0) :
    -324 ≤ magnitude.exact.width ∧ magnitude.exact.width ≤ 309 := by
  unfold exact
  split
  next integral =>
    have most := length_integral magnitude
    simp only [Decimal.width]
    omega
  next fractional =>
    have least := le_length_fractional positive (Nat.sub_le 1074 magnitude.exponent)
    have most := length_fractional_le magnitude (1074 - magnitude.exponent)
    simp only [Decimal.width]
    omega

theorem ratio_exact (magnitude : Magnitude) : 0 < magnitude.exact.ratio.2 ∧
    magnitude.exact.ratio.1 * scale =
      magnitude.significand * 2 ^ magnitude.exponent * magnitude.exact.ratio.2 := by
  unfold exact
  split
  next integral =>
    have power : 2 ^ magnitude.exponent = 2 ^ (magnitude.exponent - 1074) * scale :=
      (Nat.pow_sub_mul_pow 2 integral).symm
    rw [Decimal.ratio_integral, power]
    exact ⟨Nat.one_pos, by simp only [Nat.mul_one, Nat.mul_assoc, Nat.pow_eq]⟩
  next fractional =>
    obtain ⟨places, depth⟩ : ∃ places, 1074 - magnitude.exponent = places + 1 :=
      ⟨1073 - magnitude.exponent, by omega⟩
    have exponent : (magnitude.exponent : Int) - 1074 = Int.negSucc places := by omega
    have power : scale = 2 ^ magnitude.exponent * 2 ^ (places + 1) := by
      rw [scale, Nat.pow_eq, ← Nat.pow_add]
      congr 1
      omega
    simp only [Decimal.ratio, exponent, depth, Nat.pow_eq]
    refine ⟨Nat.pow_pos (by decide), ?_⟩
    rw [power, show 10 ^ (places + 1) = 5 ^ (places + 1) * 2 ^ (places + 1) by rw [← Nat.mul_pow]]
    ac_rfl

theorem ofDecimal?_exact (magnitude : Magnitude) : ofDecimal? magnitude.exact = some magnitude := by
  by_cases none : magnitude.significand = 0
  · have : magnitude.exact.significand = 0 := by
      unfold exact
      split <;> simp [none]
    rw [ofDecimal?, if_pos (.inl this), eq_zero_of_significand none]
  · obtain ⟨least, most⟩ := width_exact magnitude none
    obtain ⟨nonzero, exact⟩ := ratio_exact magnitude
    have filled : magnitude.exact.significand ≠ 0 := by
      unfold Magnitude.exact
      split
      · exact Nat.mul_ne_zero none (Nat.ne_of_gt (Nat.pow_pos (show 0 < 2 by decide)))
      · exact Nat.mul_ne_zero none (Nat.ne_of_gt (Nat.pow_pos (show 0 < 5 by decide)))
    rw [ofDecimal?, if_neg (by simp only [filled, false_or]; omega), if_neg (by omega),
      ofRatio?_of_exact none nonzero exact]

theorem ofDecimal?_shortest (tie : Tie) (magnitude : Magnitude) :
    ofDecimal? (magnitude.shortest tie) = some magnitude := by
  unfold shortest
  split
  next none =>
    rw [eq_zero_of_significand none]
    rfl
  next positive =>
    simp only
    cases found : (List.range 17).findSome? _ with
    | none => exact ofDecimal?_exact magnitude
    | some decimal =>
      obtain ⟨_, _, chosen⟩ := List.exists_of_findSome?_eq_some found
      simpa using List.find?_some chosen

theorem shortest_proper (tie : Tie) (magnitude : Magnitude) :
    (magnitude.shortest tie).significand ≠ 0 ∨ (magnitude.shortest tie).exponent = 0 := by
  by_cases none : magnitude.significand = 0
  · right
    rw [shortest, if_pos none]
  · left
    intro nothing
    have read := ofDecimal?_shortest tie magnitude
    rw [ofDecimal?, if_pos (.inl nothing)] at read
    exact none (Option.some.inj read ▸ rfl)

end Magnitude

namespace Binary64

theorem positional_shortest (tie : Tie) (magnitude : Magnitude) :
    ∃ whole fraction, IsWhole whole ∧ IsFraction fraction ∧
      (magnitude.shortest tie).positional = whole ++ '.' :: fraction ∧
      Magnitude.ofDecimal? ⟨Decimal.ofDigits (whole ++ fraction), -fraction.length⟩ =
        some magnitude := by
  obtain ⟨whole, fraction, text, before, behind, pointed⟩ :=
    Decimal.positional_parts (magnitude.shortest tie) (Magnitude.shortest_proper ..)
  refine ⟨whole, fraction, before, behind, text, ?_⟩
  rw [← pointed, Magnitude.ofDecimal?_pointed, Magnitude.ofDecimal?_shortest]

/-- Under every layout a finite number is a numeral with a point or an exponent, and
another magnitude has another one. -/
theorem write_parts (layout : Layout) (negative : Bool) (magnitude : Magnitude) :
    ∃ whole places power, IsWhole whole ∧ IsPlaces places ∧ IsPower power ∧
      (places ≠ [] ∨ power ≠ []) ∧
      layout.write (.finite negative magnitude) =
        (if negative then ['-'] else []) ++ (whole ++ (places ++ power)) ∧
      (Decimal.read? (whole ++ (places ++ power))).bind Magnitude.ofDecimal? = some magnitude := by
  by_cases positional : layout.positional ((magnitude.shortest layout.tie).width - 1) = true
  · obtain ⟨whole, fraction, before, behind, text, value⟩ := positional_shortest layout.tie magnitude
    refine ⟨whole, '.' :: fraction, [], before, .inr ⟨fraction, rfl, behind⟩, .inl rfl,
      .inl (by simp), ?_, ?_⟩
    · cases negative <;> simp [Layout.write, positional, text]
    · rw [List.append_nil, Decimal.read?_of_parts before.isFraction behind, Option.bind_some, value]
  · obtain ⟨whole, places, power, text, before, behind, last, filled, read⟩ :=
      (magnitude.shortest layout.tie).scientific_parts
    refine ⟨whole, places, power, before, behind, last, .inr filled, ?_, ?_⟩
    · cases negative <;> simp [Layout.write, positional, text]
    · rw [← text, read, Option.bind_some, Magnitude.ofDecimal?_shortest]

theorem read?_unsigned {digits : List Char} (written : IsFraction digits) (rest : List Char) :
    read? (digits ++ rest) = (Decimal.read? (digits ++ rest)).map (ofDecimal false) := by
  have unsigned (sign : Char) (plain : sign.isDigit = false) (others : List Char) :
      digits ++ rest ≠ sign :: others := by
    intro same
    have leads := congrArg List.head? same
    rw [List.head?_append_of_ne_nil _ written.1] at leads
    have isDigit := written.2 sign (List.mem_of_mem_head? leads)
    simp [isDigit] at plain
  unfold read?
  split
  next same => exact absurd same (unsigned '-' (by decide) _)
  next same => exact absurd same (unsigned '+' (by decide) _)
  next => rfl

/-- What is written reads back, whatever the layout. -/
theorem read?_write (layout : Layout) {number : Binary64} (finite : number.isFinite = true) :
    read? (layout.write number) = some number := by
  cases number with
  | infinite negative => contradiction
  | nan => contradiction
  | finite negative magnitude =>
    obtain ⟨whole, places, power, before, -, -, -, text, value⟩ :=
      write_parts layout negative magnitude
    obtain ⟨decimal, read, value⟩ := Option.bind_eq_some_iff.mp value
    cases negative with
    | true =>
      simp only [text, if_true, List.cons_append, List.nil_append, read?, read, Option.map_some,
        ofDecimal, value]
    | false =>
      rw [text, if_neg (by decide), List.nil_append, read?_unsigned before.isFraction, read,
        Option.map_some, ofDecimal, value]

end Binary64

end VectorQuery
