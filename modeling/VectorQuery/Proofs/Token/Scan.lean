import VectorQuery.Proofs.Token.Numeral

/-! What the scan of a numeral takes. It stands in front of what is left and has the form
of a numeral; and it is taken as well where what follows is cut short, since every look
ahead asks for more characters and never for fewer. -/
namespace VectorQuery.Numeral
open Text

theorem startsWithDigit_of_prefix {text rest : List Char} (shorter : rest <+: text)
    (starts : startsWithDigit rest = true) : startsWithDigit text = true := by
  obtain ⟨behind, rfl⟩ := shorter
  cases rest with
  | nil => contradiction
  | cons head tail => exact starts

theorem isFraction_takeWhile {text : List Char} (starts : startsWithDigit text = true) :
    IsFraction (text.takeWhile Char.isDigit) := by
  refine ⟨?_, List.all_eq_true.mp List.all_takeWhile⟩
  cases text with
  | nil => contradiction
  | cons digit others =>
    have isDigit : digit.isDigit = true := starts
    simp [isDigit]

/-! What is taken, and what is left. -/

/-- What a part of a numeral takes stands in front of what it leaves, and it takes the same
in front of less. -/
def Cuts (part : List Char → List Char × List Char) : Prop :=
  ∀ ⦃text taken left⦄, part text = (taken, left) →
    text = taken ++ left ∧ ∀ ⦃rest⦄, rest <+: left → part (taken ++ rest) = (taken, rest)

theorem cuts_nil {part : List Char → List Char × List Char} {text : List Char}
    (stays : ∀ ⦃rest⦄, rest <+: text → part rest = ([], rest)) {taken left : List Char}
    (cut : part text = (taken, left)) :
    text = taken ++ left ∧ ∀ ⦃rest⦄, rest <+: left → part (taken ++ rest) = (taken, rest) := by
  rw [stays (List.prefix_refl text)] at cut
  obtain ⟨rfl, rfl⟩ := Prod.mk.inj cut
  exact ⟨rfl, stays⟩

theorem sign_cuts : Cuts sign := by
  intro text taken left cut
  by_cases leads : ∃ others, text = '-' :: others
  · obtain ⟨others, rfl⟩ := leads
    obtain ⟨rfl, rfl⟩ := Prod.mk.inj cut
    exact ⟨rfl, fun rest _ => rfl⟩
  · refine cuts_nil (fun rest shorter => ?_) cut
    unfold sign
    split
    next others =>
      obtain ⟨behind, rfl⟩ := shorter
      exact absurd ⟨_, rfl⟩ leads
    next => rfl

theorem whole_cuts : Cuts whole := by
  intro text taken left cut
  by_cases leads : ∃ others, text = '0' :: others
  · obtain ⟨others, rfl⟩ := leads
    obtain ⟨rfl, rfl⟩ := Prod.mk.inj cut
    exact ⟨rfl, fun rest _ => rfl⟩
  · have run {text : List Char} (leadless : ¬∃ others, text = '0' :: others) :
        whole text = (text.takeWhile Char.isDigit, text.dropWhile Char.isDigit) := by
      unfold whole
      split
      next others => exact absurd ⟨others, rfl⟩ leadless
      next => rfl
    rw [run leads] at cut
    obtain ⟨rfl, rfl⟩ := Prod.mk.inj cut
    refine ⟨List.takeWhile_append_dropWhile.symm, fun rest shorter => ?_⟩
    have all := List.all_eq_true.mp (List.all_takeWhile (l := text) (p := Char.isDigit))
    have ends := ends_dropWhile Char.isDigit text
    have leadless : ¬∃ others, text.takeWhile Char.isDigit ++ rest = '0' :: others := by
      rintro ⟨others, same⟩
      obtain ⟨behind, whole⟩ := shorter
      refine leads ⟨others ++ behind, ?_⟩
      rw [← List.cons_append, ← same, List.append_assoc, whole, List.takeWhile_append_dropWhile]
    rw [run leadless, takeWhile_of_ends all (ends.shorten shorter),
      dropWhile_of_ends all (ends.shorten shorter)]

theorem fraction_cuts : Cuts fraction := by
  intro text taken left cut
  by_cases leads : ∃ others, text = '.' :: others ∧ startsWithDigit others = true
  · obtain ⟨others, rfl, starts⟩ := leads
    rw [fraction, if_pos starts] at cut
    obtain ⟨rfl, rfl⟩ := Prod.mk.inj cut
    refine ⟨by simp, fun rest shorter => ?_⟩
    exact fraction_append (isFraction_takeWhile starts) ((ends_dropWhile _ _).shorten shorter)
  · refine cuts_nil (fun rest shorter => ?_) cut
    unfold fraction
    split
    next others =>
      have digitless : ¬startsWithDigit others = true := by
        intro starts
        obtain ⟨behind, rfl⟩ := shorter
        exact leads ⟨_, rfl, startsWithDigit_of_prefix (List.prefix_append others behind) starts⟩
      rw [if_neg digitless]
    next => rfl

theorem exponentSign_of_prefix {text rest : List Char} (shorter : rest <+: text) :
    (exponentSign rest).2 <+: (exponentSign text).2 := by
  obtain ⟨behind, rfl⟩ := shorter
  cases rest with
  | nil => exact List.nil_prefix
  | cons character others =>
    by_cases plus : character = '+'
    · subst plus
      exact List.prefix_append others behind
    · by_cases minus : character = '-'
      · subst minus
        exact List.prefix_append others behind
      · simp [exponentSign, plus, minus]

theorem exponentSign_split (text : List Char) :
    text = (exponentSign text).1 ++ (exponentSign text).2 ∧
      ((exponentSign text).1 = [] ∨ (exponentSign text).1 = ['+'] ∨
        (exponentSign text).1 = ['-']) := by
  unfold exponentSign
  split <;> simp

theorem exponent_cuts : Cuts exponent := by
  intro text taken left cut
  by_cases leads : ∃ mark others, text = mark :: others ∧ (mark = 'e' ∨ mark = 'E') ∧
      startsWithDigit (exponentSign others).2 = true
  · obtain ⟨mark, others, rfl, known, starts⟩ := leads
    obtain ⟨split, signs⟩ := exponentSign_split others
    rw [exponent] at cut
    simp only [known, starts, and_self, if_true] at cut
    obtain ⟨rfl, rfl⟩ := Prod.mk.inj cut
    refine ⟨by simp [← split], fun rest shorter => ?_⟩
    have power : IsPower (mark :: (exponentSign others).1 ++
        (exponentSign others).2.takeWhile Char.isDigit) :=
      .inr ⟨mark, _, _, rfl, known, signs, isFraction_takeWhile starts⟩
    exact exponent_append power (by simp) ((ends_dropWhile _ _).shorten shorter)
  · refine cuts_nil (fun rest shorter => ?_) cut
    cases rest with
    | nil => rfl
    | cons mark others =>
      rw [exponent]
      refine if_neg ?_
      rintro ⟨known, starts⟩
      obtain ⟨behind, rfl⟩ := shorter
      have tails := exponentSign_of_prefix (List.prefix_append others behind)
      exact leads ⟨mark, others ++ behind, rfl, known, startsWithDigit_of_prefix tails starts⟩

/-- A scanned numeral stands in front of what is left, and is scanned alike in front of
less. -/
theorem scan_cuts (text : List Char) :
    text = (scan text).spelling ++ (scan text).rest ∧ ∀ ⦃rest⦄, rest <+: (scan text).rest →
      scan ((scan text).spelling ++ rest) = ⟨(scan text).spelling, (scan text).isFloat, rest⟩ := by
  obtain ⟨⟨minus, unsigned⟩, signed⟩ : ∃ cut, sign text = cut := ⟨_, rfl⟩
  obtain ⟨⟨digits, behindDigits⟩, numbered⟩ : ∃ cut, whole unsigned = cut := ⟨_, rfl⟩
  obtain ⟨⟨places, behindPlaces⟩, pointed⟩ : ∃ cut, fraction behindDigits = cut := ⟨_, rfl⟩
  obtain ⟨⟨power, left⟩, raised⟩ : ∃ cut, exponent behindPlaces = cut := ⟨_, rfl⟩
  obtain ⟨rfl, signCut⟩ := sign_cuts signed
  obtain ⟨rfl, wholeCut⟩ := whole_cuts numbered
  obtain ⟨rfl, pointCut⟩ := fraction_cuts pointed
  obtain ⟨rfl, powerCut⟩ := exponent_cuts raised
  simp only [scan, signed, numbered, pointed, raised]
  refine ⟨by simp, fun rest shorter => ?_⟩
  have behindPower : power ++ rest <+: power ++ left := (List.prefix_append_right_inj _).mpr shorter
  have behindPoint : places ++ (power ++ rest) <+: places ++ (power ++ left) :=
    (List.prefix_append_right_inj _).mpr behindPower
  have behindWhole : digits ++ (places ++ (power ++ rest)) <+:
      digits ++ (places ++ (power ++ left)) :=
    (List.prefix_append_right_inj _).mpr behindPoint
  simp only [List.append_assoc, signCut behindWhole, wholeCut behindPoint, pointCut behindPower,
    powerCut shorter]

/-! The form of a scanned numeral. -/

theorem sign_form {text : List Char} (starting : starts text = true) :
    ∃ negative, (sign text).1 = signed negative [] ∧ startsWithDigit (sign text).2 = true := by
  unfold starts at starting
  split at starting
  next rest => exact ⟨true, rfl, starting⟩
  next unsigned =>
    unfold sign
    split
    next rest => exact absurd rfl (unsigned rest)
    next => exact ⟨false, rfl, starting⟩

theorem whole_form {text : List Char} (starting : startsWithDigit text = true) :
    IsWhole (whole text).1 := by
  unfold whole
  split
  next rest => exact isWhole_singleton (by decide)
  next leadless =>
    obtain ⟨filled, all⟩ := isFraction_takeWhile starting
    refine ⟨filled, all, fun leads => ?_⟩
    cases text with
    | nil => contradiction
    | cons digit others =>
      have isDigit : digit.isDigit = true := starting
      obtain rfl : digit = '0' := by simpa [isDigit] using leads
      exact absurd rfl (leadless others)

theorem fraction_form (text : List Char) : IsPlaces (fraction text).1 := by
  unfold fraction
  split
  next rest =>
    split_ifs with starting
    · exact .inr ⟨_, rfl, isFraction_takeWhile starting⟩
    · exact .inl rfl
  next => exact .inl rfl

theorem exponent_form (text : List Char) : IsPower (exponent text).1 := by
  cases text with
  | nil => exact .inl rfl
  | cons mark rest =>
    rw [exponent]
    split_ifs with known
    · exact .inr ⟨mark, _, _, rfl, known.1, (exponentSign_split rest).2,
        isFraction_takeWhile known.2⟩
    · exact .inl rfl

theorem scan_form {text : List Char} (starting : starts text = true) :
    ∃ negative whole places power, IsWhole whole ∧ IsPlaces places ∧ IsPower power ∧
      (scan text).spelling = signed negative whole ++ (places ++ power) ∧
      (scan text).isFloat = (!places.isEmpty || !power.isEmpty) := by
  obtain ⟨negative, minus, digit⟩ := sign_form starting
  have before := whole_form digit
  have behind := fraction_form (whole (sign text).2).2
  have last := exponent_form (fraction (whole (sign text).2).2).2
  refine ⟨negative, _, _, _, before, behind, last, ?_, ?_⟩
  · rw [← signed_nil_append, ← minus]
    simp only [scan, List.append_assoc]
  · simp only [scan]

end VectorQuery.Numeral
