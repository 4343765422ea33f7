import VectorQuery.Proofs.Predicate.Path

/-! The operands of predicates. Terms are told apart by their characters, and an
operand by its terms, since operations group from the left. A minus before a number
reads like a negative number, so operands are told apart up to that. -/
namespace VectorQuery

/-- What may follow an operand: a delimiter, but no operation. -/
def EndsArithmetic (text : List Char) : Prop :=
  Delimited text ∧ ∀ (operation : Arithmetic) (rest : List Char),
    text ≠ ' ' :: (operation.symbol.toList ++ ' ' :: rest)

theorem endsArithmetic_of_bracket (rest : List Char) : EndsArithmetic (')' :: rest) :=
  ⟨delimited_cons (by decide) rest, fun _ _ => by simp⟩

namespace Operand

def isTerm : Operand → Bool
  | .binary _ _ _ => false
  | _ => true

def isPrimary : Operand → Bool
  | .signed _ _ | .binary _ _ _ => false
  | _ => true

/-- Operands as statements write them, with numbers for floats: a sign stands before a
primary, and a term on the right of every operation. -/
def WellFormed : Operand → Prop
  | .path field | .arrayLength field => field.IsNamed
  | .literal value => value.isFinite = true
  | .signed _ operand => operand.isPrimary = true ∧ operand.WellFormed
  | .binary left _ right => left.WellFormed ∧ right.isTerm = true ∧ right.WellFormed
  | .nested operand => operand.WellFormed

/-- A sign before an operand, where a minus before a number becomes part of it. -/
def withSign : Sign → Operand → Operand
  | .minus, .literal value => (value.opposite?).elim (.signed .minus (.literal value)) .literal
  | sign, operand => .signed sign operand

/-- The operand with every minus before a number made part of it. -/
def normal : Operand → Operand
  | .signed sign operand => withSign sign operand.normal
  | .binary left operation right => .binary left.normal operation right.normal
  | .nested operand => .nested operand.normal
  | .path field => .path field
  | .arrayLength field => .arrayLength field
  | .literal value => .literal value

/-- The characters of the operand in a predicate. -/
def characters (operand : Operand) : List Char :=
  operand.predicate.toList

theorem characters_path (field : Path) : (Operand.path field).characters = field.characters :=
  field.predicate_toList

theorem characters_arrayLength (field : Path) : (Operand.arrayLength field).characters =
    "ARRAY_LENGTH".toList ++ '(' :: (field.characters ++ [')']) := by
  simp [characters, predicate, ← Path.predicate_toList]

theorem characters_plus (operand : Operand) :
    (Operand.signed .plus operand).characters = '+' :: operand.characters := by
  simp [characters, predicate, Sign.symbol]

theorem characters_minus (operand : Operand) :
    (Operand.signed .minus operand).characters = '-' :: operand.characters := by
  simp [characters, predicate, Sign.symbol]

theorem characters_binary (left : Operand) (operation : Arithmetic) (right : Operand) :
    (Operand.binary left operation right).characters = left.characters ++
      ' ' :: (operation.symbol.toList ++ ' ' :: right.characters) := by
  simp [characters, predicate]

theorem characters_nested (operand : Operand) :
    (Operand.nested operand).characters = '(' :: (operand.characters ++ [')']) := by
  simp [characters, predicate]

theorem characters_signed_ne_bracket (sign : Sign) (operand : Operand) (rest behind : List Char) :
    (Operand.signed sign operand).characters ++ rest ≠ '(' :: behind := by
  cases sign
  · simp [characters_plus]
  · simp [characters_minus]

/-- The word that a term starts with, if it starts with one. -/
def word? : Operand → Option (List Char)
  | .path field => some field.root.toList
  | .arrayLength _ => some "ARRAY_LENGTH".toList
  | .literal .null => some "null".toList
  | .literal (.boolean true) => some "true".toList
  | .literal (.boolean false) => some "false".toList
  | _ => none

theorem characters_of_word {operand : Operand} {word : List Char} (formed : operand.WellFormed)
    (starts : operand.word? = some word) : IsWord word ∧ ∃ others,
      operand.characters = word ++ others ∧
        ∀ rest, Delimited rest → Text.Ends Lexeme.isWordPart (others ++ rest) := by
  unfold word? at starts
  split at starts
  next field =>
    obtain rfl := Option.some.inj starts
    exact ⟨formed.root.word, _, characters_path field, fun rest => ends_word_of_segments field.segments⟩
  next field =>
    obtain rfl := Option.some.inj starts
    exact ⟨isWord_of_checked rfl rfl, _, characters_arrayLength field,
      fun rest _ => Text.ends_cons (by decide) _⟩
  case h_6 => contradiction
  -- The words that are literals stand alone.
  all_goals
    obtain rfl := Option.some.inj starts
    exact ⟨isWord_of_checked rfl rfl, [], rfl, fun rest ends => ends.ends rfl⟩

theorem not_isWordStart_of_isIntegral {character : Char}
    (integral : Numeral.isIntegral character = true) : Lexeme.isWordStart character = false := by
  simp only [Numeral.isIntegral, Bool.or_eq_true, beq_iff_eq] at integral
  rcases integral with digit | rfl
  · have code := Text.isDigit_code digit
    refine Bool.eq_false_iff.mpr fun start => ?_
    have above := Lexeme.isWordStart_code start
    omega
  · decide

theorem characters_of_no_word {operand : Operand} (term : operand.isTerm = true)
    (formed : operand.WellFormed) (starts : operand.word? = none) :
    ∃ character others, operand.characters = character :: others ∧
      Lexeme.isWordStart character = false := by
  cases operand with
  | path field => contradiction
  | arrayLength field => contradiction
  | literal value =>
    obtain ⟨character, others, text, mark⟩ := Value.characters_head value formed
    refine ⟨character, others, text, ?_⟩
    by_cases numeral : value.mark = .number
    · obtain ⟨⟨first, tail, split, integral⟩, -⟩ := Value.number_run numeral formed
      rw [(List.cons.inj (text.symm.trans split)).1]
      exact not_isWordStart_of_isIntegral integral
    · cases value with
      | null => contradiction
      | boolean truth => cases truth <;> contradiction
      | integer number => exact absurd rfl numeral
      | float number => exact absurd rfl numeral
      | text content =>
        rw [Value.characters_text, Text.quoted_toList] at text
        exact (List.cons.inj text).1 ▸ by decide
      | array items =>
        have opens := Value.Form.characters_array Value.literalForm items
        exact (List.cons.inj (text.symm.trans opens)).1 ▸ by decide
      | object entries =>
        have opens := Value.Form.characters_object Value.literalForm entries
        exact (List.cons.inj (text.symm.trans opens)).1 ▸ by decide
  | signed sign operand =>
    cases sign
    · exact ⟨_, _, characters_plus operand, by decide⟩
    · exact ⟨_, _, characters_minus operand, by decide⟩
  | binary left operation right => contradiction
  | nested operand => exact ⟨_, _, characters_nested operand, by decide⟩

theorem word?_eq_none {operand : Operand} (formed : operand.WellFormed) {character : Char}
    (other : Lexeme.isWordStart character = false) {rest behind : List Char}
    (same : operand.characters ++ rest = character :: behind) : operand.word? = none := by
  cases starts : operand.word? with
  | none => rfl
  | some word =>
    obtain ⟨isWord, others, text, _⟩ := characters_of_word formed starts
    obtain ⟨first, tail, split, start⟩ := isWord.start
    rw [text, split] at same
    rw [(List.cons.inj same).1, other] at start
    contradiction

/-- Only a bracketed operand starts with a bracket. -/
theorem nested_of_bracket {operand : Operand} (term : operand.isTerm = true)
    (formed : operand.WellFormed) {rest behind : List Char}
    (same : operand.characters ++ rest = '(' :: behind) :
    ∃ inner : Operand, operand = .nested inner ∧ inner.WellFormed ∧
      behind = inner.characters ++ ')' :: rest := by
  have noWord := word?_eq_none formed (by decide) same
  cases operand with
  | path field => contradiction
  | arrayLength field => contradiction
  | literal value =>
    exact absurd same (Value.no_item_closes value formed (by decide) (by decide) rest behind)
  | signed sign operand => exact absurd same (characters_signed_ne_bracket sign operand rest behind)
  | binary left operation right => contradiction
  | nested inner =>
    simp only [characters_nested, List.cons_append, List.append_assoc, List.nil_append,
      List.cons.injEq, true_and] at same
    exact ⟨inner, rfl, formed, same.symm⟩

/-- A term in front of which a word is read starts with that word. -/
theorem word?_of_word {operand : Operand} (term : operand.isTerm = true)
    (formed : operand.WellFormed) {word others rest : List Char} (isWord : IsWord word)
    (ends : Text.Ends Lexeme.isWordPart others) (delimited : Delimited rest)
    (same : operand.characters ++ rest = word ++ others) : operand.word? = some word := by
  cases starts : operand.word? with
  | some first =>
    obtain ⟨isFirst, behind, text, stops⟩ := characters_of_word formed starts
    rw [text, List.append_assoc] at same
    rw [(Text.run_unique isFirst.parts isWord.parts (stops rest delimited) ends same).1]
  | none =>
    obtain ⟨character, behind, text, other⟩ := characters_of_no_word term formed starts
    obtain ⟨first, tail, split, start⟩ := isWord.start
    rw [text, split] at same
    rw [(List.cons.inj same).1, start] at other
    contradiction

theorem word?_unique {operand operand' : Operand} (term : operand.isTerm = true)
    (term' : operand'.isTerm = true) (formed : operand.WellFormed) (formed' : operand'.WellFormed)
    {rest rest' : List Char} (delimited : Delimited rest) (delimited' : Delimited rest')
    (same : operand.characters ++ rest = operand'.characters ++ rest') :
    operand.word? = operand'.word? := by
  cases starts : operand.word? with
  | some word =>
    obtain ⟨isWord, behind, text, stops⟩ := characters_of_word formed starts
    rw [text, List.append_assoc] at same
    exact (word?_of_word term' formed' isWord (stops rest delimited) delimited' same.symm).symm
  | none =>
    cases starts' : operand'.word? with
    | none => rfl
    | some word =>
      obtain ⟨isWord, behind, text, stops⟩ := characters_of_word formed' starts'
      rw [text, List.append_assoc] at same
      rw [← starts, word?_of_word term formed isWord (stops rest' delimited') delimited same]

theorem word?_ne_path {operand : Operand} (other : ∀ field, operand ≠ .path field) {field : Path}
    (named : field.IsNamed) : operand.word? ≠ some field.root.toList := by
  intro starts
  have taken (word : String) (reserved : (Keyword.ofWord? (Text.upper word)).isSome = true ∨
      Text.upper word ∈ ["TRUE", "FALSE", "NULL"]) : word.toList ≠ field.root.toList :=
    fun same => named.root.ne reserved (String.toList_inj.mp same).symm
  unfold word? at starts
  split at starts
  next field' => exact other field' rfl
  next => exact taken "ARRAY_LENGTH" (.inl (by decide)) (Option.some.inj starts)
  next => exact taken "null" (.inr (by decide)) (Option.some.inj starts)
  next => exact taken "true" (.inr (by decide)) (Option.some.inj starts)
  next => exact taken "false" (.inr (by decide)) (Option.some.inj starts)
  next => contradiction

/-- In front of a delimiter, the characters of a term are those of no term with another
normal form. -/
def Settled (operand : Operand) : Prop :=
  ∀ ⦃operand' : Operand⦄, operand'.isTerm = true → operand'.WellFormed →
    ∀ ⦃rest rest' : List Char⦄, Delimited rest → Delimited rest' →
      operand.characters ++ rest = operand'.characters ++ rest' →
      operand.normal = operand'.normal ∧ rest = rest'

theorem path_settled {field : Path} (named : field.IsNamed) : (path field).Settled := by
  intro operand' term' formed' rest rest' delimited delimited' same
  have own : (path field).WellFormed := named
  have starts := word?_unique rfl term' own formed' delimited delimited' same
  cases operand' with
  | path field' =>
    rw [characters_path, characters_path] at same
    obtain ⟨rfl, rfl⟩ := field.characters_unique named formed' delimited delimited' same
    exact ⟨rfl, rfl⟩
  | binary left operation right => contradiction
  | arrayLength _ | literal _ | signed _ _ | nested _ =>
    exact absurd starts.symm (word?_ne_path (by exact nofun) named)

theorem literal_word?_ne_arrayLength (value : Value) :
    (literal value).word? ≠ some "ARRAY_LENGTH".toList := by
  cases value with
  | boolean truth => cases truth <;> exact of_decide_eq_false rfl
  | null => exact of_decide_eq_false rfl
  | integer _ | float _ | text _ | array _ | object _ => exact nofun

theorem arrayLength_settled {field : Path} (named : field.IsNamed) : (arrayLength field).Settled := by
  intro operand' term' formed' rest rest' delimited delimited' same
  have own : (arrayLength field).WellFormed := named
  have starts := word?_unique rfl term' own formed' delimited delimited' same
  cases operand' with
  | path field' => exact absurd starts (word?_ne_path (by exact nofun) formed')
  | arrayLength field' =>
    simp only [characters_arrayLength, List.append_assoc, List.cons_append, List.nil_append] at same
    have inner := (List.cons.inj (List.append_cancel_left same)).2
    obtain ⟨rfl, behind⟩ := field.characters_unique named formed' (delimited_cons (by decide) _)
      (delimited_cons (by decide) _) inner
    exact ⟨rfl, (List.cons.inj behind).2⟩
  | literal value => exact absurd starts.symm (literal_word?_ne_arrayLength value)
  | signed sign operand => contradiction
  | binary left operation right => contradiction
  | nested operand => contradiction

theorem isTerm_of_isPrimary {operand : Operand} (primary : operand.isPrimary = true) :
    operand.isTerm = true := by
  cases operand <;> first | rfl | contradiction

theorem characters_ne_nil {operand : Operand} (term : operand.isTerm = true)
    (formed : operand.WellFormed) : operand.characters ≠ [] := by
  cases starts : operand.word? with
  | some word =>
    obtain ⟨isWord, others, text, _⟩ := characters_of_word formed starts
    obtain ⟨first, tail, split, _⟩ := isWord.start
    simp [text, split]
  | none =>
    obtain ⟨character, others, text, _⟩ := characters_of_no_word term formed starts
    simp [text]

theorem literal_of_digit {operand : Operand} (primary : operand.isPrimary = true)
    (formed : operand.WellFormed) {digit : Char} (isDigit : digit.isDigit = true)
    {others : List Char} (text : operand.characters = digit :: others) :
    ∃ value value', operand = .literal value ∧ value.opposite? = some value' := by
  have other := not_isWordStart_of_isIntegral (Numeral.isIntegral_of_isDigit isDigit)
  have noWord : operand.word? = none :=
    word?_eq_none formed other
      (show operand.characters ++ [] = digit :: others by rw [List.append_nil, text])
  cases operand with
  | path field => contradiction
  | arrayLength field => contradiction
  | literal value =>
    obtain ⟨character, tail, same, mark⟩ := Value.characters_head value formed
    have numeral : value.mark = .number := by
      rw [← mark, ← (List.cons.inj (text.symm.trans same)).1]
      exact Value.mark_of_isIntegral (Numeral.isIntegral_of_isDigit isDigit)
    obtain ⟨value', opposite⟩ := Value.opposite?_of_digit numeral formed isDigit text
    exact ⟨value, value', rfl, opposite⟩
  | signed sign operand => contradiction
  | binary left operation right => contradiction
  | nested operand =>
    rw [characters_nested] at text
    rw [← (List.cons.inj text).1] at isDigit
    contradiction

/-- A literal that reads like a minus and a number is the opposite of that number. -/
theorem literal_of_opposite {value unsigned opposite : Value} (finite : value.isFinite = true)
    (numeral : value.mark = .number) (found : unsigned.opposite? = some opposite)
    {rest rest' : List Char} (delimited : Delimited rest) (delimited' : Delimited rest')
    (same : value.characters ++ rest = '-' :: (unsigned.characters ++ rest')) :
    value = opposite ∧ rest = rest' := by
  rcases Value.characters_opposite found with rfl | signed
  · have zero : ∀ character ∈ ['-', '0'], Numeral.isNumeric character = true :=
      List.all_eq_true.mp rfl
    have whole : value.characters ++ rest = ['-', '0'] ++ rest' := same
    exact absurd (Text.run_unique (Value.number_run numeral finite).2 zero
      (delimited.ends rfl) (delimited'.ends rfl) whole).1 (Value.characters_ne_minus_zero finite)
  · rw [← List.cons_append, ← signed] at same
    exact Value.characters_unique value finite (Value.isFinite_opposite found) delimited delimited' same

theorem literal_of_signed {value : Value} (finite : value.isFinite = true) {sign : Sign}
    {operand : Operand} (primary : operand.isPrimary = true) (formed : operand.WellFormed)
    {rest rest' : List Char} (delimited : Delimited rest) (delimited' : Delimited rest')
    (same : value.characters ++ rest = (signed sign operand).characters ++ rest') :
    literal value = (signed sign operand).normal ∧ rest = rest' := by
  cases sign with
  | plus =>
    rw [characters_plus] at same
    exact absurd same (Value.no_item_closes value finite (by decide) (by decide) _ _)
  | minus =>
    rw [characters_minus] at same
    obtain ⟨character, tail, text, mark⟩ := Value.characters_head value finite
    have leads := same
    rw [text, List.cons_append, List.cons_append, List.cons.injEq] at leads
    obtain ⟨rfl, leads⟩ := leads
    obtain ⟨digit, others, rfl, isDigit⟩ := Value.digit_of_minus mark.symm finite text
    cases number : operand.characters with
    | nil => exact absurd number (characters_ne_nil (isTerm_of_isPrimary primary) formed)
    | cons first behind =>
      rw [number] at leads
      obtain rfl := (List.cons.inj leads).1
      obtain ⟨unsigned, opposite, rfl, found⟩ := literal_of_digit primary formed isDigit number
      obtain ⟨rfl, rfl⟩ := literal_of_opposite finite mark.symm found delimited delimited' same
      simp [Operand.normal, withSign, found]

theorem literal_settled {value : Value} (finite : value.isFinite = true) :
    (literal value).Settled := by
  intro operand' term' formed' rest rest' delimited delimited' same
  have own : (literal value).WellFormed := finite
  have starts := word?_unique rfl term' own formed' delimited delimited' same
  cases operand' with
  | path field' => exact absurd starts (word?_ne_path (by exact nofun) formed')
  | arrayLength field' => exact absurd starts (literal_word?_ne_arrayLength value)
  | literal value' =>
    obtain ⟨rfl, rfl⟩ := Value.characters_unique value finite formed' delimited delimited' same
    exact ⟨rfl, rfl⟩
  | signed sign operand => exact literal_of_signed finite formed'.1 formed'.2 delimited delimited' same
  | binary left operation right => contradiction
  | nested operand =>
    rw [characters_nested] at same
    exact absurd same (Value.no_item_closes value finite (by decide) (by decide) rest _)

theorem signed_settled {sign : Sign} {operand : Operand} (primary : operand.isPrimary = true)
    (formed : operand.WellFormed) (settled : operand.Settled) : (signed sign operand).Settled := by
  intro operand' term' formed' rest rest' delimited delimited' same
  have own : (signed sign operand).WellFormed := ⟨primary, formed⟩
  have starts := word?_unique rfl term' own formed' delimited delimited' same
  cases operand' with
  | path field' => contradiction
  | arrayLength field' => contradiction
  | literal value =>
    obtain ⟨equal, behind⟩ :=
      literal_of_signed formed' primary formed delimited' delimited same.symm
    exact ⟨equal.symm, behind.symm⟩
  | signed sign' operand' =>
    have inner (signs : sign = sign')
        (same : operand.characters ++ rest = operand'.characters ++ rest') :
        (signed sign operand).normal = (signed sign' operand').normal ∧ rest = rest' := by
      obtain ⟨equal, behind⟩ :=
        settled (isTerm_of_isPrimary formed'.1) formed'.2 delimited delimited' same
      exact ⟨by rw [normal, normal, signs, equal], behind⟩
    cases sign <;> cases sign' <;>
      simp only [characters_plus, characters_minus, List.cons_append, List.cons.injEq] at same
    · exact inner rfl same.2
    · exact absurd same.1 (by decide)
    · exact absurd same.1 (by decide)
    · exact inner rfl same.2
  | binary left operation right => contradiction
  | nested operand' =>
    rw [characters_nested] at same
    exact absurd same (characters_signed_ne_bracket sign operand rest _)

/-! Operations. -/

/-- The term that an operand starts with. -/
def first : Operand → Operand
  | .binary left _ _ => left.first
  | operand => operand

/-- The operations behind the first term, with the terms on their right. -/
def operations : Operand → List (Arithmetic × Operand)
  | .binary left operation right => left.operations ++ [(operation, right)]
  | _ => []

def operationCharacters (step : Arithmetic × Operand) : List Char :=
  ' ' :: (step.1.symbol.toList ++ ' ' :: step.2.characters)

theorem first_of_isTerm {operand : Operand} (term : operand.isTerm = true) :
    operand.first = operand ∧ operand.operations = [] := by
  cases operand <;> first | exact ⟨rfl, rfl⟩ | contradiction

theorem characters_eq (operand : Operand) : operand.characters =
    operand.first.characters ++ operand.operations.flatMap operationCharacters := by
  induction operand with
  | binary left operation right ihLeft _ =>
    rw [characters_binary, first, operations, List.flatMap_append, ← List.append_assoc, ← ihLeft]
    simp [operationCharacters]
  | path _ | arrayLength _ | literal _ | signed _ _ _ | nested _ _ =>
    simp [first, operations]

theorem normal_eq (operand : Operand) : operand.normal =
    (operand.operations.map fun step => (step.1, step.2.normal)).foldl
      (fun left step => .binary left step.1 step.2) operand.first.normal := by
  induction operand with
  | binary left operation right ihLeft _ =>
    rw [normal, first, operations, List.map_append, List.foldl_append, ← ihLeft]
    rfl
  | path _ | arrayLength _ | literal _ | signed _ _ _ | nested _ _ => rfl

theorem wellFormed_terms {operand : Operand} (formed : operand.WellFormed) :
    (operand.first.isTerm = true ∧ operand.first.WellFormed) ∧
      ∀ step ∈ operand.operations, step.2.isTerm = true ∧ step.2.WellFormed := by
  induction operand with
  | binary left operation right ihLeft _ =>
    obtain ⟨first, others⟩ := ihLeft formed.1
    refine ⟨first, fun step inside => ?_⟩
    rw [operations, List.mem_append, List.mem_singleton] at inside
    rcases inside with inside | rfl
    · exact others step inside
    · exact formed.2
  | path _ | arrayLength _ | literal _ | signed _ _ _ | nested _ _ =>
    exact ⟨⟨rfl, formed⟩, by simp [operations]⟩

theorem operations_delimited (steps : List (Arithmetic × Operand)) {rest : List Char}
    (delimited : Delimited rest) : Delimited (steps.flatMap operationCharacters ++ rest) := by
  cases steps with
  | nil => exact delimited
  | cons step others => exact delimited_cons (by decide) _

theorem symbol_unique {operation operation' : Arithmetic} {rest rest' : List Char}
    (same : operation.symbol.toList ++ ' ' :: rest = operation'.symbol.toList ++ ' ' :: rest') :
    operation = operation' ∧ rest = rest' := by
  cases operation <;> cases operation' <;> simp_all [Arithmetic.symbol]

theorem operations_unique {steps steps' : List (Arithmetic × Operand)}
    (settled : ∀ step ∈ steps, step.2.Settled)
    (formed' : ∀ step ∈ steps', step.2.isTerm = true ∧ step.2.WellFormed) {rest rest' : List Char}
    (ends : EndsArithmetic rest) (ends' : EndsArithmetic rest')
    (same : steps.flatMap operationCharacters ++ rest = steps'.flatMap operationCharacters ++ rest') :
    (steps.map fun step => (step.1, step.2.normal)) =
      (steps'.map fun step => (step.1, step.2.normal)) ∧ rest = rest' := by
  induction steps generalizing steps' with
  | nil =>
    cases steps' with
    | nil => exact ⟨rfl, same⟩
    | cons step' others' =>
      simp only [List.flatMap_nil, List.nil_append, List.flatMap_cons, operationCharacters,
        List.cons_append, List.append_assoc] at same
      exact absurd same (ends.2 _ _)
  | cons step others ih =>
    cases steps' with
    | nil =>
      simp only [List.flatMap_nil, List.nil_append, List.flatMap_cons, operationCharacters,
        List.cons_append, List.append_assoc] at same
      exact absurd same.symm (ends'.2 _ _)
    | cons step' others' =>
      obtain ⟨term', wellFormed'⟩ := formed' step' (by simp)
      simp only [List.flatMap_cons, operationCharacters, List.cons_append, List.append_assoc,
        List.cons.injEq, true_and] at same
      obtain ⟨operation, behind⟩ := symbol_unique same
      obtain ⟨term, behind⟩ := settled step (by simp) term' wellFormed'
        (operations_delimited others ends.1) (operations_delimited others' ends'.1) behind
      obtain ⟨equal, last⟩ := ih (fun other inside => settled other (by simp [inside]))
        (fun other inside => formed' other (by simp [inside])) behind
      refine ⟨?_, last⟩
      rw [List.map_cons, List.map_cons, operation, term, equal]

/-- In front of what ends it, the characters of an operand are those of no operand with
another normal form. -/
def Told (operand : Operand) : Prop :=
  ∀ ⦃operand' : Operand⦄, operand'.WellFormed → ∀ ⦃rest rest' : List Char⦄, EndsArithmetic rest →
    EndsArithmetic rest' → operand.characters ++ rest = operand'.characters ++ rest' →
      operand.normal = operand'.normal ∧ rest = rest'

theorem told_of_settled {operand : Operand} (leads : operand.first.Settled)
    (settled : ∀ step ∈ operand.operations, step.2.Settled) : operand.Told := by
  intro operand' formed' rest rest' ends ends' same
  obtain ⟨⟨term', wellFormed'⟩, others'⟩ := wellFormed_terms formed'
  rw [characters_eq, characters_eq operand', List.append_assoc, List.append_assoc] at same
  obtain ⟨start, behind⟩ := leads term' wellFormed' (operations_delimited _ ends.1)
    (operations_delimited _ ends'.1) same
  obtain ⟨equal, last⟩ := operations_unique settled others' ends ends' behind
  exact ⟨by rw [normal_eq, normal_eq operand', start, equal], last⟩

theorem nested_settled {operand : Operand} (told : operand.Told) : (nested operand).Settled := by
  intro operand' term' formed' rest rest' delimited delimited' same
  simp only [characters_nested, List.cons_append, List.append_assoc, List.nil_append] at same
  obtain ⟨inner', rfl, innerFormed', behind⟩ := nested_of_bracket term' formed' same.symm
  obtain ⟨equal, last⟩ := told innerFormed' (endsArithmetic_of_bracket rest)
    (endsArithmetic_of_bracket rest') behind
  exact ⟨by rw [normal, normal, equal], (List.cons.inj last).2⟩

theorem settled_terms {operand : Operand} (formed : operand.WellFormed) :
    operand.first.Settled ∧ ∀ step ∈ operand.operations, step.2.Settled := by
  induction operand with
  | path field => exact ⟨path_settled formed, by simp [operations]⟩
  | arrayLength field => exact ⟨arrayLength_settled formed, by simp [operations]⟩
  | literal value => exact ⟨literal_settled formed, by simp [operations]⟩
  | signed sign operand ih =>
    have inner := (ih formed.2).1
    rw [(first_of_isTerm (isTerm_of_isPrimary formed.1)).1] at inner
    exact ⟨signed_settled formed.1 formed.2 inner, by simp [operations]⟩
  | binary left operation right ihLeft ihRight =>
    obtain ⟨leads, others⟩ := ihLeft formed.1
    have last := (ihRight formed.2.2).1
    rw [(first_of_isTerm formed.2.1).1] at last
    refine ⟨leads, fun step inside => ?_⟩
    rw [operations, List.mem_append, List.mem_singleton] at inside
    rcases inside with inside | rfl
    · exact others step inside
    · exact last
  | nested operand ih =>
    obtain ⟨leads, others⟩ := ih formed
    exact ⟨nested_settled (told_of_settled leads others), by simp [operations]⟩

/-- The predicate of an operand determines its normal form. -/
theorem told {operand : Operand} (formed : operand.WellFormed) : operand.Told :=
  told_of_settled (settled_terms formed).1 (settled_terms formed).2

/-- The words of predicates that no operand starts with. -/
def otherWords : List String :=
  ["NOT", "not", "JSON_CONTAINS", "JSON_CONTAINS_ALL", "JSON_CONTAINS_ANY", "ARRAY_CONTAINS",
   "ARRAY_CONTAINS_ALL", "ARRAY_CONTAINS_ANY"]

theorem characters_ne_word {operand : Operand} (formed : operand.WellFormed) {word : String}
    (other : word ∈ otherWords) {rest others : List Char} (delimited : Delimited rest)
    (ends : Text.Ends Lexeme.isWordPart others) :
    operand.characters ++ rest ≠ word.toList ++ others := by
  intro same
  have reserved : ∀ word ∈ otherWords, (Keyword.ofWord? (Text.upper word)).isSome = true := by decide
  have isWord : ∀ word ∈ otherWords, word.toList.head?.any Lexeme.isWordStart = true ∧
      word.toList.all Lexeme.isWordPart = true := by decide
  have distinct : ∀ word ∈ otherWords,
      word ≠ "ARRAY_LENGTH" ∧ word ≠ "null" ∧ word ≠ "true" ∧ word ≠ "false" := by decide
  obtain ⟨⟨term, wellFormed⟩, _⟩ := wellFormed_terms formed
  rw [characters_eq, List.append_assoc] at same
  have starts := word?_of_word term wellFormed
    (isWord_of_checked (isWord word other).1 (isWord word other).2) ends
    (operations_delimited _ delimited) same
  obtain ⟨notLength, notNull, notTrue, notFalse⟩ := distinct word other
  generalize operand.first = leading at starts wellFormed
  unfold word? at starts
  split at starts
  next field =>
    exact wellFormed.root.ne (.inl (reserved word other)) (String.toList_inj.mp (Option.some.inj starts))
  next => exact notLength (String.toList_inj.mp (Option.some.inj starts)).symm
  next => exact notNull (String.toList_inj.mp (Option.some.inj starts)).symm
  next => exact notTrue (String.toList_inj.mp (Option.some.inj starts)).symm
  next => exact notFalse (String.toList_inj.mp (Option.some.inj starts)).symm
  next => contradiction

end Operand

end VectorQuery
