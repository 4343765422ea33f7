import VectorQuery.Proofs.Predicate.Injective
import VectorQuery.Proofs.Value.Printed

/-! Arithmetic read back from predicates. An operand that was read from a statement prints
a phrase for itself, up to the minus signs that numbers take in, so that compiling it again
loses neither the order nor the nesting nor the kinds of its numbers. -/
namespace VectorQuery

open Lexeme Grammar

/-! Paths. -/

def PathSegment.isPlain : PathSegment → Bool
  | .key content => Text.isPlain content
  | .index _ | .field _ => true

/-- Every key in the path is plain. -/
def Path.isPlain (path : Path) : Bool :=
  path.segments.all PathSegment.isPlain

theorem prints_name {name : String} (isName : IsName name) :
    Prints name.toList (Text.Ends isWordPart) (TokenPhrase .identifier) name :=
  prints_lexeme fun _ => leads_ofName isName

theorem prints_operator (operator : Operator) : Prints operator.spelling.toList
    (Text.Ends operator.joins) (TokenPhrase (.operator operator)) operator.spelling :=
  prints_lexeme fun _ => leads_ofOperator operator

/-- A segment in square brackets prints as its lexeme does. -/
theorem prints_subscript {lexeme : Lexeme} {segment : PathSegment}
    (leads : ∀ ⦃rest⦄, Delimited rest → lexeme.Leads rest)
    (means : ∀ opening token closing : Token, opening.kind = .operator .openBracket →
      token.kind = lexeme.kind → token.text = lexeme.text →
      closing.kind = .operator .closeBracket → SegmentPhrase [opening, token, closing] segment) :
    Prints ('[' :: (lexeme.spelling ++ [']'])) (Text.Ends isWordPart) SegmentPhrase segment := by
  have brackets : Prints ('[' :: (lexeme.spelling ++ [']'])) (fun _ => True) SegmentPhrase
      segment := by
    refine (prints_lexeme leads).bracketed .openBracket .closeBracket (fun _ => ⟨rfl, rfl⟩)
      (fun rest => delimited_cons (by decide) rest) ?_
    rintro opening _ closing opens ⟨token, rfl, kind, text⟩ closes
    exact means opening token closing opens kind text closes
  exact brackets.weaken fun _ _ => trivial

theorem PathSegment.prints {segment : PathSegment} (named : segment.IsNamed)
    (plain : segment.isPlain = true) :
    Prints segment.characters (Text.Ends isWordPart) SegmentPhrase segment := by
  cases segment with
  | key content =>
    rw [characters, Value.characters_text, Text.quoted_of_plain plain]
    refine prints_subscript (fun rest _ => Text.leads_of_plain plain rest) ?_
    intro opening token closing opens kind text closes
    have phrase := SegmentPhrase.key opens kind closes
    rwa [text] at phrase
  | index number =>
    rw [characters, Value.characters_integer]
    refine prints_subscript (fun rest delimited => leads_ofInteger number (delimited.ends rfl)) ?_
    intro opening token closing opens kind text closes
    exact .index opens kind (by simp [text, ofInteger, readInteger?_writeInteger]) closes
  | field name =>
    have point : Prints ['.'] (fun _ => True) (TokenPhrase (.operator .dot)) "." :=
      (prints_operator .dot).weaken fun _ _ _ _ => rfl
    refine point.append (prints_name named) (fun _ _ => trivial) ?_
    rintro _ _ ⟨dot, rfl, point, -⟩ ⟨token, rfl, identifier, rfl⟩
    exact .field point identifier

theorem prints_segments {segments : List PathSegment}
    (named : ∀ segment ∈ segments, segment.IsNamed)
    (plain : ∀ segment ∈ segments, segment.isPlain = true) :
    Prints (segments.flatMap PathSegment.characters) Delimited SegmentsPhrase segments := by
  induction segments with
  | nil =>
    refine ⟨[], fun _ _ _ layout => layout, fun tokens spells => ?_⟩
    rw [spells.nil_cases]
    exact .none
  | cons segment others ih =>
    have behind := ih (fun other inside => named other (by simp [inside]))
      fun other inside => plain other (by simp [inside])
    rw [List.flatMap_cons]
    exact (PathSegment.prints (named segment (by simp)) (plain segment (by simp))).append behind
      (fun _ => ends_word_of_segments others) fun _ _ => .more

theorem Path.prints {path : Path} (named : path.IsNamed) (plain : path.isPlain = true) :
    Prints path.characters Delimited PathPhrase path := by
  refine (prints_name named.root).append
    (prints_segments named.segments (List.all_eq_true.mp plain))
    (fun _ => ends_word_of_segments path.segments) ?_
  rintro _ tokens ⟨root, rfl, identifier, text⟩ segments
  have phrase := PathPhrase.path identifier segments
  rwa [text] at phrase

/-! Operations and signs. -/

def Arithmetic.operator : Arithmetic → Operator
  | .add => .plus
  | .subtract => .minus
  | .multiply => .star
  | .divide => .slash
  | .modulo => .percent
  | .power => .doubleStar

namespace Operand

/-- Every text and every key in the operand is plain. -/
def isPlain : Operand → Bool
  | .path field | .arrayLength field => field.isPlain
  | .literal value => value.isPlain
  | .signed _ operand => operand.isPlain
  | .binary left _ right => left.isPlain && right.isPlain
  | .nested operand => operand.isPlain

/-- An operation and the term on its right. -/
def OperationPhrase (levels : Nat) (tokens : List Token) (step : Arithmetic × Operand) : Prop :=
  ∃ token others, tokens = token :: others ∧ token.kind.arithmetic? = some step.1 ∧
    TermPhrase levels others step.2

theorem prints_symbol (operation : Arithmetic) :
    Prints (' ' :: (operation.symbol.toList ++ [' '])) (fun _ => True)
      (TokenPhrase (.operator operation.operator)) operation.symbol := by
  have spelling : operation.operator.spelling = operation.symbol := by cases operation <;> rfl
  have alone : operation.operator.joins ' ' = false := by cases operation <;> rfl
  have gap : Lays [] [' '] fun _ => True := lays_blank rfl
  obtain ⟨lexemes, lays, means⟩ := prints_operator operation.operator
  rw [spelling] at lays means
  have behind := lays.append gap fun rest _ => Text.ends_cons alone rest
  have spaced := gap.append behind fun _ _ => trivial
  exact ⟨lexemes, by simpa using spaced, means⟩

theorem prints_operation {levels : Nat} {right right' : Operand} (operation : Arithmetic)
    (prints : Prints right.characters Delimited (TermPhrase levels) right') :
    Prints (operationCharacters (operation, right)) Delimited (OperationPhrase levels)
      (operation, right') := by
  have meaning : (TokenKind.operator operation.operator).arithmetic? = some operation := by
    cases operation <;> rfl
  have text : operationCharacters (operation, right) =
      ' ' :: (operation.symbol.toList ++ [' ']) ++ right.characters := by simp [operationCharacters]
  rw [text]
  refine (prints_symbol operation).append prints (fun _ _ => trivial) ?_
  rintro _ others ⟨token, rfl, kind, -⟩ term
  exact ⟨token, others, rfl, kind ▸ meaning, term⟩

theorem prints_binary {levels : Nat} {left right left' right' : Operand} (operation : Arithmetic)
    (front : Prints left.characters Delimited (OperandPhrase levels) left')
    (behind : Prints right.characters Delimited (TermPhrase levels) right') :
    Prints (binary left operation right).characters Delimited (OperandPhrase levels)
      (.binary left' operation right') := by
  rw [characters_binary]
  refine front.append (prints_operation operation behind)
    (fun rest _ => delimited_cons (by decide) _) ?_
  rintro tokens _ phrase ⟨token, others, rfl, meaning, term⟩
  exact .operation phrase meaning term

/-- A sign in front of a primary, where it stands apart from the characters behind it. -/
theorem prints_signed {levels : Nat} {sign : Sign} (operator : Operator)
    (spelled : operator.spelling = sign.symbol)
    (meaning : (TokenKind.operator operator).sign? = some sign) {operand operand' : Operand}
    (inner : Prints operand.characters Delimited (PrimaryPhrase levels) operand')
    (apart : ∀ rest, Delimited rest → Text.Ends operator.joins (operand.characters ++ rest)) :
    Prints (signed sign operand).characters Delimited (TermPhrase levels)
      (.signed sign operand') := by
  have text : (signed sign operand).characters =
      operator.spelling.toList ++ operand.characters := by
    simp [characters, predicate, spelled]
  rw [text]
  refine (prints_operator operator).append inner apart ?_
  rintro _ tokens ⟨token, rfl, kind, -⟩ phrase
  exact .signed (kind ▸ meaning) phrase

theorem prints_arrayLength {levels : Nat} {field : Path}
    (prints : Prints field.characters Delimited PathPhrase field) :
    Prints (arrayLength field).characters Delimited (PrimaryPhrase levels)
      (.arrayLength field) := by
  have word : Prints "ARRAY_LENGTH".toList (Text.Ends isWordPart)
      (TokenPhrase (.keyword .arrayLength)) "ARRAY_LENGTH" :=
    prints_lexeme fun _ => leads_ofKeyword .arrayLength
  have argument : Prints ('(' :: (field.characters ++ [')'])) (fun _ => True)
      (fun tokens target => ∀ function : Token, function.kind = .keyword .arrayLength →
        PrimaryPhrase levels (function :: tokens) (.arrayLength target)) field :=
    prints.bracketed .openParen .closeParen (fun _ => ⟨rfl, rfl⟩)
      (fun rest => delimited_cons (by decide) rest)
      fun _ _ _ opens inner closes _ named => .arrayLength named opens inner closes
  rw [characters_arrayLength]
  refine word.append (argument.weaken fun _ _ => trivial)
    (fun _ _ => Text.ends_cons (by decide) _) ?_
  rintro _ tokens ⟨function, rfl, kind, -⟩ means
  exact means function kind

theorem prints_literal {levels : Nat} {characters : List Char} {value : Value}
    (prints : Prints characters Delimited LiteralPhrase value) :
    Prints characters Delimited (PrimaryPhrase levels) (.literal value) :=
  prints.map fun _ ⟨_, same, meaning⟩ => same ▸ .literal meaning

theorem prints_read_literal {levels : Nat} {token : Token} {value : Value}
    (meaning : token.literal? = some value) (finite : value.isFinite = true)
    (plain : value.isPlain = true) :
    Prints (literal value).characters Delimited (PrimaryPhrase levels) (.literal value) :=
  prints_literal (Value.prints_scalar Value.Form.literalForm_legible
    (Token.isScalar_of_literal? meaning) finite plain)

/-- The sign in front of an integer zero is part of it all the same. -/
theorem prints_minus_zero : Prints ['-', '0'] Delimited LiteralPhrase (.integer 0) := by
  let zero : Lexeme := ⟨.literal .integer, "-0", ['-', '0']⟩
  have whole : IsWhole ['0'] := ⟨by simp, by simp, fun _ => rfl⟩
  have spelled : zero.spelling = Numeral.signed true ['0'] ++ ([] ++ []) := rfl
  have leads (rest : List Char) (delimited : Delimited rest) : zero.Leads rest :=
    leads_numeral whole (.inl rfl) (.inl rfl) spelled (delimited.ends rfl) rfl
  exact ⟨[zero], lays_lexeme leads, means_integer rfl (by decide)⟩

theorem isScalar_of_opposite {value value' : Value} (opposite : value.opposite? = some value') :
    value'.isScalar = true ∧ value'.isPlain = true := by
  unfold Value.opposite? at opposite
  split at opposite
  next number =>
    split_ifs at opposite
    exact Option.some.inj opposite ▸ ⟨rfl, rfl⟩
  next => exact Option.some.inj opposite ▸ ⟨rfl, rfl⟩
  next => contradiction

/-- A minus sign becomes part of the number behind it. -/
theorem prints_opposite {value value' : Value} (opposite : value.opposite? = some value') :
    Prints ('-' :: value.characters) Delimited LiteralPhrase value' := by
  obtain ⟨scalar, plain⟩ := isScalar_of_opposite opposite
  rcases Value.characters_opposite opposite with rfl | spelled
  · obtain rfl : Value.integer 0 = value' := Option.some.inj opposite
    exact prints_minus_zero
  · rw [← spelled]
    exact Value.prints_scalar Value.Form.literalForm_legible scalar
      (Value.isFinite_opposite opposite) plain

/-- A minus sign before a primary either becomes part of a number or stays. -/
theorem normal_minus {operand : Operand} (primary : operand.isPrimary = true) :
    (∃ value value', operand = .literal value ∧ value.opposite? = some value' ∧
      (signed .minus operand).normal = .literal value') ∨
    (∀ value, operand = .literal value → value.opposite? = none) ∧
      (signed .minus operand).normal = .signed .minus operand.normal := by
  cases operand with
  | literal value =>
    cases opposite : value.opposite? with
    | some value' => exact .inl ⟨value, value', rfl, opposite, by simp [normal, withSign, opposite]⟩
    | none =>
      refine .inr ⟨fun _ same => ?_, by simp [normal, withSign, opposite]⟩
      obtain rfl := Operand.literal.inj same
      exact opposite
  | path _ | arrayLength _ | nested _ => exact .inr ⟨by simp, rfl⟩
  | signed _ _ | binary _ _ _ => contradiction

/-- A sign in front of a primary prints a phrase for the normal form of both. -/
theorem prints_sign {levels : Nat} {sign : Sign} {operand : Operand}
    (primary : operand.isPrimary = true) (formed : operand.WellFormed)
    (prints : Prints operand.characters Delimited (PrimaryPhrase levels) operand.normal) :
    Prints (signed sign operand).characters Delimited (TermPhrase levels)
      (signed sign operand).normal := by
  cases sign with
  | plus => exact prints_signed .plus rfl rfl prints fun _ _ _ _ => rfl
  | minus =>
    rcases normal_minus primary with ⟨value, value', rfl, opposite, normal⟩ | ⟨unsigned, normal⟩
    · rw [normal, characters_minus]
      exact (prints_literal (prints_opposite opposite)).map fun _ => .unsigned
    · -- Only a number without a sign starts with a digit, and it would have taken the minus in.
      rw [normal]
      refine prints_signed .minus rfl rfl prints fun rest _ => ?_
      obtain ⟨character, others, text⟩ :=
        List.exists_cons_of_ne_nil (characters_ne_nil (isTerm_of_isPrimary primary) formed)
      rw [text]
      refine Text.ends_cons (Bool.eq_false_iff.mpr fun digit => ?_) _
      obtain ⟨value, value', same, opposite⟩ := literal_of_digit primary formed digit text
      rw [unsigned value same] at opposite
      contradiction

end Operand

mutual
/-- What was read as an operand prints a phrase for its normal form. -/
theorem OperandPhrase.prints {levels : Nat} {tokens : List Token} {operand : Operand} :
    OperandPhrase levels tokens operand → Named tokens → operand.isFinite = true →
      operand.isPlain = true →
        Prints operand.characters Delimited (OperandPhrase levels) operand.normal
  | .term phrase, named, finite, plain => (phrase.prints named finite plain).map fun _ => .term
  | .operation left _ right, named, finite, plain => by
    obtain ⟨finite, finite'⟩ := Bool.and_eq_true_iff.mp finite
    obtain ⟨plain, plain'⟩ := Bool.and_eq_true_iff.mp plain
    exact Operand.prints_binary _ (left.prints named.left finite plain)
      (right.prints named.right.tail finite' plain')
  | .glued left _ meaning, named, finite, plain => by
    obtain ⟨finite, finite'⟩ := Bool.and_eq_true_iff.mp finite
    obtain ⟨plain, plain'⟩ := Bool.and_eq_true_iff.mp plain
    -- A glued minus has become the operation, so the number on its right has no sign.
    exact Operand.prints_binary _ (left.prints named.left finite plain)
      ((Operand.prints_read_literal meaning finite' plain').map fun _ => .unsigned)

theorem TermPhrase.prints {levels : Nat} {tokens : List Token} {operand : Operand} :
    TermPhrase levels tokens operand → Named tokens → operand.isFinite = true →
      operand.isPlain = true →
        Prints operand.characters Delimited (TermPhrase levels) operand.normal
  | .unsigned phrase, named, finite, plain =>
    (phrase.prints named finite plain).map fun _ => .unsigned
  | .signed _ phrase, named, finite, plain => by
    obtain ⟨primary, formed⟩ := phrase.wellFormed named.tail finite
    exact Operand.prints_sign primary formed (phrase.prints named.tail finite plain)

theorem PrimaryPhrase.prints {levels : Nat} {tokens : List Token} {operand : Operand} :
    PrimaryPhrase levels tokens operand → Named tokens → operand.isFinite = true →
      operand.isPlain = true →
        Prints operand.characters Delimited (PrimaryPhrase levels) operand.normal
  | .literal meaning, _, finite, plain => Operand.prints_read_literal meaning finite plain
  | .list phrase, _, finite, plain =>
    (Value.Form.literalForm_legible.prints_list finite plain phrase.fits).map fun _ => .list
  | .path phrase, named, _, plain => by
    rw [Operand.characters_path]
    exact (Path.prints (phrase.named named) plain).map fun _ => .path
  | .arrayLength _ _ phrase _, named, _, plain =>
    Operand.prints_arrayLength (Path.prints (phrase.named named.tail.tail.left) plain)
  | .nested _ phrase _, named, finite, plain => by
    have inner := phrase.prints named.tail.left finite plain
    have nested := inner.bracketed .openParen .closeParen (fun _ => ⟨rfl, rfl⟩)
      (fun rest => delimited_cons (by decide) rest) fun _ _ _ => PrimaryPhrase.nested
    rw [Operand.characters_nested]
    exact nested.weaken fun _ _ => trivial
end

/-- Arithmetic is reproduced as it was written: the predicate of an operand that was read
from a statement is read as the operand, with the minus signs that numbers take in. -/
theorem Operand.predicate_reads {levels : Nat} {text : String} {statement tokens rest : List Token}
    {operand : Operand} (read : Token.sequence text = .ok statement) (inside : tokens <:+ statement)
    (parsed : Grammar.operand levels tokens = .ok (operand, rest))
    (finite : operand.isFinite = true) (plain : operand.isPlain = true) :
    ∃ tokens', Token.sequence operand.predicate = .ok tokens' ∧
      Grammar.operand levels tokens' = .ok (operand.normal, []) := by
  obtain ⟨taken, rfl, phrase⟩ := operand_sound levels parsed
  have named : Named (taken ++ rest) :=
    fun token member => Token.sequence_names read token (inside.subset member)
  obtain ⟨tokens', sequenced, phrase'⟩ :=
    (phrase.prints named.left finite plain).sequence delimited_nil
  have reads := phrase'.reads endsOperand_nil
  rw [List.append_nil] at reads
  rw [characters, String.ofList_toList] at sequenced
  exact ⟨tokens', sequenced, reads⟩

/-- `- 2 ** m['k'][-1] -3` compiles to `-2 ** m["k"][-1] - 3`, whose first number takes the
sign in, while the last one has lost it to the operation. -/
theorem Operand.predicate_reads_signs :
    let power : Operand := .binary (.signed .minus (.literal (.integer 2))) .power
      (.path ⟨"m", [.key "k", .index (-1)]⟩)
    let operand : Operand := .binary power .subtract (.literal (.integer 3))
    ∃ statement, Token.sequence "- 2 ** m['k'][-1] -3" = .ok statement ∧
      Grammar.operand 8 statement = .ok (operand, []) ∧ operand.isFinite = true ∧
      operand.isPlain = true ∧ operand.predicate = "-2 ** m[\"k\"][-1] - 3" ∧
      ∃ tokens, Token.sequence operand.predicate = .ok tokens ∧
        Grammar.operand 8 tokens = .ok (operand.normal, []) := by
  intro power operand
  let statement : List Token :=
    [⟨.operator .minus, "-", 1, 1⟩, ⟨.literal .integer, "2", 1, 3⟩,
      ⟨.operator .doubleStar, "**", 1, 5⟩, ⟨.identifier, "m", 1, 8⟩,
      ⟨.operator .openBracket, "[", 1, 9⟩, ⟨.literal .text, "k", 1, 10⟩,
      ⟨.operator .closeBracket, "]", 1, 13⟩, ⟨.operator .openBracket, "[", 1, 14⟩,
      ⟨.literal .integer, "-1", 1, 15⟩, ⟨.operator .closeBracket, "]", 1, 17⟩,
      ⟨.literal .integer, "-3", 1, 19⟩]
  have read : Token.sequence "- 2 ** m['k'][-1] -3" = .ok statement := by decide +kernel
  have parsed : Grammar.operand 8 statement = .ok (operand, []) := by decide +kernel
  have plain : operand.isPlain = true := by decide +kernel
  exact ⟨statement, read, parsed, rfl, plain, by decide +kernel,
    predicate_reads read (List.suffix_refl statement) parsed rfl plain⟩

end VectorQuery
