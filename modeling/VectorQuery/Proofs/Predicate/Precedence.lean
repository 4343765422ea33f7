import VectorQuery.Proofs.Predicate.Injective
import VectorQuery.Proofs.Predicate.Outline

/-! No predicate depends on precedence. Only connectives put words between bracketed
predicates, and what a denial stands in front of is bracketed or denied itself, so every level
of a predicate is unambiguous. -/
namespace VectorQuery

namespace Outline
open Lexeme

/-! Texts put together from quiet ones. -/

theorem isPlain_of_not_mem {character : Char}
    (other : character ∉ ['"', '(', '[', '{', ')', ']', '}']) : isPlain character = true := by
  simp only [List.mem_cons, List.not_mem_nil, or_false, not_or] at other
  unfold isPlain Mark.ofCharacter?
  split <;> simp_all

/-- Texts of a kind that has no quote, no bracket and no letter that ends a connective. -/
theorem quiet_of_kind {kind : Char → Bool}
    (others : ['"', '(', '[', '{', ')', ']', '}', 'D', 'R'].any kind = false) {text : List Char}
    (all : ∀ character ∈ text, kind character = true) : Quiet text := by
  refine quiet_of_plain fun character inside => ?_
  have differs : ∀ other ∈ ['"', '(', '[', '{', ')', ']', '}', 'D', 'R'], character ≠ other := by
    rintro other known rfl
    exact List.any_eq_false.mp others character known (all character inside)
  refine ⟨isPlain_of_not_mem fun known => ?_, differs 'D' (by decide), differs 'R' (by decide)⟩
  exact differs character (List.mem_append_left ['D', 'R'] known) rfl

theorem quiet_blank {text : List Char} (quiet : Quiet text) : Quiet (' ' :: text) :=
  quiet_cons (by decide) (by decide) quiet

theorem Quiet.said {first rest : List Char} {word : String} (quiet : Quiet first)
    (between : Quiet word.toList) (quiet' : Quiet rest) :
    Quiet (first ++ Condition.said word rest) := by
  have behind := between.append (quiet_blank quiet') (Text.ends_cons (by decide) _)
  exact quiet.append (quiet_blank behind) (Text.ends_cons (by decide) _)

theorem Quiet.bracketed {text : List Char} (quiet : Quiet text) (bracket : Bracket) :
    Quiet (bracket.opening :: (text ++ [bracket.closing])) :=
  quiet.orderly.bracketed bracket

theorem quiet_items {texts : List (List Char)} (quiet : ∀ text ∈ texts, Quiet text) :
    Quiet ([',', ' '].intercalate texts) := by
  induction texts with
  | nil => exact quiet_nil
  | cons text others ih =>
    obtain ⟨first, quiet⟩ := List.forall_mem_cons.mp quiet
    cases others with
    | nil => simpa using first
    | cons other others =>
      have behind : Quiet (',' :: ' ' :: [',', ' '].intercalate (other :: others)) :=
        quiet_cons (by decide) (by decide) (quiet_blank (ih quiet))
      have whole := first.append behind (Text.ends_cons (by decide) _)
      simpa using whole

/-- A connective between two brackets. -/
theorem Orderly.joined {left right : List Char} {word : String} (orderly : Orderly left)
    (orderly' : Orderly right) (connective : word = "AND" ∨ word = "OR") :
    Orderly ('(' :: (left ++ [')']) ++ Condition.said word ('(' :: (right ++ [')']))) := by
  obtain ⟨parts, shows, within⟩ := orderly
  obtain ⟨parts', shows', within'⟩ := orderly'
  have letters : (∀ character ∈ word.toList, isWordPart character = true) ∧ word.toList ≠ [] := by
    rcases connective with rfl | rfl <;> exact ⟨List.all_eq_true.mp rfl, by decide⟩
  have blank {text : List Char} {parts : List Part} (shows : Shows text parts) :
      Shows (' ' :: text) parts := shows_cons (by decide) (by decide) (by decide) shows
  have behind := blank ((shows_word letters.1 letters.2).append
    (blank (shows_bracketed .round shows')) (Text.ends_cons (by decide) _))
  refine ⟨_, (shows_bracketed .round shows).append behind (Text.ends_cons (by decide) _), ?_⟩
  refine List.forall_mem_cons.mpr ⟨?_, ?_⟩
  · rcases connective with rfl | rfl <;> exact ⟨Nat.le_refl 1, fun _ => rfl⟩
  · simp only [List.singleton_append, innerLevels, Part.levels, List.append_nil, List.nil_append]
    exact List.forall_mem_append.mpr ⟨within, within'⟩

end Outline

open Outline

/-! Literals. -/

namespace Value

theorem quiet_float (number : Binary64) : Quiet (characters (.float number)) := by
  rw [characters_float]
  cases number with
  | finite negative magnitude =>
    rw [← characters_float]
    exact quiet_of_kind (by decide) (number_run rfl rfl).2
  | infinite negative => cases negative <;> exact quiet_of_checked rfl
  | nan => exact quiet_of_checked rfl

mutual
theorem quiet : (value : Value) → Quiet value.characters
  | .null => quiet_of_checked rfl
  | .boolean true => quiet_of_checked rfl
  | .boolean false => quiet_of_checked rfl
  | .integer number => by
    rw [characters_integer]
    exact quiet_of_kind (by decide) (Numeral.isIntegral_writeInteger number)
  | .float number => quiet_float number
  | .text content => by
    rw [characters_text]
    exact quiet_quoted content
  | .array items => by
    rw [show characters (.array items) = _ from Form.characters_array literalForm items]
    exact (quiet_items (quiet_each items)).bracketed .square
  | .object entries => by
    rw [show characters (.object entries) = _ from Form.characters_object literalForm entries]
    exact (quiet_items (quiet_entries entries)).bracketed .curly

theorem quiet_each : (items : List Value) → ∀ text ∈ items.map literalForm.characters, Quiet text
  | [] => nofun
  | item :: rest => List.forall_mem_cons.mpr ⟨item.quiet, quiet_each rest⟩

theorem quiet_entries : (entries : List (String × Value)) →
    ∀ text ∈ entries.map literalForm.entryCharacters, Quiet text
  | [] => nofun
  | (key, value) :: rest => by
    refine List.forall_mem_cons.mpr ⟨?_, quiet_entries rest⟩
    have behind : Quiet (':' :: ' ' :: value.characters) :=
      quiet_cons (by decide) (by decide) (quiet_blank value.quiet)
    exact (quiet_quoted key).append behind (Text.ends_cons (by decide) _)
end

end Value

/-! Paths and operands. -/

theorem IsName.quiet {name : String} (isName : IsName name) : Quiet name.toList := by
  obtain ⟨first, others, text, -⟩ := isName.word.start
  have notAnd : name.toList ≠ "AND".toList := fun same =>
    isName.ne (.inl (by decide)) (String.toList_inj.mp same)
  have notOr : name.toList ≠ "OR".toList := fun same =>
    isName.ne (.inl (by decide)) (String.toList_inj.mp same)
  refine quiet_word isName.word.parts (by simp [text]) ?_
  rw [Outline.isConnective, beq_eq_false_iff_ne.mpr notAnd, beq_eq_false_iff_ne.mpr notOr]
  rfl

theorem PathSegment.IsNamed.quiet {segment : PathSegment} (named : segment.IsNamed) :
    Quiet segment.characters := by
  cases segment with
  | key content => exact (Value.quiet (.text content)).bracketed .square
  | index number => exact (Value.quiet (.integer number)).bracketed .square
  | field name =>
    have isName : IsName name := named
    exact quiet_cons (by decide) (by decide) isName.quiet

theorem ends_segments (segments : List PathSegment) :
    Text.Ends Lexeme.isWordPart (segments.flatMap PathSegment.characters) := by
  simpa using ends_word_of_segments segments delimited_nil

theorem quiet_segments {segments : List PathSegment}
    (named : ∀ segment ∈ segments, segment.IsNamed) :
    Quiet (segments.flatMap PathSegment.characters) := by
  induction segments with
  | nil => exact quiet_nil
  | cons segment others ih =>
    obtain ⟨first, named⟩ := List.forall_mem_cons.mp named
    exact first.quiet.append (ih named) (ends_segments others)

theorem Path.IsNamed.quiet {path : Path} (named : path.IsNamed) : Quiet path.characters :=
  named.root.quiet.append (quiet_segments named.segments) (ends_segments path.segments)

theorem Path.IsNamed.quiet_applied {path : Path} (named : path.IsNamed) {word : String}
    (function : Quiet word.toList) {rest : List Char} (quiet : Quiet rest)
    (ends : Text.Ends Lexeme.isWordPart rest) :
    Quiet (word.toList ++ '(' :: (path.characters ++ rest ++ [')'])) :=
  function.append ((named.quiet.append quiet ends).bracketed .round) (Text.ends_cons (by decide) _)

theorem Arithmetic.quiet (operation : Arithmetic) : Quiet operation.symbol.toList := by
  cases operation <;> exact quiet_of_checked rfl

mutual
theorem OperandPhrase.quiet {levels : Nat} {tokens : List Token} {operand : Operand} :
    OperandPhrase levels tokens operand → Named tokens → Quiet operand.characters
  | .term phrase, named => phrase.quiet named
  | .operation left _ right, named => by
    rw [Operand.characters_binary]
    exact (left.quiet named.left).said (Arithmetic.quiet _) (right.quiet named.right.tail)
  | .glued left _ _, named => by
    rw [Operand.characters_binary]
    exact (left.quiet named.left).said (Arithmetic.quiet _) (Value.quiet _)

theorem TermPhrase.quiet {levels : Nat} {tokens : List Token} {operand : Operand} :
    TermPhrase levels tokens operand → Named tokens → Quiet operand.characters
  | .unsigned phrase, named => phrase.quiet named
  | @TermPhrase.signed _ _ _ _ sign _ phrase, named => by
    have behind := phrase.quiet named.tail
    cases sign with
    | plus =>
      rw [Operand.characters_plus]
      exact quiet_cons (by decide) (by decide) behind
    | minus =>
      rw [Operand.characters_minus]
      exact quiet_cons (by decide) (by decide) behind

theorem PrimaryPhrase.quiet {levels : Nat} {tokens : List Token} {operand : Operand} :
    PrimaryPhrase levels tokens operand → Named tokens → Quiet operand.characters
  | .literal _, _ => Value.quiet _
  | .list _, _ => Value.quiet (.array _)
  | .path phrase, named => by
    rw [Operand.characters_path]
    exact (phrase.named named).quiet
  | .arrayLength _ _ phrase _, named => by
    have function : Quiet "ARRAY_LENGTH".toList := quiet_word (List.all_eq_true.mp rfl) (by decide) rfl
    have isNamed := phrase.named named.tail.tail.left
    have applied := isNamed.quiet_applied function quiet_nil (Text.ends_nil _)
    simpa [Operand.characters_arrayLength] using applied
  | .nested _ phrase _, named => by
    rw [Operand.characters_nested]
    exact (phrase.quiet named.tail.left).bracketed .round
end

/-! Conditions. -/

namespace Condition

theorem quiet_denied (negated : Bool) {word predicate : String} (between : Quiet word.toList)
    (quiet : Quiet predicate.toList) : Quiet (denied negated word predicate).toList := by
  cases negated with
  | false => exact quiet
  | true =>
    have denial := between.append (quiet_blank quiet) (Text.ends_cons (by decide) _)
    simpa [denied] using denial.bracketed .round

/-- The words of predicates that are no connectives. -/
theorem quiet_said (word : String) (known : word ∈ ["IS", "LIKE", "IN", "NOT", "not"]) :
    Quiet word.toList := by
  simp only [List.mem_cons, List.not_mem_nil, or_false] at known
  rcases known with rfl | rfl | rfl | rfl | rfl <;> exact quiet_of_checked rfl

/-- An operand and what is said of it, between brackets. -/
theorem quiet_clause {target rest : List Char} {word : String} (quiet : Quiet target)
    (between : Quiet word.toList) (quiet' : Quiet rest) :
    Quiet ('(' :: (target ++ said word (rest ++ [')']))) := by
  rw [← said_append, ← List.append_assoc]
  exact (quiet.said between quiet').bracketed .round

theorem quiet_comparator (comparator : Comparator) : Quiet comparator.symbol.toList := by
  cases comparator <;> exact quiet_of_checked rfl

theorem quiet_function (function : Containment) : Quiet function.word.toList := by
  cases function <;> exact quiet_word (List.all_eq_true.mp rfl) (by decide) rfl

end Condition

theorem PredicatePhrase.quiet {levels : Nat} {target : Operand} {tokens : List Token}
    {condition : Condition} (phrase : PredicatePhrase levels target tokens condition)
    (named : Named tokens) (quiet : Quiet target.characters) : Quiet condition.characters := by
  cases phrase with
  | @compare _ _ comparator right _ phrase =>
    have clause := Condition.quiet_clause quiet (Condition.quiet_comparator comparator)
      (phrase.quiet named.tail)
    simpa [Condition.characters, Condition.predicate, Condition.said, Operand.characters] using clause
  | @isNull _ _ _ negated =>
    have null : Quiet (if negated then "NOT NULL" else "NULL").toList := by
      cases negated <;> exact quiet_of_checked rfl
    have clause := Condition.quiet_clause quiet (Condition.quiet_said "IS" (by decide)) null
    cases negated <;>
      simpa [Condition.characters, Condition.predicate, Condition.said, Operand.characters] using clause
  | @like _ pattern _ negated =>
    have clause := Condition.quiet_clause quiet (Condition.quiet_said "LIKE" (by decide))
      (quiet_quoted pattern.text)
    refine Condition.quiet_denied negated (Condition.quiet_said "NOT" (by decide)) ?_
    simpa [Condition.said, Operand.characters] using clause
  | @between _ _ _ _ _ low high negated _ _ least _ most =>
    have bound : Quiet "<=".toList := Condition.quiet_comparator .lessEqual
    have clause := Condition.quiet_clause ((least.quiet named.left.right.tail).said bound quiet)
      bound (most.quiet named.right.tail)
    refine Condition.quiet_denied negated (Condition.quiet_said "not" (by decide)) ?_
    simpa [Condition.said, Operand.characters] using clause
  | @within _ _ _ items negated =>
    have clause := Condition.quiet_clause quiet (Condition.quiet_said "IN" (by decide))
      (Value.quiet (.array items))
    refine Condition.quiet_denied negated (Condition.quiet_said "NOT" (by decide)) ?_
    simpa [Condition.said, Operand.characters, Value.characters] using clause

theorem ContainmentPhrase.quiet {levels : Nat} {tokens : List Token} {condition : Condition}
    (phrase : ContainmentPhrase levels tokens condition) (named : Named tokens) :
    Quiet condition.characters := by
  cases phrase with
  | @alone _ _ _ _ function _ _ _ path _ =>
    have isNamed := path.named named.tail.tail.left
    have applied := isNamed.quiet_applied (Condition.quiet_function function) quiet_nil
      (Text.ends_nil _)
    simpa [Condition.characters, Condition.predicate, Path.predicate_toList]
      using applied.bracketed .round
  | @value _ _ _ _ _ _ function target value _ _ path _ _ _ =>
    have isNamed := path.named named.left.left.tail.tail
    have behind : Quiet (',' :: ' ' :: value.characters) :=
      quiet_cons (by decide) (by decide) (quiet_blank value.quiet)
    have applied := isNamed.quiet_applied (Condition.quiet_function function) behind
      (Text.ends_cons (by decide) _)
    simpa [Condition.characters, Condition.predicate, Path.predicate_toList, Value.characters]
      using applied.bracketed .round

-- A denial stands in front of a unary phrase, which has no connective outside brackets.
mutual
/-- Every level of the predicate of a condition with connectives is unambiguous. -/
theorem ConditionsPhrase.orderly {levels : Nat} {tokens : List Token} {condition : Condition} :
    ConditionsPhrase levels tokens condition → Named tokens → Orderly condition.characters
  | .unary phrase, named => (phrase.quiet named).orderly
  | .conjunction left _ right, named => by
    have joined := (left.orderly named.left).joined (right.quiet named.right.tail).orderly (.inl rfl)
    simpa [Condition.characters, Condition.predicate, Condition.said] using joined
  | .disjunction left _ right, named => by
    have joined := (left.orderly named.left).joined (right.quiet named.right.tail).orderly (.inr rfl)
    simpa [Condition.characters, Condition.predicate, Condition.said] using joined

theorem UnaryPhrase.quiet {levels : Nat} {tokens : List Token} {condition : Condition} :
    UnaryPhrase levels tokens condition → Named tokens → Quiet condition.characters
  | .negation _ phrase, named => by
    have word := Condition.quiet_said "NOT" (by decide)
    have denial := word.append (quiet_blank (phrase.quiet named.tail)) (Text.ends_cons (by decide) _)
    simpa [Condition.characters, Condition.predicate] using denial
  | .nested _ phrase _, named => by
    have bracketed := (phrase.orderly named.tail.left).bracketed .round
    simpa [Condition.characters, Condition.predicate] using bracketed
  | .containment phrase, named => phrase.quiet named
  | .predicate operand phrase, named => phrase.quiet named.right (operand.quiet named.left)
end

/-- The predicate of a filter is read in one way, level by level, whatever binds tighter. -/
theorem Condition.predicate_unambiguous {condition : Condition} (read : condition.IsRead) :
    ∃ parts, outline condition.predicate = some parts ∧
      ∀ level ∈ levels parts, Unambiguous level ∧ ∃! tree, Reading level tree := by
  obtain ⟨text, statement, tokens, rest, bound, lexed, ⟨before, rfl⟩, parsed⟩ := read
  obtain ⟨taken, rfl, phrase⟩ := Grammar.conditions_sound bound parsed
  have named : Named (before ++ (taken ++ rest)) := Token.sequence_names lexed
  obtain ⟨parts, shows, within⟩ := phrase.orderly named.right.left
  exact ⟨parts, shows.outline, fun level inside =>
    ⟨within level inside, (within level inside).reading⟩⟩

/-- `not (t["AND ("] = 'OR' and n = 1) or c is not null` -/
theorem Condition.predicate_unambiguous_of_denial :
    let equal : Condition :=
      .compare (.path ⟨"t", [.key "AND ("]⟩) .equal (.literal (.text "OR"))
    let one : Condition := .compare (.path ⟨"n", []⟩) .equal (.literal (.integer 1))
    let condition : Condition := .disjunction (.negation (.nested (.conjunction equal one)))
      (.isNull (.path ⟨"c", []⟩) true)
    condition.IsRead ∧ condition.predicate =
      "(NOT (((t[\"AND (\"] == \"OR\")) AND ((n == 1)))) OR ((c IS NOT NULL))" ∧
      ∃ parts, outline condition.predicate = some parts ∧
        ∀ level ∈ levels parts, Unambiguous level ∧ ∃! tree, Reading level tree := by
  intro equal one condition
  let tokens : List Token :=
    [⟨.keyword .not, "NOT", 1, 1⟩, ⟨.operator .openParen, "(", 1, 5⟩, ⟨.identifier, "t", 1, 6⟩,
      ⟨.operator .openBracket, "[", 1, 7⟩, ⟨.literal .text, "AND (", 1, 8⟩,
      ⟨.operator .closeBracket, "]", 1, 15⟩, ⟨.operator .equal, "=", 1, 17⟩,
      ⟨.literal .text, "OR", 1, 19⟩, ⟨.keyword .and, "AND", 1, 24⟩, ⟨.identifier, "n", 1, 28⟩,
      ⟨.operator .equal, "=", 1, 30⟩, ⟨.literal .integer, "1", 1, 32⟩,
      ⟨.operator .closeParen, ")", 1, 33⟩, ⟨.keyword .or, "OR", 1, 35⟩, ⟨.identifier, "c", 1, 38⟩,
      ⟨.keyword .is, "IS", 1, 40⟩, ⟨.keyword .not, "NOT", 1, 43⟩,
      ⟨.literal .null, "null", 1, 47⟩]
  have read : condition.IsRead :=
    ⟨"not (t[\"AND (\"] = 'OR' and n = 1) or c is not null", tokens, tokens, [], 8, rfl,
      List.suffix_refl _, rfl⟩
  exact ⟨read, by decide +kernel, predicate_unambiguous read⟩

end VectorQuery
