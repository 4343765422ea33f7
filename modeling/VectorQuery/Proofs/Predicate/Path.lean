import VectorQuery.Condition
import VectorQuery.Proofs.Predicate.Value
import VectorQuery.Proofs.Token.Word

/-! Paths in predicates. A name ends where a subscript, a field or a delimiter follows
it, so a path is told apart by its characters. -/
namespace VectorQuery

def PathSegment.IsNamed : PathSegment → Prop
  | .field name => IsName name
  | .key _ | .index _ => True

/-- Every name in the path is one that a statement can hold. -/
structure Path.IsNamed (path : Path) : Prop where
  root : IsName path.root
  segments : ∀ segment ∈ path.segments, segment.IsNamed

namespace PathSegment

def characters : PathSegment → List Char
  | .key content => '[' :: ((Value.text content).characters ++ [']'])
  | .index number => '[' :: ((Value.integer number).characters ++ [']'])
  | .field name => '.' :: name.toList

theorem predicate_toList (segment : PathSegment) : segment.predicate.toList = segment.characters := by
  cases segment <;>
    simp [predicate, characters, Value.characters_text, Value.characters_integer]

end PathSegment

namespace Path

def characters (path : Path) : List Char :=
  path.root.toList ++ path.segments.flatMap PathSegment.characters

theorem predicate_toList (path : Path) : path.predicate.toList = path.characters := by
  simp [predicate, characters, List.flatMap_map, PathSegment.predicate_toList]

end Path

theorem PathSegment.characters_head (segment : PathSegment) : ∃ character others,
    segment.characters = character :: others ∧ (character = '[' ∨ character = '.') := by
  cases segment with
  | key content => exact ⟨_, _, rfl, .inl rfl⟩
  | index number => exact ⟨_, _, rfl, .inl rfl⟩
  | field name => exact ⟨_, _, rfl, .inr rfl⟩

/-- Segments end a word in front of them, as delimiters do. -/
theorem ends_word_of_segments (segments : List PathSegment) {rest : List Char}
    (delimited : Delimited rest) :
    Text.Ends Lexeme.isWordPart (segments.flatMap PathSegment.characters ++ rest) := by
  cases segments with
  | nil => exact delimited.ends rfl
  | cons segment others =>
    obtain ⟨character, tail, text, bracket | point⟩ := segment.characters_head
    · simp only [List.flatMap_cons, text, bracket]
      exact Text.ends_cons (by decide) _
    · simp only [List.flatMap_cons, text, point]
      exact Text.ends_cons (by decide) _

theorem subscript_unique {value value' : Value} (finite : value.isFinite = true)
    (finite' : value'.isFinite = true) {rest rest' : List Char}
    (same : '[' :: (value.characters ++ [']']) ++ rest = '[' :: (value'.characters ++ [']']) ++ rest') :
    value = value' ∧ rest = rest' := by
  simp only [List.cons_append, List.append_assoc, List.nil_append, List.cons.injEq, true_and] at same
  obtain ⟨equal, behind⟩ := Value.characters_unique value finite finite'
    (delimited_cons (by decide) rest) (delimited_cons (by decide) rest') same
  exact ⟨equal, (List.cons.inj behind).2⟩

theorem PathSegment.characters_unique {segment segment' : PathSegment} (named : segment.IsNamed)
    (named' : segment'.IsNamed) {rest rest' : List Char} (ends : Text.Ends Lexeme.isWordPart rest)
    (ends' : Text.Ends Lexeme.isWordPart rest')
    (same : segment.characters ++ rest = segment'.characters ++ rest') :
    segment = segment' ∧ rest = rest' := by
  cases segment <;> cases segment'
  case key.key content content' =>
    obtain ⟨equal, behind⟩ := subscript_unique rfl rfl same
    exact ⟨congrArg _ (Value.text.inj equal), behind⟩
  case index.index number number' =>
    obtain ⟨equal, behind⟩ := subscript_unique rfl rfl same
    exact ⟨congrArg _ (Value.integer.inj equal), behind⟩
  case field.field name name' =>
    simp only [characters, List.cons_append, List.cons.injEq, true_and] at same
    obtain ⟨equal, behind⟩ := Text.run_unique named.word.parts named'.word.parts ends ends' same
    exact ⟨congrArg _ (String.toList_inj.mp equal), behind⟩
  case key.index content number => exact absurd (subscript_unique rfl rfl same).1 (by simp)
  case index.key number content => exact absurd (subscript_unique rfl rfl same).1 (by simp)
  case key.field | index.field | field.key | field.index => simp [characters] at same

theorem segments_unique {segments segments' : List PathSegment}
    (named : ∀ segment ∈ segments, segment.IsNamed) (named' : ∀ segment ∈ segments', segment.IsNamed)
    {rest rest' : List Char} (delimited : Delimited rest) (delimited' : Delimited rest')
    (same : segments.flatMap PathSegment.characters ++ rest =
      segments'.flatMap PathSegment.characters ++ rest') :
    segments = segments' ∧ rest = rest' := by
  have apart (segment : PathSegment) (others : List Char) {rest : List Char}
      (delimited : Delimited rest) : rest ≠ segment.characters ++ others := by
    obtain ⟨character, tail, text, opens⟩ := segment.characters_head
    rintro rfl
    rw [text] at delimited
    have delimiter := delimited character rfl
    rcases opens with rfl | rfl <;> simp at delimiter
  induction segments generalizing segments' with
  | nil =>
    cases segments' with
    | nil => exact ⟨rfl, same⟩
    | cons segment' others' =>
      rw [List.flatMap_cons, List.append_assoc] at same
      exact absurd same (apart segment' _ delimited)
  | cons segment others ih =>
    cases segments' with
    | nil =>
      rw [List.flatMap_cons, List.append_assoc] at same
      exact absurd same.symm (apart segment _ delimited')
    | cons segment' others' =>
      rw [List.flatMap_cons, List.flatMap_cons, List.append_assoc, List.append_assoc] at same
      obtain ⟨rfl, behind⟩ := PathSegment.characters_unique (named segment (by simp))
        (named' segment' (by simp)) (ends_word_of_segments others delimited)
        (ends_word_of_segments others' delimited') same
      obtain ⟨rfl, rfl⟩ := ih (fun other inside => named other (by simp [inside]))
        (fun other inside => named' other (by simp [inside])) behind
      exact ⟨rfl, rfl⟩

theorem Path.characters_unique {path : Path} (named : path.IsNamed) :
    Unique Path.characters Path.IsNamed path := by
  intro path' named' rest rest' delimited delimited' same
  rw [characters, characters, List.append_assoc, List.append_assoc] at same
  obtain ⟨root, behind⟩ := Text.run_unique named.root.word.parts named'.root.word.parts
    (ends_word_of_segments path.segments delimited) (ends_word_of_segments path'.segments delimited') same
  obtain ⟨segments, behind⟩ := segments_unique named.segments named'.segments delimited delimited' behind
  obtain ⟨root, segments⟩ := path
  obtain ⟨root', segments'⟩ := path'
  simp_all [String.toList_inj]

end VectorQuery
