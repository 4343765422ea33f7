import VectorQuery.Proofs.Token.Place
import VectorQuery.Text.Line
import Mathlib.Data.List.Induction
import Mathlib.Data.List.TakeWhile

/-! The line and the column behind a text are the indices, counted from one, of what comes
next among the lines that its line feeds end. A line that is read by its number is one of
these, without the carriage return of its end. -/
namespace VectorQuery.Text

variable {text before rest content : List Char} {character : Char}

theorem withoutReturn_cases (content : List Char) :
    withoutReturn content = content ∨ content = withoutReturn content ++ ['\r'] := by
  unfold withoutReturn
  split_ifs with last
  · exact .inr (List.dropLast_append_getLast? '\r' last).symm
  · exact .inl rfl

/-- Only the carriage return is lost, so every other character keeps its column. -/
theorem withoutReturn_getElem? {column : Nat} (other : character ≠ '\r')
    (found : content[column]? = some character) :
    (withoutReturn content)[column]? = some character := by
  rcases withoutReturn_cases content with same | shorter
  · rwa [same]
  · rw [shorter, List.getElem?_append] at found
    split_ifs at found with inside
    · exact found
    · obtain ⟨within, last⟩ := List.getElem?_eq_some_iff.mp found
      rw [List.getElem_singleton] at last
      exact absurd last.symm other

/-- The line behind the text goes on with what follows, and the lines before it stay. -/
theorem exists_splitOn_behind (before : List Char) : ∃ lines current,
    '\n' ∉ current ∧ Position.behind before = ⟨lines.length + 1, current.length + 1⟩ ∧
      ∀ rest, (before ++ rest).splitOn '\n' = lines ++ (current ++ rest).splitOn '\n' := by
  induction before using List.reverseRecOn with
  | nil => exact ⟨[], [], List.not_mem_nil, rfl, fun rest => rfl⟩
  | append_singleton before character ih =>
    obtain ⟨lines, current, absent, place, split⟩ := ih
    by_cases feed : character = '\n'
    · subst feed
      refine ⟨lines ++ [current], [], List.not_mem_nil, ?_, fun rest => ?_⟩
      · rw [← Position.after_behind, place]
        simp [Position.after]
      · rw [List.append_assoc, split, List.singleton_append,
          List.splitOn_append_cons_self_of_not_mem absent, List.append_assoc]
        rfl
    · refine ⟨lines, current ++ [character], ?_, ?_, fun rest => ?_⟩
      · simpa [absent] using Ne.symm feed
      · rw [← Position.after_behind, place]
        simp [Position.after, feed]
      · rw [List.append_assoc, split, List.append_assoc]

theorem splitOn_append_of_not_mem {run : List Char} (absent : '\n' ∉ run) (rest : List Char) :
    (run ++ rest).splitOn '\n' = (rest.splitOn '\n').modifyHead (run ++ ·) := by
  induction run with
  | nil => exact (congrFun List.modifyHead_id _).symm
  | cons character run ih =>
    have other : ¬(character == '\n') = true := by
      simpa using Ne.symm (List.ne_of_not_mem_cons absent)
    rw [List.cons_append, List.splitOn_cons_eq_if_modifyHead, if_neg other,
      ih (List.not_mem_of_not_mem_cons absent), List.modifyHead_modifyHead]
    rfl

/-- A character that ends no line is found by its line and its column. -/
theorem exists_line_behind (visible : character ≠ '\n') : ∃ content,
    ((before ++ character :: rest).splitOn '\n')[(Position.behind before).line - 1]? =
        some content ∧
      content[(Position.behind before).column - 1]? = some character := by
  obtain ⟨lines, current, absent, place, split⟩ := exists_splitOn_behind before
  have next : '\n' ∉ current ++ [character] := by simpa [absent] using Ne.symm visible
  rw [split, place, List.append_cons, splitOn_append_of_not_mem next]
  cases others : rest.splitOn '\n' with
  | nil => exact absurd others (List.splitOn_ne_nil _ _)
  | cons content others => exact ⟨current ++ [character] ++ content, by simp, by simp⟩

theorem ne_feed_of_not_mem (absent : '\n' ∉ text) :
    ∀ character ∈ text, decide (character ≠ '\n') = true :=
  fun _ inside => decide_eq_true (ne_of_mem_of_not_mem inside absent)

theorem line_one (text : List Char) :
    line text 1 =
      if text.contains '\n' then withoutReturn (text.takeWhile (· ≠ '\n'))
      else text.takeWhile (· ≠ '\n') :=
  rfl

/-- The line of a number, whose carriage return belongs to its end when another line
follows. -/
theorem line_of_splitOn {number : Nat} (found : (text.splitOn '\n')[number]? = some content) :
    line text (number + 1) =
      if number + 1 < (text.splitOn '\n').length then withoutReturn content else content := by
  induction number generalizing text with
  | zero =>
    by_cases feed : '\n' ∈ text
    · rw [line_one, if_pos (List.contains_iff_mem.mpr feed)]
      obtain ⟨run, rest, rfl, absent⟩ := List.eq_append_cons_of_mem feed
      have more := List.length_pos_iff.mpr (List.splitOn_ne_nil '\n' rest)
      rw [List.splitOn_append_cons_self_of_not_mem absent] at found ⊢
      obtain rfl := Option.some.inj found
      rw [if_pos (by simpa using more),
        takeWhile_of_ends (ne_feed_of_not_mem absent) (ends_cons rfl rest)]
    · rw [List.splitOn_eq_singleton feed] at found ⊢
      obtain rfl := Option.some.inj found
      rw [line_one, if_neg (by simpa using feed), if_neg (by simp),
        List.takeWhile_eq_self_iff.mpr (ne_feed_of_not_mem feed)]
  | succ number ih =>
    by_cases feed : '\n' ∈ text
    · obtain ⟨run, rest, rfl, absent⟩ := List.eq_append_cons_of_mem feed
      rw [List.splitOn_append_cons_self_of_not_mem absent] at found ⊢
      rw [line, dropWhile_of_ends (ne_feed_of_not_mem absent) (ends_cons rfl rest), List.tail_cons]
      exact (ih found).trans (by simp)
    · rw [List.splitOn_eq_singleton feed] at found
      contradiction

theorem withoutReturn_front (content : List Char) : withoutReturn content <+: content := by
  rcases withoutReturn_cases content with same | shorter
  · exact ⟨[], (List.append_nil _).trans same⟩
  · exact ⟨['\r'], shorter.symm⟩

/-- The spelling stands in the text at a line and a column. -/
def StandsAt (text : List Char) (line column : Nat) (spelling : List Char) : Prop :=
  ∃ before rest, text = before ++ spelling ++ rest ∧ Position.behind before = ⟨line, column⟩

/-- The line that a number reads is the one that the line feeds end, but for a carriage
return. What stands at a place in the text stands in both at the same column. -/
theorem StandsAt.shows {number column : Nat} {others : List Char}
    (stands : StandsAt text number column (character :: others))
    (visible : isBlank character = false) :
    0 < number ∧ 0 < column ∧ ∃ content, (text.splitOn '\n')[number - 1]? = some content ∧
      content[column - 1]? = some character ∧ withoutReturn content <+: line text number ∧
      line text number <+: content ∧ (line text number)[column - 1]? = some character := by
  obtain ⟨before, rest, rfl, place⟩ := stands
  have feed : character ≠ '\n' := by
    rintro rfl
    contradiction
  have returns : character ≠ '\r' := by
    rintro rfl
    contradiction
  obtain ⟨content, found, column_found⟩ := @exists_line_behind before (others ++ rest) _ feed
  have counted : 0 < number ∧ 0 < column := by
    simp only [Position.behind, Position.mk.injEq] at place
    omega
  rw [place] at found column_found
  rw [List.append_assoc, List.cons_append, ← Nat.sub_add_cancel counted.1, line_of_splitOn found,
    Nat.sub_add_cancel counted.1]
  refine ⟨counted.1, counted.2, content, found, column_found, ?_⟩
  split_ifs
  · exact ⟨List.prefix_refl _, withoutReturn_front content,
      withoutReturn_getElem? returns column_found⟩
  · exact ⟨withoutReturn_front content, List.prefix_refl _, column_found⟩

end VectorQuery.Text
