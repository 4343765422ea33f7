import VectorQuery.Proofs.Statement.Resemblance
import VectorQuery.Proofs.Statement.Terminator
import VectorQuery.Proofs.Token.Appended
import VectorQuery.Session

/-! The semicolon that may be missing at the end of a statement. A session puts one behind every
text that does not end with one, which makes a statement of it exactly if it was one before, or
is one with a semicolon behind it. -/
namespace VectorQuery

namespace Text

/-- A semicolon ends the text, but for white space. -/
def Ended (text : List Char) : Prop :=
  ∃ front blanks, text = front ++ ';' :: blanks ∧ blanks.all isBlank = true

theorem trimEnd_split (text : List Char) :
    ∃ blanks, text = trimEnd text ++ blanks ∧ blanks.all isBlank = true := by
  refine ⟨(text.reverse.takeWhile isBlank).reverse, ?_, ?_⟩
  · rw [trimEnd, ← List.reverse_append, List.takeWhile_append_dropWhile, List.reverse_reverse]
  · rw [List.all_reverse]
    exact List.all_takeWhile

theorem trimEnd_of_visible {last : Char} (visible : isBlank last = false) (front : List Char)
    {blanks : List Char} (white : blanks.all isBlank = true) :
    trimEnd (front ++ last :: blanks) = front ++ [last] := by
  have all : ∀ blank ∈ blanks.reverse, isBlank blank = true := by
    simpa using List.all_eq_true.mp white
  have behind : (front ++ last :: blanks).reverse = blanks.reverse ++ last :: front.reverse := by
    simp
  rw [trimEnd, behind, List.dropWhile_append_of_pos all, List.dropWhile_cons_of_neg (by simp [visible])]
  simp

end Text

open Text

/-- A completed text ends with a semicolon. What is in front of it is the text, without the
white space at its end and without its own semicolon there. -/
theorem terminated_cases (text : String) :
    ∃ front blanks, terminated text = String.ofList (front ++ [';']) ∧
      blanks.all isBlank = true ∧
      (text.toList = front ++ ';' :: blanks ∨
        text.toList = front ++ blanks ∧ ¬Ended text.toList) := by
  obtain ⟨blanks, split, white⟩ := trimEnd_split text.toList
  by_cases ends : (trimEnd text.toList).getLast? = some ';'
  · obtain ⟨front, trimmed⟩ := List.getLast?_eq_some_iff.mp ends
    refine ⟨front, blanks, ?_, white, .inl ?_⟩
    · rw [terminated, if_pos ends, trimmed]
    · rw [split, trimmed, List.append_assoc, List.singleton_append]
  · refine ⟨trimEnd text.toList, blanks, by rw [terminated, if_neg ends], white, .inr ⟨split, ?_⟩⟩
    rintro ⟨front, behind, whole, white⟩
    rw [whole, trimEnd_of_visible (by decide) front white] at ends
    simp at ends

/-! The tokens of a completed text. -/

section
variable {text : String} {front blanks : List Char}

theorem sequence_ended (split : text.toList = front ++ ';' :: blanks)
    (white : blanks.all isBlank = true) :
    Token.sequence text = Token.sequence (String.ofList (front ++ [';'])) := by
  have whole : text = String.ofList (front ++ [';'] ++ blanks) := by
    rw [List.append_assoc, List.singleton_append, ← split, String.ofList_toList]
  rw [whole, Token.sequence_append_blanks white]

theorem sequence_push_semicolon (text : String) :
    Token.sequence (text ++ ";") = (Token.sequence text).map
      (· ++ [Token.ofLexeme Lexeme.semicolon (Position.start.afterAll text.toList)]) := by
  have whole : text ++ ";" = String.ofList (text.toList ++ [';']) := by
    simp
  rw [whole, Token.sequence_append_semicolon, String.ofList_toList]

/-- White space and a semicolon at its end are all that a text can lose. -/
theorem terminated_of_ended (ended : Ended text.toList) :
    Token.sequence (terminated text) = Token.sequence text ∧
      (terminated text).utf8ByteSize ≤ text.utf8ByteSize := by
  obtain ⟨front, blanks, completed, white, split | ⟨-, lacking⟩⟩ := terminated_cases text
  · refine ⟨by rw [completed, sequence_ended split white], ?_⟩
    have whole : text = terminated text ++ String.ofList blanks := by
      rw [completed, ← String.ofList_append, List.append_assoc, List.singleton_append, ← split,
        String.ofList_toList]
    have size := congrArg String.utf8ByteSize whole
    rw [String.utf8ByteSize_append] at size
    omega
  · exact absurd ended lacking

/-- A text that no semicolon ends is given the one that it would be given without the white
space in front of it, but for its place. -/
theorem sequence_of_not_ended (lacking : ¬Ended text.toList) :
    ∃ position, Token.sequence (terminated text) =
      (Token.sequence text).map (· ++ [Token.ofLexeme Lexeme.semicolon position]) := by
  obtain ⟨front, blanks, completed, white, split | ⟨split, -⟩⟩ := terminated_cases text
  · exact absurd ⟨front, blanks, split, white⟩ lacking
  · have whole : text = String.ofList (front ++ blanks) := by rw [← split, String.ofList_toList]
    refine ⟨Position.start.afterAll front, ?_⟩
    rw [completed, Token.sequence_append_semicolon, whole, Token.sequence_append_blanks white]

theorem semicolon_of_terminated {tokens : List Token}
    (split : Token.sequence (terminated text) = .ok tokens) :
    ∃ token ∈ tokens, token.kind = .separator .semicolon := by
  obtain ⟨front, blanks, completed, -⟩ := terminated_cases text
  rw [completed, Token.sequence_append_semicolon] at split
  cases inner : Token.sequence (String.ofList front) with
  | error error => simp [inner, Except.map] at split
  | ok others =>
    simp only [inner, Except.map, Except.ok.injEq] at split
    exact ⟨_, split ▸ List.mem_append_right _ (List.mem_singleton_self _), rfl⟩

end

open Grammar

namespace Limits

variable {limits : Limits} {tokens : List Token}

theorem readTokens_ok_iff {command : Command} : limits.readTokens tokens = .ok command ↔
    ∃ rest, statement limits.maxDepth tokens = .ok (command, rest) := by
  unfold readTokens
  cases statement limits.maxDepth tokens with
  | error fault => simp
  | ok read => simp [Prod.ext_iff]

/-- The place of the semicolon does not matter. -/
theorem readTokens_semicolon {position : Position} (position' : Position) {command : Command}
    (read : limits.readTokens (tokens ++ [Token.ofLexeme Lexeme.semicolon position]) =
      .ok command) :
    limits.readTokens (tokens ++ [Token.ofLexeme Lexeme.semicolon position']) = .ok command := by
  have related : List.Forall₂ Token.Resembles
      (tokens ++ [Token.ofLexeme Lexeme.semicolon position])
      (tokens ++ [Token.ofLexeme Lexeme.semicolon position']) :=
    List.rel_append (List.forall₂_same.mpr fun _ _ => Token.resembles_of_kind_text rfl rfl)
      (.cons (Token.resembles_of_kind_text rfl rfl) .nil)
  obtain ⟨rest, read⟩ := readTokens_ok_iff.mp read
  have run := statement_resembling limits.maxDepth related
  rw [read] at run
  generalize outcome : statement limits.maxDepth _ = outcome' at run
  cases run with
  | read _ => exact readTokens_ok_iff.mpr ⟨_, outcome⟩

theorem ended_of_read {text : String} {command : Command} (read : limits.read text = .ok command) :
    Ended text.toList := by
  obtain ⟨-, tokens, split, read⟩ := read_ok_iff.mp read
  obtain ⟨rest, read⟩ := readTokens_ok_iff.mp read
  obtain ⟨front, semicolon, rfl, ends, -⟩ := ends_of_statement read
  rw [← String.ofList_toList (s := text)] at split
  exact Token.split_of_semicolon split ends

/-- A second semicolon is refused. -/
theorem read_ended_push_ne_ok {text : String} (ended : Ended text.toList) (command : Command) :
    limits.read (text ++ ";") ≠ .ok command := by
  intro read
  obtain ⟨front, blanks, split, white⟩ := ended
  obtain ⟨-, tokens, split', read⟩ := read_ok_iff.mp read
  obtain ⟨rest, read⟩ := readTokens_ok_iff.mp read
  obtain ⟨statement, last, whole, -, unended⟩ := ends_of_statement read
  rw [sequence_push_semicolon, sequence_ended split white, Token.sequence_append_semicolon] at split'
  cases inner : Token.sequence (String.ofList front) with
  | error error => simp [inner, Except.map] at split'
  | ok others =>
    simp only [inner, Except.map, Except.ok.injEq] at split'
    -- The text's own semicolon stands in front of the last one.
    obtain ⟨rfl, -⟩ := List.append_inj' (split'.trans whole) rfl
    exact unended _ (List.mem_append_right _ (List.mem_singleton_self _)) rfl

theorem read_terminated_of_read {text : String} {command : Command}
    (read : limits.read text = .ok command) : limits.read (terminated text) = .ok command := by
  obtain ⟨same, below⟩ := terminated_of_ended (ended_of_read read)
  obtain ⟨short, tokens, split, read⟩ := read_ok_iff.mp read
  refine read_ok_iff.mpr ⟨checkLength_ok_iff.mpr fun limit set => ?_, tokens, same.trans split, read⟩
  exact Nat.le_trans below (checkLength_ok_iff.mp short limit set)

/-- Where no semicolon ends the text, the one that is put there counts, not its place. -/
theorem read_terminated_iff_of_not_ended {text : String} (lacking : ¬Ended text.toList)
    (unbounded : limits.maxLength = none) (command : Command) :
    limits.read (terminated text) = .ok command ↔ limits.read (text ++ ";") = .ok command := by
  have short := checkLength_of_unbounded unbounded
  obtain ⟨position, completed⟩ := sequence_of_not_ended lacking
  rw [read_ok_iff, read_ok_iff, completed, sequence_push_semicolon]
  cases Token.sequence text with
  | error error => simp [Except.map]
  | ok tokens =>
    simp only [short, Except.map, Except.ok.injEq, true_and, exists_eq_left']
    exact ⟨readTokens_semicolon _, readTokens_semicolon _⟩

/-- A completed text is refused at one of its tokens. -/
theorem fragment_of_read_terminated {text : String} {diagnostic : Diagnostic}
    (failed : limits.read (terminated text) = .error diagnostic)
    (code : diagnostic.code = "PARSE_001") : diagnostic.fragment ≠ none := by
  obtain ⟨error, rfl, ⟨length, limit, rfl⟩ | lexical | ⟨tokens, fault, split, outcome, rfl⟩⟩ :=
    read_error_cases failed
  · simp [StatementError.diagnostic, Diagnostic.withStatement] at code
  · have cause := Token.isLexical_of_sequence lexical
    simp only [Diagnostic.withStatement] at code
    simp [Diagnostic.isLexical, code] at cause
  · rcases statement_of_semicolon limits.maxDepth (semicolon_of_terminated split) with
      ⟨command, _, _, read, -⟩ | ⟨_, failed, shown⟩
    · rw [read] at outcome
      contradiction
    · obtain rfl := Except.error.inj (outcome.symm.trans failed)
      rw [Diagnostic.withStatement, Fault.toError_fragment]
      obtain ⟨token, shown⟩ := Option.isSome_iff_exists.mp shown
      simp [shown]

/-- A session reads what is a statement as it stands, or with a semicolon behind it. A limit on
its length keeps no statement from being read, and no text ends too early. -/
theorem read_terminated (limits : Limits) (text : String) :
    (limits.maxLength = none → ∀ command, limits.read (terminated text) = .ok command ↔
      limits.read text = .ok command ∨ limits.read (text ++ ";") = .ok command) ∧
    (∀ command, limits.read text = .ok command → limits.read (terminated text) = .ok command) ∧
    ∀ diagnostic, limits.read (terminated text) = .error diagnostic →
      ¬(diagnostic.code = "PARSE_001" ∧ diagnostic.fragment = none) := by
  refine ⟨fun unbounded command => ?_, fun command => read_terminated_of_read,
    fun diagnostic failed early => fragment_of_read_terminated failed early.1 early.2⟩
  by_cases ended : Ended text.toList
  · have same := (terminated_of_ended ended).1
    have short := checkLength_of_unbounded unbounded
    rw [or_iff_left (read_ended_push_ne_ok ended command), read_ok_iff, read_ok_iff, same, short,
      short]
  · -- A statement ends with its semicolon, which this text lacks.
    rw [or_iff_right fun read => ended (ended_of_read read)]
    exact read_terminated_iff_of_not_ended ended unbounded command

/-- The white space between the text and its semicolon is gone. -/
theorem read_terminated_of_drop :
    let limits : Limits := {}
    let text := "drop collection books \n"
    let command : Command := .collection (.drop "books")
    terminated text = "drop collection books;" ∧ limits.maxLength = none ∧
      limits.read (text ++ ";") = .ok command ∧ limits.read (terminated text) = .ok command := by
  intro limits text command
  have split : Token.sequence (text ++ ";") = .ok
      [⟨.keyword .drop, "DROP", 1, 1⟩, ⟨.keyword .collection, "COLLECTION", 1, 6⟩,
        ⟨.identifier, "books", 1, 17⟩, ⟨.separator .semicolon, ";", 2, 1⟩] := by decide
  have read : limits.read (text ++ ";") = .ok command :=
    read_ok_iff.mpr ⟨rfl, _, split, by rfl⟩
  exact ⟨by decide, rfl, read, ((read_terminated limits text).1 rfl command).mpr (.inr read)⟩

end Limits

end VectorQuery
