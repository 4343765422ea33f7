import VectorQuery.Text.Quoted
import Mathlib.Tactic.SplitIfs

/-! Where texts end. A run of characters of one kind ends at the first character of
another, and a quoted text at its quote; so either can be found again in front of
whatever follows. -/
namespace VectorQuery.Text

/-- No character of this kind comes next. -/
def Ends (kind : Char → Bool) (text : List Char) : Prop :=
  ∀ character ∈ text.head?, kind character = false

theorem ends_nil (kind : Char → Bool) : Ends kind [] := by
  simp [Ends]

theorem ends_cons {kind : Char → Bool} {character : Char} (other : kind character = false)
    (rest : List Char) : Ends kind (character :: rest) := by
  simpa [Ends] using other

theorem Ends.weaken {kind kind' : Char → Bool} {text : List Char} (ends : Ends kind text)
    (weaker : ∀ character, kind' character = true → kind character = true) : Ends kind' text := by
  intro character first
  have stops := ends character first
  refine Bool.eq_false_iff.mpr fun found => ?_
  simp [weaker character found] at stops

theorem Ends.shorten {kind : Char → Bool} {text rest : List Char} (ends : Ends kind text)
    (shorter : rest <+: text) : Ends kind rest := by
  intro character first
  obtain ⟨behind, rfl⟩ := shorter
  cases rest with
  | nil => contradiction
  | cons head tail => exact ends character first

theorem ends_dropWhile (kind : Char → Bool) (text : List Char) :
    Ends kind (text.dropWhile kind) := by
  intro character first
  have stops := List.head?_dropWhile_not kind text
  rw [first] at stops
  simpa using stops

theorem takeWhile_of_ends {kind : Char → Bool} {run rest : List Char}
    (all : ∀ character ∈ run, kind character = true) (ends : Ends kind rest) :
    (run ++ rest).takeWhile kind = run := by
  rw [List.takeWhile_append_of_pos all]
  cases rest with
  | nil => simp
  | cons character rest => simp [ends character rfl]

theorem dropWhile_of_ends {kind : Char → Bool} {run rest : List Char}
    (all : ∀ character ∈ run, kind character = true) (ends : Ends kind rest) :
    (run ++ rest).dropWhile kind = rest := by
  rw [List.dropWhile_append_of_pos all]
  cases rest with
  | nil => simp
  | cons character rest => simp [ends character rfl]

/-- A run and what follows it are told apart. -/
theorem run_unique {kind : Char → Bool} {run run' rest rest' : List Char}
    (all : ∀ character ∈ run, kind character = true)
    (all' : ∀ character ∈ run', kind character = true) (ends : Ends kind rest)
    (ends' : Ends kind rest') (same : run ++ rest = run' ++ rest') : run = run' ∧ rest = rest' := by
  constructor
  · rw [← takeWhile_of_ends all ends, same, takeWhile_of_ends all' ends']
  · rw [← dropWhile_of_ends all ends, same, dropWhile_of_ends all' ends']

/-! Quoted texts. -/

theorem isDigit_code {character : Char} (digit : character.isDigit = true) :
    48 ≤ character.toNat ∧ character.toNat ≤ 57 := by
  simp only [Char.isDigit, Bool.and_eq_true, decide_eq_true_eq] at digit
  exact ⟨UInt32.le_iff_toNat_le.mp digit.1, UInt32.le_iff_toNat_le.mp digit.2⟩

/-- The number of a digit of an escape. -/
def digitValue (digit : Char) : Nat :=
  if digit.isDigit then digit.toNat - '0'.toNat else digit.toNat - 'a'.toNat + 10

/-- The character that starts a text whose characters may be escaped. -/
def unescaped? : List Char → Option (Char × List Char)
  | '\\' :: '"' :: rest => some ('"', rest)
  | '\\' :: '\\' :: rest => some ('\\', rest)
  | '\\' :: 'b' :: rest => some ('\x08', rest)
  | '\\' :: 'f' :: rest => some ('\x0c', rest)
  | '\\' :: 'n' :: rest => some ('\n', rest)
  | '\\' :: 'r' :: rest => some ('\r', rest)
  | '\\' :: 't' :: rest => some ('\t', rest)
  | '\\' :: 'u' :: _ :: _ :: high :: low :: rest =>
    some (Char.ofNat (16 * digitValue high + digitValue low), rest)
  | character :: rest => some (character, rest)
  | [] => none

theorem digitValue_control {code : Nat} (control : code < 0x20) :
    16 * digitValue (Nat.digitChar (code / 16)) + digitValue (Nat.digitChar (code % 16)) = code := by
  have all : ∀ code < 0x20, 16 * digitValue (Nat.digitChar (code / 16)) +
      digitValue (Nat.digitChar (code % 16)) = code := by decide
  exact all code control

theorem unescaped?_escaped (character : Char) (rest : List Char) :
    unescaped? (escaped character ++ rest) = some (character, rest) := by
  unfold escaped
  split_ifs with quote slash backspace formFeed lineFeed carriage tab control
  · rw [quote]; rfl
  · rw [slash]; rfl
  · rw [backspace]; rfl
  · rw [formFeed]; rfl
  · rw [lineFeed]; rfl
  · rw [carriage]; rfl
  · rw [tab]; rfl
  · simp only [List.cons_append, List.nil_append, unescaped?, digitValue_control control,
      Char.ofNat_toNat]
  · simp only [List.singleton_append]
    rw [unescaped?]
    all_goals simp [slash]

/-- The escapes of two characters never start one another. -/
theorem escaped_unique {character character' : Char} {rest rest' : List Char}
    (same : escaped character ++ rest = escaped character' ++ rest') :
    character = character' ∧ rest = rest' := by
  have read := congrArg unescaped? same
  simpa [unescaped?_escaped] using read

theorem head_escaped (character : Char) : (escaped character).head? ≠ some '"' ∧ escaped character ≠ [] := by
  unfold escaped
  split_ifs with quote <;> simp_all

theorem body_unique {body body' rest rest' : List Char}
    (same : body.flatMap escaped ++ '"' :: rest = body'.flatMap escaped ++ '"' :: rest') :
    body = body' ∧ rest = rest' := by
  have opens (character : Char) (tail tail' : List Char) :
      escaped character ++ tail ≠ '"' :: tail' := by
    obtain ⟨plain, filled⟩ := head_escaped character
    cases characters : escaped character with
    | nil => exact absurd characters filled
    | cons head others =>
      intro equal
      rw [characters] at plain
      simp_all
  induction body generalizing body' with
  | nil =>
    cases body' with
    | nil => simpa using same
    | cons character' body' =>
      simp only [List.flatMap_cons, List.append_assoc] at same
      exact absurd same.symm (opens character' _ _)
  | cons character body ih =>
    cases body' with
    | nil =>
      simp only [List.flatMap_cons, List.append_assoc] at same
      exact absurd same (opens character _ _)
    | cons character' body' =>
      simp only [List.flatMap_cons, List.append_assoc] at same
      obtain ⟨rfl, behind⟩ := escaped_unique same
      obtain ⟨rfl, rfl⟩ := ih behind
      exact ⟨rfl, rfl⟩

theorem quoted_toList (text : String) :
    (quoted text).toList = '"' :: (text.toList.flatMap escaped ++ ['"']) := by
  simp [quoted]

theorem quoted_unique {text text' : String} {rest rest' : List Char}
    (same : (quoted text).toList ++ rest = (quoted text').toList ++ rest') :
    text = text' ∧ rest = rest' := by
  simp only [quoted_toList, List.cons_append, List.append_assoc, List.nil_append,
    List.cons.injEq, true_and] at same
  obtain ⟨body, rfl⟩ := body_unique same
  exact ⟨String.toList_inj.mp body, rfl⟩

end VectorQuery.Text
