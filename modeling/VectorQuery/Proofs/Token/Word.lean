import VectorQuery.Proofs.Text
import VectorQuery.Token.Sequence

/-! Words of a statement. Every identifier token is a name: a word that is neither
reserved nor a literal, in any letter case. -/
namespace VectorQuery

/-- The characters of a word, of which the first is a letter. -/
structure IsWord (characters : List Char) : Prop where
  start : ∃ first others, characters = first :: others ∧ Lexeme.isWordStart first = true
  parts : ∀ character ∈ characters, Lexeme.isWordPart character = true

theorem isWord_of_checked {characters : List Char}
    (start : characters.head?.any Lexeme.isWordStart = true)
    (parts : characters.all Lexeme.isWordPart = true) : IsWord characters := by
  refine ⟨?_, List.all_eq_true.mp parts⟩
  cases characters with
  | nil => contradiction
  | cons first others => exact ⟨first, others, rfl, start⟩

/-- A word that no keyword and no literal takes. -/
structure IsName (name : String) : Prop where
  word : IsWord name.toList
  free : Text.upper name ≠ "TRUE" ∧ Text.upper name ≠ "FALSE" ∧ Text.upper name ≠ "NULL"
  unreserved : Keyword.ofWord? (Text.upper name) = none

theorem isName_of_checked {name : String}
    (checked : (name.toList.head?.any Lexeme.isWordStart = true ∧
      name.toList.all Lexeme.isWordPart = true) ∧
      (Text.upper name ≠ "TRUE" ∧ Text.upper name ≠ "FALSE" ∧ Text.upper name ≠ "NULL") ∧
      Keyword.ofWord? (Text.upper name) = none) : IsName name :=
  ⟨isWord_of_checked checked.1.1 checked.1.2, checked.2.1, checked.2.2⟩

theorem IsName.ne {name word : String} (isName : IsName name)
    (taken : (Keyword.ofWord? (Text.upper word)).isSome = true ∨
      Text.upper word ∈ ["TRUE", "FALSE", "NULL"]) : name ≠ word := by
  rintro rfl
  rcases taken with reserved | literal
  · simp [isName.unreserved] at reserved
  · simp only [List.mem_cons, List.not_mem_nil, or_false] at literal
    rcases literal with yes | no | null
    · exact isName.free.1 yes
    · exact isName.free.2.1 no
    · exact isName.free.2.2 null

namespace Lexeme

theorem isWordStart_code {character : Char} (start : isWordStart character = true) :
    65 ≤ character.toNat ∧ character.toNat ≤ 122 := by
  rw [isWordStart, Bool.or_eq_true] at start
  rcases start with upper | lower
  · obtain ⟨least, most⟩ := of_decide_eq_true upper
    have least : 65 ≤ character.toNat := UInt32.le_iff_toNat_le.mp least
    have most : character.toNat ≤ 90 := UInt32.le_iff_toNat_le.mp most
    omega
  · obtain ⟨least, most⟩ := Bool.and_eq_true_iff.mp lower
    have least : 97 ≤ character.toNat := UInt32.le_iff_toNat_le.mp (of_decide_eq_true least)
    have most : character.toNat ≤ 122 := UInt32.le_iff_toNat_le.mp (of_decide_eq_true most)
    omega

theorem ofWord_name {spelling : List Char} (word : IsWord spelling)
    (identifier : (ofWord spelling).kind = .identifier) : IsName (ofWord spelling).text := by
  have letters : (String.ofList spelling).toList = spelling := String.toList_ofList
  unfold ofWord at identifier ⊢
  simp only at identifier ⊢
  split_ifs at identifier ⊢ with yes no null
  split at identifier
  next => cases identifier
  next unreserved =>
    exact ⟨letters.symm ▸ word, ⟨yes, no, null⟩, unreserved⟩

theorem takeWhile_word {character : Char} (start : isWordStart character = true) (rest : List Char) :
    IsWord ((character :: rest).takeWhile isWordPart) := by
  have part : isWordPart character = true := by simp [isWordPart, start]
  refine ⟨⟨character, rest.takeWhile isWordPart, by simp [part], start⟩, fun other inside => ?_⟩
  exact List.all_eq_true.mp (List.all_takeWhile) other inside

theorem symbol?_kind {text : List Char} {lexeme : Lexeme} (read : symbol? text = some lexeme) :
    lexeme.kind ≠ .identifier := by
  unfold symbol? at read
  split at read <;> cases read <;> exact nofun

theorem quotedText?_kind {quote : Char} {text : List Char} {lexeme : Lexeme}
    (read : quotedText? quote text = some lexeme) : lexeme.kind ≠ .identifier := by
  simp only [quotedText?, Option.ite_none_right_eq_some] at read
  obtain rfl := Option.some.inj read.2
  exact nofun

theorem first_name {character : Char} {rest : List Char} {lexeme : Lexeme}
    (read : first character rest = .ok lexeme) (identifier : lexeme.kind = .identifier) :
    IsName lexeme.text := by
  unfold first at read
  split_ifs at read with numeral word quote
  · simp only at read
    split_ifs at read <;> simp_all [← Except.ok.inj read]
  · obtain rfl := Except.ok.inj read
    exact ofWord_name (takeWhile_word word rest) identifier
  · split at read
    next found =>
      obtain rfl := Except.ok.inj read
      exact absurd identifier (quotedText?_kind found)
    next => cases read
  · split at read
    next found =>
      obtain rfl := Except.ok.inj read
      exact absurd identifier (symbol?_kind found)
    next => cases read

end Lexeme

namespace Token

theorem sequenceFrom_forall {property : Token → Prop}
    (each : ∀ character rest lexeme position, Lexeme.first character rest = .ok lexeme →
      property (ofLexeme lexeme position))
    {left : Nat} {position : Position} {characters : List Char} {before tokens : List Token}
    (held : ∀ token ∈ before, property token)
    (read : sequenceFrom before left position characters = .ok tokens) :
    ∀ token ∈ tokens, property token := by
  induction left generalizing position characters before with
  | zero =>
    rw [sequenceFrom] at read
    obtain rfl := Except.ok.inj read
    simpa using held
  | succ left ih =>
    cases characters with
    | nil =>
      simp only [sequenceFrom, Except.ok.injEq] at read
      subst read
      simpa using held
    | cons character rest =>
      rw [sequenceFrom] at read
      split_ifs at read
      · exact ih held read
      · split at read
        next => contradiction
        next lexeme found =>
          refine ih (fun token inside => ?_) read
          rcases List.mem_cons.mp inside with rfl | inside
          · exact each _ _ _ _ found
          · exact held token inside

theorem sequence_names {text : String} {tokens : List Token} (read : sequence text = .ok tokens) :
    ∀ token ∈ tokens, token.kind = .identifier → IsName token.text :=
  sequenceFrom_forall (fun _ _ _ _ found => Lexeme.first_name found) (by simp) read

end Token

end VectorQuery
