import VectorQuery.Proofs.Report
import VectorQuery.Proofs.Statement.Refusal

/-! The report of a refused statement points at the source. The place of the fragment is that
of a lexeme of the text, and the caret stands below the first character of it. -/
namespace VectorQuery
open Text

theorem LexicalFault.fragment_toError (fault : LexicalFault) (position : Position) :
    (fault.toError position).diagnostic.fragment =
      some ⟨String.ofList fault.spelling, position.line, position.column⟩ := by
  cases fault with
  | illegalCharacter character => rfl
  | integerOutOfRange spelling => rfl

theorem LexicalFault.Starts.spelling_cons {fault : LexicalFault} {character : Char}
    {rest : List Char} (starts : fault.Starts (character :: rest)) :
    ∃ others, fault.spelling = character :: others := by
  obtain ⟨⟨behind, split⟩, form⟩ := starts
  cases fault with
  | illegalCharacter reported =>
    obtain ⟨rfl, -⟩ := List.cons.inj split
    exact ⟨[], rfl⟩
  | integerOutOfRange spelling =>
    obtain ⟨-, negative, digits, written, rfl⟩ := form
    obtain ⟨head, others, signs, -⟩ := Lexeme.signed_cons negative written.isFraction
    simp only [LexicalFault.spelling, signs, List.cons_append, List.cons.injEq] at split ⊢
    exact ⟨others, split.1, rfl⟩

/-- Every token stands at its place as it is spelled. -/
theorem Laid.standsAt {before text : List Char} {tokens : List Token}
    (laid : Laid before text tokens) : ∀ token ∈ tokens, ∃ character others,
      isBlank character = false ∧ token.kind.Spelled token.text (character :: others) ∧
        StandsAt (before ++ text) token.line token.column (character :: others) := by
  induction laid with
  | done => simp
  | @token before blank spelling rest token tokens _ visible spelled place _ ih =>
    intro other inside
    rcases List.mem_cons.mp inside with rfl | inside
    · obtain ⟨character, others, rfl, visible⟩ := visible
      exact ⟨character, others, visible, spelled, before ++ blank, rest, by simp, place⟩
    · simpa using ih other inside

/-- What a text is refused for is spelled like this. A character or an integer that starts no
token is the fragment itself, and otherwise the fragment is that of one of the tokens. -/
def Offends (text : String) (fragment : Fragment) (spelling : List Char) : Prop :=
  match Token.sequence text with
  | .error error => fragment.text.toList = spelling ∧
      ∀ reported place, error = .illegalCharacter reported place → spelling = [reported]
  | .ok tokens => ∃ token ∈ tokens, token.fragment = fragment ∧
      token.kind.Spelled token.text spelling

namespace Token

variable {text : String} {fragment : Fragment}

theorem exists_offends_of_error {error : StatementError}
    (refused : sequence text = .error error) (placed : error.diagnostic.fragment = some fragment) :
    ∃ character others, isBlank character = false ∧ Offends text fragment (character :: others) ∧
      StandsAt text.toList fragment.line fragment.column (character :: others) := by
  have start : Position.start = .behind [] := rfl
  unfold Offends
  rw [refused]
  rw [sequence, start] at refused
  obtain ⟨taken, character, rest, -, fault, split, visible, -, starts, rfl⟩ :=
    sequenceFrom_fault (Nat.le_refl _) refused
  rw [fault.fragment_toError] at placed
  obtain rfl := Option.some.inj placed
  obtain ⟨others, spelled⟩ := starts.spelling_cons
  refine ⟨character, others, visible, ⟨?_, ?_⟩, taken, ?_⟩
  · rw [String.toList_ofList, spelled]
  · rintro reported place same
    cases fault with
    | illegalCharacter =>
      obtain ⟨rfl, -⟩ := StatementError.illegalCharacter.inj same
      exact spelled.symm
    | integerOutOfRange => contradiction
  · obtain ⟨⟨behind, front⟩, -⟩ := starts
    refine ⟨behind, ?_, rfl⟩
    rw [split, ← front, spelled, List.append_assoc]

theorem exists_offends_of_mem {tokens : List Token} (split : sequence text = .ok tokens)
    {token : Token} (inside : token ∈ tokens) :
    ∃ character others, isBlank character = false ∧
      Offends text token.fragment (character :: others) ∧
      StandsAt text.toList token.line token.column (character :: others) := by
  have start : Position.start = .behind [] := rfl
  unfold Offends
  rw [split]
  rw [sequence, start] at split
  obtain ⟨later, rfl, laid⟩ := sequenceFrom_laid (Nat.le_refl _) split
  obtain ⟨character, others, visible, spelled, stands⟩ := laid.standsAt token inside
  exact ⟨character, others, visible, ⟨token, inside, rfl, spelled⟩, stands⟩

end Token

namespace Limits

variable {limits : Limits} {text : String} {diagnostic : Diagnostic} {fragment : Fragment}

theorem exists_offends (refused : limits.read text = .error diagnostic)
    (placed : diagnostic.fragment = some fragment) :
    ∃ character others, isBlank character = false ∧ Offends text fragment (character :: others) ∧
      StandsAt text.toList fragment.line fragment.column (character :: others) := by
  obtain ⟨error, rfl, ⟨length, limit, rfl⟩ | lexical | ⟨tokens, fault, split, outcome, rfl⟩⟩ :=
    Grammar.read_error_cases refused
  · contradiction
  · exact Token.exists_offends_of_error lexical placed
  · rw [Diagnostic.withStatement, Grammar.Fault.toError_fragment] at placed
    obtain ⟨token, shown, rfl⟩ := Option.map_eq_some_iff.mp placed
    exact Token.exists_offends_of_mem split (Grammar.token_of_refused outcome token shown)

end Limits

end VectorQuery
