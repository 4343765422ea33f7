import Mathlib.Data.List.Forall2
import VectorQuery.Proofs.Token.Numeral
import VectorQuery.Proofs.Token.Word

/-! Lexemes laid out in a text. Each one becomes a token of its kind, in order, whatever
the places are. A lexeme is laid out only in front of a text that leaves it whole; white
space always does. -/
namespace VectorQuery

namespace Lexeme
open Text

/-- In front of this text, the spelling is read as the lexeme. -/
def Leads (lexeme : Lexeme) (rest : List Char) : Prop :=
  ∃ character others, lexeme.spelling = character :: others ∧ isBlank character = false ∧
    first character (others ++ rest) = .ok lexeme

/-- The lexeme leads wherever white space or the end follows. -/
def Stands (lexeme : Lexeme) : Prop :=
  ∀ rest, Apart rest → lexeme.Leads rest

/-- A text of these lexemes, with as much white space as there is. -/
inductive Layout : List Lexeme → List Char → Prop
  | nil : Layout [] []
  | blank {character : Char} {lexemes : List Lexeme} {text : List Char} :
      isBlank character = true → Layout lexemes text → Layout lexemes (character :: text)
  | lexeme {lexeme : Lexeme} {lexemes : List Lexeme} {text : List Char} :
      lexeme.Leads text → Layout lexemes text →
        Layout (lexeme :: lexemes) (lexeme.spelling ++ text)

/-- The tokens have the kinds and the texts of the lexemes. -/
def Spells : List Lexeme → List Token → Prop :=
  List.Forall₂ fun lexeme token => token.kind = lexeme.kind ∧ token.text = lexeme.text

theorem Spells.cons_cases {lexeme : Lexeme} {lexemes : List Lexeme} {tokens : List Token}
    (spells : Spells (lexeme :: lexemes) tokens) :
    ∃ token others, tokens = token :: others ∧ token.kind = lexeme.kind ∧
      token.text = lexeme.text ∧ Spells lexemes others := by
  obtain ⟨token, others, ⟨kind, text⟩, behind, rfl⟩ := List.forall₂_cons_left_iff.mp spells
  exact ⟨token, others, rfl, kind, text, behind⟩

theorem Spells.nil_cases {tokens : List Token} (spells : Spells [] tokens) : tokens = [] :=
  List.forall₂_nil_left_iff.mp spells

theorem Spells.append_cases {lexemes others : List Lexeme} {tokens : List Token}
    (spells : Spells (lexemes ++ others) tokens) :
    ∃ first second, tokens = first ++ second ∧ Spells lexemes first ∧ Spells others second := by
  induction lexemes generalizing tokens with
  | nil => exact ⟨[], tokens, rfl, .nil, spells⟩
  | cons lexeme lexemes ih =>
    obtain ⟨token, behind, rfl, kind, text, later⟩ := Spells.cons_cases spells
    obtain ⟨first, second, rfl, start, finish⟩ := ih later
    exact ⟨token :: first, second, rfl, .cons ⟨kind, text⟩ start, finish⟩

theorem spells_of_same {lexemes : List Lexeme} {tokens : List Token}
    (same : tokens.map (fun token => (token.kind, token.text)) =
      lexemes.map fun lexeme => (lexeme.kind, lexeme.text)) : Spells lexemes tokens := by
  rw [← List.forall₂_eq_eq_eq, List.forall₂_map_left_iff, List.forall₂_map_right_iff] at same
  exact same.flip.imp fun _ _ both => Prod.mk.inj both

/-- The tokens of the lexemes, all at one place. -/
theorem spells_somewhere (lexemes : List Lexeme) :
    Spells lexemes (lexemes.map fun lexeme => ⟨lexeme.kind, lexeme.text, 0, 0⟩) :=
  spells_of_same (by rw [List.map_map]; rfl)

/-- Laid out lexemes become tokens one by one: white space is skipped, and a lexeme takes
just its own spelling. -/
theorem sequenceFrom_layout {lexemes : List Lexeme} {text : List Char}
    (layout : Layout lexemes text) {left : Nat} (enough : text.length ≤ left)
    (before : List Token) (position : Position) :
    ∃ tokens, Token.sequenceFrom before left position text = .ok (before.reverse ++ tokens) ∧
      Spells lexemes tokens := by
  induction layout generalizing left before position with
  | nil =>
    refine ⟨[], ?_, .nil⟩
    cases left <;> simp [Token.sequenceFrom]
  | @blank character lexemes text blank _ ih =>
    obtain ⟨left, rfl⟩ : ∃ fewer, left = fewer + 1 := ⟨left - 1, by simp at enough; omega⟩
    rw [Token.sequenceFrom, if_pos blank]
    exact ih (by simpa using enough) before (position.after character)
  | @lexeme lexeme lexemes text leads _ ih =>
    obtain ⟨character, others, spelling, visible, reads⟩ := leads
    obtain ⟨left, rfl⟩ : ∃ fewer, left = fewer + 1 :=
      ⟨left - 1, by simp [spelling] at enough; omega⟩
    have behind : (lexeme.spelling ++ text).drop lexeme.spelling.length = text := by simp
    have shorter : text.length ≤ left := by
      simp only [spelling, List.length_append, List.length_cons] at enough
      omega
    obtain ⟨tokens, read, spells⟩ := ih shorter (Token.ofLexeme lexeme position :: before)
      (position.afterAll lexeme.spelling)
    refine ⟨Token.ofLexeme lexeme position :: tokens, ?_, .cons ⟨rfl, rfl⟩ spells⟩
    rw [spelling] at behind ⊢
    rw [List.cons_append] at behind ⊢
    rw [Token.sequenceFrom, visible, reads]
    simp only [Bool.false_eq_true, if_false, spelling, behind]
    rw [← spelling, read]
    simp

theorem sequence_layout {lexemes : List Lexeme} {text : String}
    (layout : Layout lexemes text.toList) :
    ∃ tokens, Token.sequence text = .ok tokens ∧ Spells lexemes tokens :=
  sequenceFrom_layout layout (Nat.le_refl _) [] .start

/-! Layouts put together. -/

/-- The characters are the lexemes laid out, in front of every text that this admits. -/
def Lays (lexemes : List Lexeme) (characters : List Char) (admits : List Char → Prop) : Prop :=
  ∀ ⦃others rest⦄, admits rest → Layout others rest →
    Layout (lexemes ++ others) (characters ++ rest)

theorem lays_lexeme {lexeme : Lexeme} {admits : List Char → Prop}
    (leads : ∀ ⦃rest⦄, admits rest → lexeme.Leads rest) : Lays [lexeme] lexeme.spelling admits :=
  fun _ _ admitted layout => .lexeme (leads admitted) layout

theorem lays_blank {gap : List Char} (blank : gap.all isBlank = true) :
    Lays [] gap fun _ => True := by
  intro others rest _ layout
  induction gap with
  | nil => exact layout
  | cons character gap ih =>
    obtain ⟨first, later⟩ := Bool.and_eq_true_iff.mp blank
    exact .blank first (ih later)

theorem Lays.append {lexemes lexemes' : List Lexeme} {characters characters' : List Char}
    {admits admits' : List Char → Prop} (front : Lays lexemes characters admits)
    (behind : Lays lexemes' characters' admits')
    (meets : ∀ rest, admits' rest → admits (characters' ++ rest)) :
    Lays (lexemes ++ lexemes') (characters ++ characters') admits' := by
  intro others rest admitted layout
  rw [List.append_assoc, List.append_assoc]
  exact front (meets rest admitted) (behind admitted layout)

theorem Lays.weaken {lexemes : List Lexeme} {characters : List Char}
    {admits admits' : List Char → Prop} (lays : Lays lexemes characters admits)
    (weaker : ∀ rest, admits' rest → admits rest) : Lays lexemes characters admits' :=
  fun _ rest admitted layout => lays (weaker rest admitted) layout

theorem Lays.sequence {lexemes : List Lexeme} {characters : List Char}
    {admits : List Char → Prop} (lays : Lays lexemes characters admits) (alone : admits []) :
    ∃ tokens, Token.sequence (String.ofList characters) = .ok tokens ∧ Spells lexemes tokens := by
  have layout := lays alone .nil
  rw [List.append_nil, List.append_nil, ← String.toList_ofList (l := characters)] at layout
  exact sequence_layout layout

/-- Lexemes with a blank behind each. -/
def written (lexemes : List Lexeme) : List Char :=
  lexemes.flatMap fun lexeme => lexeme.spelling ++ [' ']

theorem layout_written {lexemes : List Lexeme} (stand : ∀ lexeme ∈ lexemes, lexeme.Stands) :
    Layout lexemes (written lexemes) := by
  induction lexemes with
  | nil => exact .nil
  | cons lexeme lexemes ih =>
    have behind := ih fun other inside => stand other (by simp [inside])
    have leads := stand lexeme (by simp) (' ' :: written lexemes) (apart_cons (by decide) _)
    have layout : Layout (lexeme :: lexemes) (lexeme.spelling ++ ' ' :: written lexemes) :=
      .lexeme leads (.blank (by decide) behind)
    simpa [written] using layout

theorem sequence_written {lexemes : List Lexeme} (stand : ∀ lexeme ∈ lexemes, lexeme.Stands) :
    ∃ tokens, Token.sequence (String.ofList (written lexemes)) = .ok tokens ∧
      Spells lexemes tokens :=
  sequence_layout (by simpa using layout_written stand)

end Lexeme

end VectorQuery
