import VectorQuery.Proofs.Grammar.Yield
import VectorQuery.Proofs.Statement.Agreement
import VectorQuery.Proofs.Token.Lexicon

/-! Texts that differ in their layout, in the letter case of their words and in their quotes.
Where their tokens are alike, both stand for one command, or both are refused for one cause. -/
namespace VectorQuery

/-- The same text, up to the letter case of a truth value or of null. -/
def Text.Resembles (text text' : String) : Prop :=
  text = text' ∨ upper text = upper text' ∧ upper text ∈ ["TRUE", "FALSE", "NULL"]

/-- Tokens that differ in their places and in that letter case alone. -/
structure Token.Resembles (token token' : Token) : Prop extends token.Alike token' where
  words : Text.Resembles token.text token'.text

theorem Token.resembles_of_kind_text {token token' : Token} (kind : token.kind = token'.kind)
    (text : token.text = token'.text) : token.Resembles token' :=
  ⟨⟨kind, fun _ => text⟩, .inl text⟩

namespace Lexeme

/-- A truth value or null is told by its kind, and its text is its word in some letter case. -/
theorem Lexicon.upper_of_tellsAll {lexeme : Lexeme} (known : Lexicon lexeme)
    (tells : lexeme.kind.tellsAll = true) :
    ∃ form word, lexeme.kind = .literal form ∧ literalWord? form = some word ∧
      Text.upper lexeme.text = word := by
  cases known with
  | @literalWord form word spelling known same => exact ⟨form, word, rfl, known, same⟩
  | _ => contradiction

theorem literalWord?_mem {form : LiteralForm} {word : String} (known : literalWord? form = some word) :
    word ∈ ["TRUE", "FALSE", "NULL"] := by
  unfold literalWord? at known
  split at known <;> cases known <;> simp

/-- Lexemes of one kind that tells all about them have the same word. -/
theorem Lexicon.resembles {lexeme lexeme' : Lexeme} (known : Lexicon lexeme)
    (known' : Lexicon lexeme') (kind : lexeme.kind = lexeme'.kind)
    (tells : lexeme.kind.tellsAll = true) : Text.Resembles lexeme.text lexeme'.text := by
  obtain ⟨form, word, isForm, isWord, upper⟩ := known.upper_of_tellsAll tells
  obtain ⟨form', word', isForm', isWord', upper'⟩ := known'.upper_of_tellsAll (kind ▸ tells)
  obtain rfl : form = form' := TokenKind.literal.inj (isForm.symm.trans (kind.trans isForm'))
  obtain rfl : word = word' := Option.some.inj (isWord.symm.trans isWord')
  refine .inr ⟨upper.trans upper'.symm, ?_⟩
  rw [upper]
  exact literalWord?_mem isWord

end Lexeme

namespace Token

/-- Alike tokens of two texts resemble each other. -/
theorem forall₂_resembles {text text' : String} {tokens tokens' : List Token}
    (read : sequence text = .ok tokens) (read' : sequence text' = .ok tokens')
    (alike : List.Forall₂ Token.Alike tokens tokens') :
    List.Forall₂ Token.Resembles tokens tokens' := by
  have known := sequence_lexicon read
  have known' := sequence_lexicon read'
  clear read read'
  induction alike with
  | nil => exact .nil
  | @cons token token' tokens tokens' alike _ ih =>
    obtain ⟨⟨lexeme, inside, kind, text⟩, known⟩ := List.forall_mem_cons.mp known
    obtain ⟨⟨lexeme', inside', kind', text'⟩, known'⟩ := List.forall_mem_cons.mp known'
    refine .cons ⟨alike, ?_⟩ (ih known known')
    cases tells : token.kind.tellsAll with
    | false => exact .inl (alike.text tells)
    | true =>
      -- Alike tokens of such a kind may have any texts; what is left is what a text can hold.
      rw [text, text']
      rw [kind] at tells
      exact inside.resembles inside' (kind.symm.trans (alike.kind.trans kind')) tells

end Token

namespace Grammar

/-- Faults of one cause, at tokens that resemble each other. -/
inductive Fault.Resembles : Fault → Fault → Prop
  | unexpected {token token' : Token} :
      token.Resembles token' → Resembles (.unexpected token) (.unexpected token')
  | endOfInput : Resembles .endOfInput .endOfInput
  | tooDeep {token token' : Option Token} :
      Option.Rel Token.Resembles token token' → Resembles (.tooDeep token) (.tooDeep token')

/-- Tokens that resemble each other one by one, and the same levels. -/
def resembling : Coupling where
  tokens := List.Forall₂ Token.Resembles
  heads := Token.Resembles
  levels fewer more := fewer = more
  faults := Fault.Resembles
  escapes _ := False
  alike := Token.Resembles.toAlike
  split := by
    intro left right related
    cases related with
    | nil => exact .inl ⟨rfl, rfl⟩
    | @cons token token' rest rest' heads behind =>
      exact .inr ⟨token, token', rest, rest', rfl, rfl, heads, fun _ => behind⟩
  unexpected := .unexpected
  endOfInput := fun _ => .endOfInput
  tooDeep := by
    intro left right _ related
    cases related with
    | nil => exact .tooDeep .none
    | cons heads _ => exact .tooDeep (.some heads)
  escape := by
    intro levels' left right unequal
    contradiction
  deeper := fewer_of_same

theorem resembling_passes : resembling.Passes := by
  intro token token' rest rest' related
  cases related with
  | cons _ behind => exact behind

variable {tokens tokens' : List Token}

theorem statement_resembling (levels : Nat) (related : List.Forall₂ Token.Resembles tokens tokens') :
    resembling.Ends (statement levels tokens) (statement levels tokens') := by
  have same : resembling.levels levels levels := rfl
  exact statement_agree resembling_passes same related

end Grammar

/-- Diagnostics that say the same, about texts up to the letter case of a truth value or of
null. Their places may differ, and the labels, which show those texts. -/
structure Diagnostic.Resembles (diagnostic diagnostic' : Diagnostic) : Prop where
  code : diagnostic.code = diagnostic'.code
  message : diagnostic.message = diagnostic'.message
  help : diagnostic.help = diagnostic'.help
  notes : diagnostic.notes = diagnostic'.notes
  fragment : Option.Rel (fun fragment fragment' => Text.Resembles fragment.text fragment'.text)
    diagnostic.fragment diagnostic'.fragment

open Grammar

theorem Grammar.Fault.Resembles.diagnostic {fault fault' : Fault} (resembles : fault.Resembles fault')
    (maxDepth : Nat) (statement statement' : String) :
    ((fault.toError maxDepth).diagnostic.withStatement statement).Resembles
      ((fault'.toError maxDepth).diagnostic.withStatement statement') := by
  cases resembles with
  | unexpected heads => exact ⟨rfl, rfl, rfl, rfl, .some heads.words⟩
  | endOfInput => exact ⟨rfl, rfl, rfl, rfl, .none⟩
  | tooDeep heads =>
    cases heads with
    | some heads => exact ⟨rfl, rfl, rfl, rfl, .some heads.words⟩
    | none => exact ⟨rfl, rfl, rfl, rfl, .none⟩

/-- Layout, the letter case of words and the quotes never matter: texts with alike tokens stand
for one command, or are refused for one cause. -/
theorem Limits.read_alike (maxDepth : Nat) {text text' : String} {tokens tokens' : List Token}
    (split : Token.sequence text = .ok tokens) (split' : Token.sequence text' = .ok tokens')
    (alike : List.Forall₂ Token.Alike tokens tokens') :
    let limits : Limits := { maxDepth }
    (∃ command, limits.read text = .ok command ∧ limits.read text' = .ok command) ∨
      ∃ diagnostic diagnostic', limits.read text = .error diagnostic ∧
        limits.read text' = .error diagnostic' ∧ diagnostic.Resembles diagnostic' := by
  intro limits
  have run := statement_resembling maxDepth (Token.forall₂_resembles split split' alike)
  have short := checkLength_of_unbounded (show limits.maxLength = none from rfl)
  rw [read_of_sequence (short text), read_of_sequence (short text'), split, split']
  simp only [Except.bind, readTokens, limits]
  generalize statement maxDepth tokens = outcome at run
  generalize statement maxDepth tokens' = outcome' at run
  cases run with
  | read _ => exact .inl ⟨_, rfl, rfl⟩
  | fault faults => exact .inr ⟨_, _, rfl, rfl, faults.diagnostic maxDepth text text'⟩
  | escape escapes => exact escapes.elim

/-- A truth value behind the last file is refused, whatever the letters and the quotes. -/
theorem Limits.read_alike_of_truth :
    let text := "BULK INSERT COLLECTION c FROM 'f' TRUE;"
    let text' := "Bulk insert\n\tcollection c from \"f\"\ntrue ;"
    let tokens : List Token := [⟨.keyword .bulk, "BULK", 1, 1⟩, ⟨.keyword .insert, "INSERT", 1, 6⟩,
      ⟨.keyword .collection, "COLLECTION", 1, 13⟩, ⟨.identifier, "c", 1, 24⟩,
      ⟨.keyword .from, "FROM", 1, 26⟩, ⟨.literal .text, "f", 1, 31⟩,
      ⟨.literal (.boolean true), "TRUE", 1, 35⟩, ⟨.separator .semicolon, ";", 1, 39⟩]
    let tokens' : List Token := [⟨.keyword .bulk, "BULK", 1, 1⟩, ⟨.keyword .insert, "INSERT", 1, 6⟩,
      ⟨.keyword .collection, "COLLECTION", 2, 2⟩, ⟨.identifier, "c", 2, 13⟩,
      ⟨.keyword .from, "FROM", 2, 15⟩, ⟨.literal .text, "f", 2, 20⟩,
      ⟨.literal (.boolean true), "true", 3, 1⟩, ⟨.separator .semicolon, ";", 3, 6⟩]
    let limits : Limits := { maxDepth := 8 }
    Token.sequence text = .ok tokens ∧ Token.sequence text' = .ok tokens' ∧
      List.Forall₂ Token.Alike tokens tokens' ∧
      ((∃ command, limits.read text = .ok command ∧ limits.read text' = .ok command) ∨
        ∃ diagnostic diagnostic', limits.read text = .error diagnostic ∧
          limits.read text' = .error diagnostic' ∧ diagnostic.Resembles diagnostic') := by
  intro text text' tokens tokens' limits
  have split : Token.sequence text = .ok tokens := by decide
  have split' : Token.sequence text' = .ok tokens' := by decide
  have same {token token' : Token} (kind : token.kind = token'.kind)
      (text : token.text = token'.text) : token.Alike token' := ⟨kind, fun _ => text⟩
  have alike : List.Forall₂ Token.Alike tokens tokens' :=
    .cons (same rfl rfl) (.cons (same rfl rfl) (.cons (same rfl rfl) (.cons (same rfl rfl)
      (.cons (same rfl rfl) (.cons (same rfl rfl) (.cons ⟨rfl, nofun⟩
        (.cons (same rfl rfl) .nil)))))))
  exact ⟨split, split', alike, read_alike 8 split split' alike⟩

end VectorQuery
