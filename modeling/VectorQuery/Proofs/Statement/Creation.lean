import VectorQuery.Proofs.Statement.Roundtrip

/-! Statements that create a collection, with their fields in every way in which they may be
written. -/
namespace VectorQuery

open Lexeme Grammar

/-- A statement that creates a collection of this name with these fields. Behind the fields
stands whatever clause is read as the options, or none. -/
inductive CreatesBy (levels : Nat) (name : String) (outlines : List FieldOutline)
    (options : Mapping) : List Lexeme → Prop
  | statement {create collection : List Char} {fields clause : List Lexeme} :
      IsSpelling create "CREATE" → IsSpelling collection "COLLECTION" → IsName name →
        FieldOutline.ListedBy false outlines fields →
        Reads (Grammar.options levels) clause options EndsStatement →
        CreatesBy levels name outlines options
          (ofWord create :: ofWord collection :: ofName name :: ofOperator .openParen ::
            (fields ++ clause) ++ [semicolon])

/-- A text of such a statement, of a length within the limit. -/
structure Creation (limits : Limits) (name : String) (outlines : List FieldOutline)
    (options : Mapping) (text : String) : Prop where
  short : limits.checkLength text = .ok ()
  written : ∃ lexemes, CreatesBy limits.maxDepth name outlines options lexemes ∧
    Layout lexemes text.toList

namespace Grammar

theorem reads_accept_spelled {keyword : Keyword} {spelling : List Char} {lexemes : List Lexeme}
    {α : Type} {value : α} {yes no : Rule α} {before : List Token → Prop}
    (spelled : IsSpelling spelling keyword.word) (reads : Reads yes lexemes value before) :
    Reads (accept (.keyword keyword) >>= fun found => if found = true then yes else no)
      (ofWord spelling :: lexemes) value before := by
  have stands := stands_ofWord spelled.isWord
  rw [ofWord_of_keyword spelled.upper] at stands ⊢
  exact reads_accept stands reads

theorem reads_no_options (levels : Nat) :
    Reads (options levels) [] .empty (Lacks (.keyword .with)) :=
  (reads_unannounced .with).finish rfl

theorem reads_createsBy {levels : Nat} {name : String} {outlines : List FieldOutline}
    {given : Mapping} {lexemes : List Lexeme} (written : CreatesBy levels name outlines given lexemes) :
    Reads (statement levels) lexemes
      (.collection (.create ⟨name, outlines.map FieldOutline.definition, given⟩)) (· = []) := by
  cases written with
  | @statement create collection fields clause creates collects named listed clauses =>
    have inner : Reads (createCollection levels)
        (ofName name :: ofOperator .openParen :: (fields ++ clause))
        ⟨name, outlines.map FieldOutline.definition, given⟩ EndsStatement := by
      refine (reads_identifier named).then ((reads_fields listed).then ?_)
      exact clauses.map fun given =>
        (⟨name, outlines.map FieldOutline.definition, given⟩ : CreateCollection)
    have database : (ofWord collection).kind ≠ .keyword .database := by
      rw [@ofWord_of_keyword .collection _ collects.upper]
      simp
    apply reads_ended
    refine reads_accept_spelled creates (reads_accept_skip ?_ database)
    exact reads_accept_spelled collects
      (inner.map fun collection => Command.collection (.create collection))

end Grammar

namespace Limits

theorem read_creation {limits : Limits} {name : String} {outlines : List FieldOutline}
    {options : Mapping} {text : String} (creation : Creation limits name outlines options text) :
    limits.read text =
      .ok (.collection (.create ⟨name, outlines.map FieldOutline.definition, options⟩)) := by
  obtain ⟨short, lexemes, written, layout⟩ := creation
  obtain ⟨tokens, split, spells⟩ := sequence_layout layout
  have read := (reads_createsBy written).reads spells [] rfl
  rw [List.append_nil] at read
  rw [Limits.read, readText_of_tokens short split read]
  rfl

theorem creation_of_written {limits : Limits} {name : String} {outlines : List FieldOutline}
    {options : Mapping} {lexemes : List Lexeme} {text : String}
    (creates : CreatesBy limits.maxDepth name outlines options lexemes)
    (short : limits.checkLength text = .ok ()) (same : text = String.ofList (written lexemes)) :
    Creation limits name outlines options text := by
  refine ⟨short, lexemes, creates, ?_⟩
  rw [same, String.toList_ofList]
  exact layout_written (reads_createsBy creates).stand

/-- A collection is created with just the fields that are written, however they are
written. In particular, the order of the attributes of a field does not matter where at
most one of them is a description. -/
theorem read_fields {limits : Limits} {name : String} {outlines : List FieldOutline}
    {options : Mapping} {text : String} (creation : Creation limits name outlines options text) :
    limits.read text =
        .ok (.collection (.create ⟨name, outlines.map FieldOutline.definition, options⟩)) ∧
      ∀ others text', Creation limits name others options text' →
        List.Forall₂ (fun outline other => outline.Reordered other ∧
          outline.descriptions.length ≤ 1) outlines others →
        limits.read text' = limits.read text := by
  have read := read_creation creation
  refine ⟨read, fun others text' creation' reordered => ?_⟩
  have same : others.map FieldOutline.definition = outlines.map FieldOutline.definition := by
    rw [← List.forall₂_eq_eq_eq, List.forall₂_map_left_iff, List.forall₂_map_right_iff]
    exact reordered.flip.imp fun _ _ both => FieldOutline.definition_eq_of_reordered both.1 both.2
  rw [read, read_creation creation', same]

/-- Commas on either side, words in mixed case and an attribute given twice; and the same
field with its attributes in another order. -/
theorem read_fields_of_mixed_case :
    let type : FieldType := .array "VARCHAR" 8 (some 16)
    let outline : FieldOutline := ⟨"auto", type, [.autoId, .description "it's", .autoId]⟩
    let other : FieldOutline := ⟨"auto", type, [.description "it's", .autoId, .autoId]⟩
    let text := "create Collection t ( , auto varchar ( 16 ) Array ( 8 ) auto id description ( \"it's\" ) AUTO ID , ) ; "
    let text' := "create Collection t ( auto varchar ( 16 ) Array ( 8 ) description ( \"it's\" ) AUTO ID auto id ) ; "
    Creation {} "t" [outline] .empty text ∧ Creation {} "t" [other] .empty text' ∧
      ({} : Limits).read text = .ok (.collection (.create
        ⟨"t", [⟨"auto", type, false, false, true, false, some "it's"⟩], .empty⟩)) ∧
      ({} : Limits).read text' = ({} : Limits).read text := by
  intro type outline other text text'
  have word {spelling word : String} (checked : spelling.toList.head?.any isWordStart = true ∧
      spelling.toList.all isWordPart = true ∧ Text.upper spelling = word)
      (free : word ≠ "TRUE" ∧ word ≠ "FALSE" ∧ word ≠ "NULL") :
      IsSpelling spelling.toList word :=
    ⟨isWord_of_checked checked.1 checked.2.1, by rw [String.ofList_toList, checked.2.2], free⟩
  have create : IsSpelling "create".toList "CREATE" := word (by decide) (by decide)
  have collection : IsSpelling "Collection".toList "COLLECTION" := word (by decide) (by decide)
  have typed : type.SpelledBy (ofWord "varchar".toList :: (FieldType.sizeLexemes 16 ++
      ofWord "Array".toList :: FieldType.sizeLexemes 8)) :=
    .sizedArray (word (by decide) (by decide)) (FieldType.sizedBy_sizeLexemes 16)
      (word (by decide) (by decide)) (FieldType.sizedBy_sizeLexemes 8)
  have lower : FieldAttribute.SpelledBy .autoId [ofWord "auto".toList, ofWord "id".toList] :=
    .autoId (word (by decide) (by decide)) (word (by decide) (by decide))
  have upper : FieldAttribute.SpelledBy .autoId [ofWord "AUTO".toList, ofWord "ID".toList] :=
    .autoId (word (by decide) (by decide)) (word (by decide) (by decide))
  have described : FieldAttribute.SpelledBy (.description "it's")
      [ofWord "description".toList, ofOperator .openParen, between '"' "it's",
        ofOperator .closeParen] :=
    .description (word (by decide) (by decide)) (by decide) (by decide)
  have named (name : String) (checked : name.toList.head?.any isWordStart = true ∧
      name.toList.all isWordPart = true) (free : Text.upper name ≠ "TRUE" ∧
      Text.upper name ≠ "FALSE" ∧ Text.upper name ≠ "NULL")
      (unreserved : Keyword.ofWord? (Text.upper name) = none) : IsName name :=
    ⟨isWord_of_checked checked.1 checked.2, free, unreserved⟩
  have t : IsName "t" := named "t" (by decide) (by decide) (by decide)
  have auto : IsName "auto" := named "auto" (by decide) (by decide) (by decide)
  have clause : Reads (options 64) [] .empty EndsStatement :=
    (reads_no_options 64).weaken fun _ ends => ends.lacks (by simp)
  have creation {outlines : List FieldOutline} {lexemes : List Lexeme} {text : String}
      (written : CreatesBy 64 "t" outlines .empty lexemes)
      (same : text = String.ofList (Lexeme.written lexemes)) :
      Creation {} "t" outlines .empty text := by
    refine ⟨rfl, lexemes, written, ?_⟩
    rw [same, String.toList_ofList]
    exact layout_written (reads_createsBy written).stand
  have first : Creation {} "t" [outline] .empty text :=
    creation (.statement create collection t (.cons (.inr rfl) nofun
      (.field auto typed (.cons lower (.cons described (.cons upper .nil))))
      (.nil (.inr rfl))) clause) (by decide +kernel)
  have second : Creation {} "t" [other] .empty text' :=
    creation (.statement create collection t (.cons (.inl rfl) nofun
      (.field auto typed (.cons described (.cons upper (.cons lower .nil))))
      (.nil (.inl rfl))) clause) (by decide +kernel)
  have ⟨read, alike⟩ := read_fields first
  refine ⟨first, second, read, alike _ _ second (.cons ⟨⟨rfl, rfl, ?_⟩, by decide⟩ .nil)⟩
  exact List.Perm.swap ..

end Limits

end VectorQuery
