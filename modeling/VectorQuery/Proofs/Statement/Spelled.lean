import Mathlib.Data.List.Induction
import VectorQuery.Proofs.Statement.Written
import VectorQuery.Proofs.Token.Lexicon

/-! Field lists in every way in which they may be written: words in any letter case, sizes
in any spelling, attributes in any order and as often as there are, and commas left out
where the next word is no attribute. The written form of a field is one of these. -/
namespace VectorQuery

open Lexeme

namespace Lexeme

/-- An integer literal for this number. -/
structure IsNumber (lexeme : Lexeme) (number : Int64) : Prop where
  lexicon : Lexicon lexeme
  kind : lexeme.kind = .literal .integer
  value : readInteger? lexeme.text.toList = some number

theorem isNumber_ofInteger (number : Int64) : IsNumber (ofInteger number) number := by
  refine ⟨(stands_ofInteger number [] (by simp [Text.Apart])).lexicon, rfl, ?_⟩
  rw [ofInteger, String.toList_ofList, readInteger?_writeInteger]

end Lexeme

/-! Types. -/

namespace FieldType

/-- A number in round brackets. -/
inductive SizedBy (number : Int64) : List Lexeme → Prop
  | brackets {size : Lexeme} :
      size.IsNumber number → SizedBy number [ofOperator .openParen, size, ofOperator .closeParen]

/-- The shapes of a type. The word is kept in upper case. -/
inductive SpelledBy : FieldType → List Lexeme → Prop
  | scalar {name : String} {word : List Char} :
      IsSpelling word name → SpelledBy (.scalar name) [ofWord word]
  | sized {name : String} {word : List Char} {length : Int64} {size : List Lexeme} :
      IsSpelling word name → SizedBy length size →
        SpelledBy (.sized name length) (ofWord word :: size)
  | vector {element : String} {word container : List Char} {dimension : Int64}
      {size : List Lexeme} :
      IsSpelling word element → IsSpelling container "VECTOR" → SizedBy dimension size →
        SpelledBy (.vector element dimension) (ofWord word :: ofWord container :: size)
  | array {element : String} {word container : List Char} {capacity : Int64}
      {size : List Lexeme} :
      IsSpelling word element → element ≠ "VARCHAR" → IsSpelling container "ARRAY" →
        SizedBy capacity size →
        SpelledBy (.array element capacity none) (ofWord word :: ofWord container :: size)
  | sizedArray {element : String} {word container : List Char} {length capacity : Int64}
      {size size' : List Lexeme} :
      IsSpelling word element → SizedBy length size → IsSpelling container "ARRAY" →
        SizedBy capacity size' →
        SpelledBy (.array element capacity (some length))
          (ofWord word :: (size ++ ofWord container :: size'))

end FieldType

/-! Attributes. -/

namespace FieldAttribute

inductive SpelledBy : FieldAttribute → List Lexeme → Prop
  | primaryKey {first second : List Char} :
      IsSpelling first "PRIMARY" → IsSpelling second "KEY" →
        SpelledBy .primaryKey [ofWord first, ofWord second]
  | partitionKey {first second : List Char} :
      IsSpelling first "PARTITION" → IsSpelling second "KEY" →
        SpelledBy .partitionKey [ofWord first, ofWord second]
  | autoId {first second : List Char} :
      IsSpelling first "AUTO" → IsSpelling second "ID" →
        SpelledBy .autoId [ofWord first, ofWord second]
  | dynamic {word : List Char} : IsSpelling word "DYNAMIC" → SpelledBy .dynamic [ofWord word]
  | description {word : List Char} {quote : Char} {text : String} :
      IsSpelling word "DESCRIPTION" → isQuote quote = true → quote ∉ text.toList →
        SpelledBy (.description text)
          [ofWord word, ofOperator .openParen, between quote text, ofOperator .closeParen]

def description? : FieldAttribute → Option String
  | .description text => some text
  | _ => none

end FieldAttribute

/-! Fields. -/

/-- A field as it is given: its attributes in order, with repetitions. -/
structure FieldOutline where
  name : String
  type : FieldType
  attributes : List FieldAttribute

namespace FieldOutline

def descriptions (outline : FieldOutline) : List String :=
  outline.attributes.filterMap FieldAttribute.description?

/-- The field that is meant: a flag is set where its attribute occurs, and the last
description counts. -/
def definition (outline : FieldOutline) : FieldDefinition where
  name := outline.name
  type := outline.type
  isPrimary := decide (.primaryKey ∈ outline.attributes)
  isPartitionKey := decide (.partitionKey ∈ outline.attributes)
  autoId := decide (.autoId ∈ outline.attributes)
  isDynamic := decide (.dynamic ∈ outline.attributes)
  description := outline.descriptions.getLast?

inductive SpelledBy : FieldOutline → List Lexeme → Prop
  | field {outline : FieldOutline} {type : List Lexeme} {attributes : List (List Lexeme)} :
      IsName outline.name → outline.type.SpelledBy type →
        List.Forall₂ FieldAttribute.SpelledBy outline.attributes attributes →
        SpelledBy outline (ofName outline.name :: (type ++ attributes.flatten))

/-- In front of this name, a comma tells a field from an attribute of the last one. -/
def NeedsComma (outline : FieldOutline) : Prop :=
  Text.upper outline.name ∈ ["PRIMARY", "AUTO", "DYNAMIC", "DESCRIPTION"]

/-- Fields and the bracket behind them. Each gap holds a comma or none: the one in front of
the first field, those between fields, and the one in front of the bracket. Only behind
another field may a comma be needed. -/
inductive ListedBy : Bool → List FieldOutline → List Lexeme → Prop
  | nil {behind : Bool} {separator : List Lexeme} :
      IsSeparator separator → ListedBy behind [] (separator ++ [ofOperator .closeParen])
  | cons {behind : Bool} {outline : FieldOutline} {outlines : List FieldOutline}
      {separator first others : List Lexeme} :
      IsSeparator separator → (behind = true → outline.NeedsComma → separator = [comma]) →
        outline.SpelledBy first → ListedBy true outlines others →
        ListedBy behind (outline :: outlines) (separator ++ (first ++ others))

/-- The same field with its attributes in another order. -/
structure Reordered (outline other : FieldOutline) : Prop where
  name : other.name = outline.name
  type : other.type = outline.type
  attributes : other.attributes.Perm outline.attributes

/-- Attributes are added one by one, so the induction adds the last one. -/
theorem foldl_add (outline : FieldOutline) :
    outline.attributes.foldl FieldDefinition.add
      ⟨outline.name, outline.type, false, false, false, false, none⟩ = outline.definition := by
  obtain ⟨name, type, attributes⟩ := outline
  induction attributes using List.reverseRecOn with
  | nil => rfl
  | append_singleton attributes last ih =>
    simp only [] at ih
    rw [List.foldl_append, ih, List.foldl_cons, List.foldl_nil]
    cases last <;>
      simp [definition, FieldDefinition.add, descriptions, FieldAttribute.description?]

/-- With one description at most, the order of the attributes does not matter. -/
theorem definition_eq_of_reordered {outline other : FieldOutline}
    (reordered : outline.Reordered other) (single : outline.descriptions.length ≤ 1) :
    other.definition = outline.definition := by
  obtain ⟨name, type, attributes⟩ := reordered
  have descriptions : other.descriptions = outline.descriptions := by
    have same : other.descriptions.Perm outline.descriptions := attributes.filterMap _
    cases found : outline.descriptions with
    | nil => exact (found ▸ same).eq_nil
    | cons text texts =>
      obtain rfl : texts = [] := by simpa [found] using single
      exact List.perm_singleton.mp (found ▸ same)
  simp only [definition, name, type, descriptions, attributes.mem_iff]

end FieldOutline

/-! The written form. -/

namespace FieldType

theorem sizedBy_sizeLexemes (number : Int64) : SizedBy number (sizeLexemes number) :=
  .brackets (isNumber_ofInteger number)

end FieldType

theorem isSpelling_of_checked {spelling word : String}
    (checked : spelling.toList.head?.any isWordStart = true ∧
      spelling.toList.all isWordPart = true ∧ Text.upper spelling = word)
    (free : word ≠ "TRUE" ∧ word ≠ "FALSE" ∧ word ≠ "NULL") : IsSpelling spelling.toList word :=
  ⟨isWord_of_checked checked.1 checked.2.1, by rw [String.ofList_toList, checked.2.2], free⟩

theorem isTypeWord_of_checked {name : String} (checked : name.toList.head?.any isWordStart = true ∧
    name.toList.all isWordPart = true ∧ Text.upper name = name)
    (free : name ≠ "TRUE" ∧ name ≠ "FALSE" ∧ name ≠ "NULL") : IsTypeWord name :=
  ⟨isWord_of_checked checked.1 checked.2.1, checked.2.2, free⟩

theorem isTypeWord_key : IsTypeWord "KEY" := isTypeWord_of_checked (by decide) (by decide)
theorem isTypeWord_id : IsTypeWord "ID" := isTypeWord_of_checked (by decide) (by decide)
theorem isTypeWord_primary : IsTypeWord "PRIMARY" := isTypeWord_of_checked (by decide) (by decide)
theorem isTypeWord_partition : IsTypeWord "PARTITION" :=
  isTypeWord_of_checked (by decide) (by decide)
theorem isTypeWord_auto : IsTypeWord "AUTO" := isTypeWord_of_checked (by decide) (by decide)
theorem isTypeWord_dynamic : IsTypeWord "DYNAMIC" := isTypeWord_of_checked (by decide) (by decide)
theorem isTypeWord_description : IsTypeWord "DESCRIPTION" :=
  isTypeWord_of_checked (by decide) (by decide)
theorem isTypeWord_vector : IsTypeWord "VECTOR" := isTypeWord_of_checked (by decide) (by decide)
theorem isTypeWord_array : IsTypeWord "ARRAY" := isTypeWord_of_checked (by decide) (by decide)

theorem FieldType.spelledBy_lexemes {type : FieldType} (wellFormed : type.WellFormed) :
    type.SpelledBy type.lexemes := by
  cases type with
  | scalar name => exact .scalar (isSpelling_self wellFormed)
  | sized name length => exact .sized (isSpelling_self wellFormed) (sizedBy_sizeLexemes length)
  | vector element dimension =>
    exact .vector (isSpelling_self wellFormed) (isSpelling_self isTypeWord_vector)
      (sizedBy_sizeLexemes dimension)
  | array element capacity length =>
    have container := isSpelling_self isTypeWord_array
    cases length with
    | none =>
      exact .array (isSpelling_self wellFormed.1) wellFormed.2 container
        (sizedBy_sizeLexemes capacity)
    | some length =>
      exact .sizedArray (isSpelling_self wellFormed) (sizedBy_sizeLexemes length) container
        (sizedBy_sizeLexemes capacity)

theorem FieldAttribute.spelledBy_lexemes (found : FieldAttribute)
    (lacks : ∀ text, found = .description text → LacksQuote text) :
    found.SpelledBy found.lexemes := by
  have key := isSpelling_self isTypeWord_key
  cases found with
  | primaryKey => exact .primaryKey (isSpelling_self isTypeWord_primary) key
  | partitionKey => exact .partitionKey (isSpelling_self isTypeWord_partition) key
  | autoId =>
    exact .autoId (isSpelling_self isTypeWord_auto) (isSpelling_self isTypeWord_id)
  | dynamic => exact .dynamic (isSpelling_self isTypeWord_dynamic)
  | description text =>
    obtain ⟨quotes, absent⟩ := quoteFor_spec (lacks text rfl)
    exact .description (isSpelling_self isTypeWord_description) quotes absent

namespace FieldDefinition

/-- The field with each of its attributes once. -/
def outline (field : FieldDefinition) : FieldOutline :=
  ⟨field.name, field.type, field.attributes⟩

theorem definition_outline (field : FieldDefinition) : field.outline.definition = field := by
  obtain ⟨name, type, primary, partition, auto, dynamic, _ | description⟩ := field <;>
    cases primary <;> cases partition <;> cases auto <;> cases dynamic <;> rfl

theorem description_of_attributes {field : FieldDefinition} {text : String}
    (inside : .description text ∈ field.attributes) : field.description = some text := by
  obtain ⟨name, type, primary, partition, auto, dynamic, _ | description⟩ := field <;>
    cases primary <;> cases partition <;> cases auto <;> cases dynamic <;>
    simp_all [attributes]

theorem spelledBy_lexemes {field : FieldDefinition} (wellFormed : field.WellFormed) :
    field.outline.SpelledBy field.lexemes := by
  have spelled : List.Forall₂ FieldAttribute.SpelledBy field.attributes
      (field.attributes.map FieldAttribute.lexemes) := by
    rw [List.forall₂_map_right_iff, List.forall₂_same]
    intro found inside
    apply found.spelledBy_lexemes
    rintro text rfl
    exact wellFormed.description text (description_of_attributes inside)
  exact .field wellFormed.name (FieldType.spelledBy_lexemes wellFormed.type) spelled

/-- Commas between fields, and none elsewhere. -/
theorem listedBy_lexemes {fields : List FieldDefinition}
    (wellFormed : ∀ field ∈ fields, field.WellFormed) :
    FieldOutline.ListedBy false (fields.map outline)
      (separatedBy [] lexemes fields ++ [ofOperator .closeParen]) := by
  have listed : ∀ behind separator, IsSeparator separator →
      (behind = true → separator = [comma]) →
      FieldOutline.ListedBy behind (fields.map outline)
        (separatedBy separator lexemes fields ++ [ofOperator .closeParen]) := by
    induction fields with
    | nil => exact fun _ _ _ _ => .nil (.inl rfl)
    | cons field fields ih =>
      intro behind separator isSeparator needed
      obtain ⟨first, others⟩ := List.forall_mem_cons.mp wellFormed
      rw [separatedBy, List.append_assoc, List.append_assoc]
      exact .cons isSeparator (fun found _ => needed found) (spelledBy_lexemes first)
        (ih others true [comma] (.inr rfl) fun _ => rfl)
  exact listed false [] (.inl rfl) nofun

end FieldDefinition

end VectorQuery
