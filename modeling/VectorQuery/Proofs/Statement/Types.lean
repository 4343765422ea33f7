import VectorQuery.Proofs.Command.Fields
import VectorQuery.Proofs.Statement.Creation
import VectorQuery.Proofs.Statement.Regular

/-! The types of the fields of a collection. Every type that is read stands behind the name of
its field in one of the shapes of a type, and every list of fields in these shapes is read. The
shapes let an array of any elements have a length, where one of VARCHAR must have it. -/
namespace VectorQuery

open Lexeme Grammar

/-- The token of a lexeme of the lexicon. -/
def Token.Known (token : Token) : Prop :=
  ∃ lexeme, Lexicon lexeme ∧ token.kind = lexeme.kind ∧ token.text = lexeme.text

namespace Token.Known

variable {token : Token} (known : token.Known)
include known

theorem spells_operator {symbol : Operator} (kind : token.kind = .operator symbol) :
    Spells [ofOperator symbol] [token] := by
  obtain ⟨lexeme, lexicon, same, text⟩ := known
  rw [kind] at same
  cases lexicon with
  | operator found =>
    obtain rfl : symbol = found := TokenKind.operator.inj same
    exact .cons ⟨kind, text⟩ .nil
  | _ => contradiction

/-- A bare word is a spelling of its text in upper case, be it reserved or not. -/
theorem spells_word (bare : token.kind.isWord = true) :
    ∃ spelling, IsSpelling spelling (Text.upper token.text) ∧ Spells [ofWord spelling] [token] := by
  obtain ⟨lexeme, lexicon, kind, text⟩ := known
  rw [kind] at bare
  cases lexicon with
  | @keyword keyword spelling same =>
    have upper : Text.upper token.text = keyword.word := by rw [text, keyword.upper_word]
    refine ⟨spelling, ⟨?_, same.trans upper.symm, upper ▸ keyword.word_free⟩, ?_⟩
    · exact isWord_of_upper same (isWord_keyword keyword)
    · rw [ofWord_of_keyword same]
      exact .cons ⟨kind, text⟩ .nil
  | @name name isName =>
    have upper : Text.upper token.text = Text.upper name := by rw [text]; rfl
    refine ⟨name.toList, ⟨isName.word, ?_, upper ▸ isName.free⟩, ?_⟩
    · rw [String.ofList_toList, upper]
    · rw [ofWord_of_isName isName]
      exact .cons ⟨kind, text⟩ .nil
  | _ => contradiction

theorem spells_number (kind : token.kind = .literal .integer) {number : Int64}
    (value : readInteger? token.text.toList = some number) :
    ∃ lexeme, lexeme.IsNumber number ∧ Spells [lexeme] [token] := by
  obtain ⟨lexeme, lexicon, same, text⟩ := known
  exact ⟨lexeme, ⟨lexicon, same ▸ kind, text ▸ value⟩, .cons ⟨same, text⟩ .nil⟩

end Token.Known

/-- The tokens are those of some way to write the type. -/
def FieldType.WrittenAs (type : FieldType) (tokens : List Token) : Prop :=
  ∃ lexemes, type.SpelledBy lexemes ∧ Spells lexemes tokens

/-- Somewhere among the tokens, the type of the field stands behind its name. -/
def FieldDefinition.DeclaredIn (field : FieldDefinition) (tokens : List Token) : Prop :=
  ∃ name type, name :: type <:+: tokens ∧ name.kind = .identifier ∧ name.text = field.name ∧
    field.type.WrittenAs type

/-- An array has a length exactly where its elements are of VARCHAR. -/
def FieldType.Measured : FieldType → Prop
  | .array element _ length => length.isSome = true ↔ element = "VARCHAR"
  | _ => True

namespace Grammar

section
variable {tokens rest : List Token} (known : ∀ token ∈ tokens, token.Known)
include known

theorem typeWord_spelled {name : String} (read : typeWord tokens = .ok (name, rest)) :
    ∃ token spelling, tokens = token :: rest ∧ IsSpelling spelling name ∧
      Spells [ofWord spelling] [token] := by
  obtain ⟨token, rfl, meaning⟩ := take_ok_iff.mp read
  obtain ⟨bare, same⟩ := Option.ite_none_right_eq_some.mp meaning
  obtain rfl := Option.some.inj same
  obtain ⟨spelling, spelled, spells⟩ := (known token List.mem_cons_self).spells_word bare
  exact ⟨token, spelling, rfl, spelled, spells⟩

theorem size_spelled {number : Int64} (read : size tokens = .ok (number, rest)) :
    ∃ phrase lexemes, tokens = phrase ++ rest ∧ FieldType.SizedBy number lexemes ∧
      Spells lexemes phrase := by
  obtain ⟨opening, closing, behind, rfl, opens, inner, closes⟩ := bracketed_ok_iff.mp read
  obtain ⟨token, rfl, meaning⟩ := take_ok_iff.mp inner
  obtain ⟨kind, value⟩ := Option.ite_none_right_eq_some.mp meaning
  obtain ⟨lexeme, isNumber, spells⟩ := (known token (by simp)).spells_number kind value
  refine ⟨[opening, token, closing], _, rfl, .brackets isNumber, ?_⟩
  have front := (known opening (by simp)).spells_operator opens
  have back := (known closing (by simp)).spells_operator closes
  exact List.rel_append front (List.rel_append spells back)

end

/-- A container that is read, with the number behind it. -/
theorem container_spelled {word : String} (upper : Text.upper word = word) {container : Token}
    {tokens rest : List Token} (known : ∀ token ∈ container :: tokens, token.Known)
    (same : container.isWord word = true) {number : Int64}
    (sized : size tokens = .ok (number, rest)) :
    ∃ phrase spelling lexemes, tokens = phrase ++ rest ∧ IsSpelling spelling word ∧
      FieldType.SizedBy number lexemes ∧ Spells (ofWord spelling :: lexemes) (container :: phrase) := by
  obtain ⟨isContainer, others⟩ := List.forall_mem_cons.mp known
  obtain ⟨phrase, lexemes, split, written, within⟩ := size_spelled others sized
  obtain ⟨bare, alike⟩ := Bool.and_eq_true_iff.mp same
  have text : Text.upper container.text = word := (eq_of_beq alike).trans upper
  obtain ⟨spelling, spelled, spells⟩ := isContainer.spells_word bare
  exact ⟨phrase, spelling, lexemes, split, text ▸ spelled, written, List.rel_append spells within⟩

theorem peekContainer_apply (tokens : List Token) :
    peekContainer tokens = .ok (containerFollows tokens, tokens) := rfl

/-- What is read as a type is written in one of its shapes. -/
theorem fieldType_written {tokens rest : List Token} {type : FieldType}
    (known : ∀ token ∈ tokens, token.Known) (read : fieldType tokens = .ok (type, rest)) :
    ∃ phrase, tokens = phrase ++ rest ∧ type.WrittenAs phrase := by
  obtain ⟨name, behind, named, opened⟩ := bind_ok_iff.mp read
  obtain ⟨token, spelling, rfl, spelled, spells⟩ := typeWord_spelled known named
  obtain ⟨-, known⟩ := List.forall_mem_cons.mp known
  rw [bind_of_ok (peek_apply behind)] at opened
  split at opened
  -- A size is read at once, and a container behind it only if it has one too.
  · obtain ⟨length, behind, sized, contained⟩ := bind_ok_iff.mp opened
    obtain ⟨phrase, size, rfl, written, within⟩ := size_spelled known sized
    rw [bind_of_ok (peekContainer_apply behind)] at contained
    split at contained
    · obtain ⟨_, behind, named, numbered⟩ := bind_ok_iff.mp contained
      obtain ⟨container, rfl, meaning⟩ := take_ok_iff.mp named
      obtain ⟨same, -⟩ := Option.ite_none_right_eq_some.mp meaning
      obtain ⟨capacity, counted, rfl⟩ := map_ok_iff.mp numbered
      obtain ⟨others, word, size', rfl, array, written', finish⟩ :=
        container_spelled (by decide) (List.forall_mem_append.mp known).2 same counted
      exact ⟨token :: (phrase ++ container :: others), by simp, _,
        .sizedArray spelled written array written', List.rel_append spells (List.rel_append within finish)⟩
    · obtain ⟨rfl, rfl⟩ := pure_ok_iff.mp contained
      exact ⟨token :: phrase, rfl, _, .sized spelled written, List.rel_append spells within⟩
  -- Without a size, the container is compared only behind its number.
  · rw [bind_of_ok (peekContainer_apply behind)] at opened
    split at opened
    · obtain ⟨container, behind, named, numbered⟩ := bind_ok_iff.mp opened
      obtain rfl := token_ok_iff.mp named
      obtain ⟨number, later, sized, told⟩ := bind_ok_iff.mp numbered
      split at told
      next same =>
        obtain ⟨phrase, word, size, rfl, vector, written, finish⟩ :=
          container_spelled (by decide) known same sized
        obtain ⟨rfl, rfl⟩ := pure_ok_iff.mp told
        exact ⟨token :: container :: phrase, rfl, _, .vector spelled vector written,
          List.rel_append spells finish⟩
      next =>
        split at told
        next found =>
          obtain ⟨same, differs⟩ := Bool.and_eq_true_iff.mp found
          obtain ⟨phrase, word, size, rfl, array, written, finish⟩ :=
            container_spelled (by decide) known same sized
          obtain ⟨rfl, rfl⟩ := pure_ok_iff.mp told
          exact ⟨token :: container :: phrase, rfl, _,
            .array spelled (by simpa using differs) array written, List.rel_append spells finish⟩
        next => contradiction
    · obtain ⟨rfl, rfl⟩ := pure_ok_iff.mp opened
      exact ⟨[token], rfl, _, .scalar spelled, spells⟩

/-! Fields, and the statement that has them. -/

section
variable {whole : List Token} (known : ∀ token ∈ whole, token.Known)
include known

theorem field_declared : Draws whole field fun field => field.DeclaredIn whole := by
  intro tokens value rest within read
  refine ⟨(taking_of_agree True (fun _ => field_agree) read).trans within, ?_⟩
  obtain ⟨name, behind, named, told⟩ := bind_ok_iff.mp read
  obtain ⟨token, rfl, kind, rfl⟩ := identifier_ok_iff.mp named
  obtain ⟨type, middle, typed, attributed⟩ := bind_ok_iff.mp told
  obtain ⟨attributes, -, rfl⟩ := map_ok_iff.mp attributed
  have inside : ∀ token ∈ behind, token.Known := fun token member =>
    known token (within.subset (List.mem_cons_of_mem _ member))
  obtain ⟨phrase, rfl, written⟩ := fieldType_written inside typed
  have ⟨sameName, sameType⟩ := add_name_type { name := token.text, type } attributes
  refine ⟨token, phrase, ?_, kind, sameName.symm, sameType ▸ written⟩
  exact (List.prefix_append (token :: phrase) middle).isInfix.trans within.isInfix

theorem fields_declared : Draws whole fields fun fields => ∀ field ∈ fields, field.DeclaredIn whole := by
  refine then_draws (take_taking _) fun _ => many_draws nextField_advancing.consuming ?_
  refine then_draws (accept_taking _) fun _ => accept_draws (pure_draws (by simp)) ?_
  exact bind_draws (field_declared known) fun field declared => pure_draws (by simpa using declared)

end

end Grammar

/-- The fields of a collection that is created. -/
def Command.definitions : Command → List FieldDefinition
  | .collection (.create created) => created.fields
  | _ => []

theorem Command.definitions_of_isBare {command : Command} (bare : command.isBare = true) :
    command.definitions = [] := by
  cases command with
  | collection command =>
    cases command with
    | create => contradiction
    | _ => rfl
  | _ => rfl

namespace Grammar

section
variable {whole tokens rest : List Token} {levels : Nat} {read : Command}

theorem declared_of_yields {rule : Rule Command} (success : rule tokens = .ok (read, rest))
    (yields : Yields rule fun read => read.definitions = []) :
    ∀ field ∈ read.definitions, field.DeclaredIn whole := by
  simp [yields success]

theorem definitionless_of_isBare {rule : Rule Command} (yields : Yields rule fun read => read.isBare) :
    Yields rule fun read => read.definitions = [] :=
  yields.weaken Command.definitions_of_isBare

variable (known : ∀ token ∈ whole, token.Known)
include known

theorem createCollection_declared : Draws whole (createCollection levels) fun collection =>
    ∀ field ∈ collection.fields, field.DeclaredIn whole := by
  refine then_draws (take_taking _) fun name => ?_
  refine bind_draws (fields_declared known) fun fields declared => ?_
  exact bind_draws options_regular fun options _ => pure_draws declared

theorem create_declared (within : tokens <:+ whole)
    (success : create levels tokens = .ok (read, rest)) :
    ∀ field ∈ read.definitions, field.DeclaredIn whole := by
  rcases accept_bind_ok_iff.mp success with ⟨_, _, rfl, -, database⟩ | ⟨-, others⟩
  · exact declared_of_yields database (then_yields fun _ => pure_yields rfl)
  rcases accept_bind_ok_iff.mp others with ⟨_, behind, rfl, -, found⟩ | ⟨-, others⟩
  · obtain ⟨collection, created, rfl⟩ := map_ok_iff.mp found
    have within := (List.suffix_cons _ behind).trans within
    exact (createCollection_declared known within created).2
  · refine declared_of_yields others (accept_yields (bind_yields createAlias_yields ?_) ?_)
    · exact fun _ bare => pure_yields (Command.definitions_of_isBare bare)
    refine accept_yields (then_yields fun _ => pure_yields rfl) ?_
    exact accept_yields (then_yields fun _ => pure_yields rfl) refuse_yields

/-- Only behind `CREATE COLLECTION` there are fields. -/
theorem command_declared :
    Draws whole (command levels) fun read => ∀ field ∈ read.definitions, field.DeclaredIn whole := by
  intro tokens read rest within success
  refine ⟨(command_taking success).trans within, ?_⟩
  rcases accept_bind_ok_iff.mp success with ⟨_, behind, rfl, -, created⟩ | ⟨-, others⟩
  · exact create_declared known ((List.suffix_cons _ behind).trans within) created
  refine declared_of_yields others (accept_yields (definitionless_of_isBare drop_yields) ?_)
  refine accept_yields (definitionless_of_isBare showAll_yields) (accept_yields ?_ ?_)
  · refine accept_yields ?_ (accept_yields ?_ refuse_yields)
    · exact then_yields fun _ => then_yields fun _ => pure_yields rfl
    · exact then_yields fun _ => then_yields fun _ => then_yields fun _ => then_yields fun _ =>
        pure_yields rfl
  refine accept_yields (definitionless_of_isBare release_yields) ?_
  refine accept_yields (then_yields fun _ => pure_yields rfl) ?_
  refine accept_yields (definitionless_of_isBare rename_yields) ?_
  refine accept_yields (definitionless_of_isBare compact_yields) ?_
  iterate 4 refine accept_yields (then_yields fun _ => pure_yields rfl) ?_
  refine accept_yields ?_ refuse_yields
  refine then_yields fun _ => then_yields fun _ => then_yields fun _ => then_yields fun _ => ?_
  refine then_yields fun _ => choice_yields ?_ ?_
  · exact then_yields fun _ => pure_yields rfl
  · exact then_yields fun _ => pure_yields rfl

end

end Grammar

namespace FieldType

/-- An array of VARCHAR has a length in every shape. -/
theorem WrittenAs.isSome_length {type : FieldType} {tokens : List Token}
    (written : type.WrittenAs tokens) {capacity : Int64} {length : Option Int64}
    (array : type = .array "VARCHAR" capacity length) : length.isSome = true := by
  subst array
  obtain ⟨lexemes, spelled, -⟩ := written
  cases spelled with
  | array _ differs => exact absurd rfl differs
  | sizedArray => rfl

theorem WrittenAs.measured_iff {type : FieldType} {tokens : List Token}
    (written : type.WrittenAs tokens) :
    type.Measured ↔
      ∀ element capacity length, type = .array element capacity (some length) → element = "VARCHAR" := by
  constructor
  · rintro measured element capacity length rfl
    exact measured.mp rfl
  · intro lengths
    cases type with
    | array element capacity length =>
      constructor
      · intro filled
        obtain ⟨length, rfl⟩ := Option.isSome_iff_exists.mp filled
        exact lengths element capacity length rfl
      · rintro rfl
        exact written.isSome_length rfl
    | _ => trivial

end FieldType

namespace Limits

/-- The types that are read are those in one of the five shapes. An array of VARCHAR always has a
length, and so an array has a length exactly where it is one of VARCHAR, unless some array of
other elements is given one: such a type is read as well. -/
theorem read_types (limits : Limits) :
    (∀ text collection, limits.read text = .ok (.collection (.create collection)) →
      ∃ tokens, Token.sequence text = .ok tokens ∧
        (∀ field ∈ collection.fields, field.DeclaredIn tokens) ∧
        (∀ field ∈ collection.fields, ∀ capacity length,
          field.type = .array "VARCHAR" capacity length → length.isSome = true) ∧
        ((∀ field ∈ collection.fields, field.type.Measured) ↔
          ∀ field ∈ collection.fields, ∀ element capacity length,
            field.type = .array element capacity (some length) → element = "VARCHAR")) ∧
    ∀ name outlines options text, Creation limits name outlines options text →
      limits.read text =
        .ok (.collection (.create ⟨name, outlines.map FieldOutline.definition, options⟩)) := by
  refine ⟨fun text collection read => ?_, fun name outlines options text => read_creation⟩
  obtain ⟨-, tokens, split, success⟩ := Grammar.read_ok_iff.mp read
  have declared : ∀ field ∈ collection.fields, field.DeclaredIn tokens :=
    readTokens_draws (command_declared (Token.sequence_lexicon split)) success
  refine ⟨tokens, split, declared, fun field inside capacity length array => ?_, ?_⟩
  · obtain ⟨_, _, -, -, -, written⟩ := declared field inside
    exact written.isSome_length array
  · refine forall₂_congr fun field inside => ?_
    obtain ⟨_, _, -, -, -, written⟩ := declared field inside
    exact written.measured_iff

/-- Words in mixed case and no comma: an array of numbers is given a length like one of VARCHAR. -/
theorem read_types_of_two_lengths :
    let numbers : FieldOutline := ⟨"a", .array "INT32" 8 (some 4), []⟩
    let texts : FieldOutline := ⟨"b", .array "VARCHAR" 8 (some 16), []⟩
    let text := "create Collection t ( a int32 ( 4 ) Array ( 8 ) b VarChar ( 16 ) ARRAY ( 8 ) ) ; "
    Creation {} "t" [numbers, texts] .empty text ∧
      ({} : Limits).read text = .ok (.collection (.create
        ⟨"t", [numbers.definition, texts.definition], .empty⟩)) ∧
      (∃ tokens, Token.sequence text = .ok tokens ∧ numbers.definition.DeclaredIn tokens ∧
        texts.definition.DeclaredIn tokens) ∧
      ¬numbers.type.Measured ∧ texts.type.Measured := by
  intro numbers texts text
  have create : IsSpelling "create".toList "CREATE" := isSpelling_of_checked (by decide) (by decide)
  have collection : IsSpelling "Collection".toList "COLLECTION" :=
    isSpelling_of_checked (by decide) (by decide)
  have number : IsSpelling "int32".toList "INT32" := isSpelling_of_checked (by decide) (by decide)
  have varchar : IsSpelling "VarChar".toList "VARCHAR" :=
    isSpelling_of_checked (by decide) (by decide)
  have array : IsSpelling "Array".toList "ARRAY" := isSpelling_of_checked (by decide) (by decide)
  have sized := FieldType.sizedBy_sizeLexemes
  have first : numbers.SpelledBy _ := .field (isName_of_checked (by decide))
    (.sizedArray number (sized 4) array (sized 8)) .nil
  have second : texts.SpelledBy _ := .field (isName_of_checked (by decide))
    (.sizedArray varchar (sized 16) (isSpelling_self isTypeWord_array) (sized 8)) .nil
  have bare : ¬texts.NeedsComma := by simp [FieldOutline.NeedsComma, texts, Text.upper]
  have listed : FieldOutline.ListedBy false [numbers, texts] _ :=
    .cons (.inl rfl) (fun behind => absurd behind Bool.false_ne_true) first
      (.cons (.inl rfl) (fun _ needed => absurd needed bare) second (.nil (.inl rfl)))
  have clause : Reads (options 64) [] .empty EndsStatement :=
    (reads_no_options 64).weaken fun _ ends => ends.lacks (by simp)
  have creation : Creation {} "t" [numbers, texts] .empty text :=
    creation_of_written (.statement create collection (isName_of_checked (by decide)) listed clause)
      rfl (by decide +kernel)
  obtain ⟨sound, complete⟩ := read_types {}
  have read := complete _ _ _ _ creation
  obtain ⟨tokens, split, declared, -⟩ := sound text _ read
  refine ⟨creation, read, ⟨tokens, split, declared _ (by simp), declared _ (by simp)⟩, ?_, ?_⟩
  · intro only
    exact absurd (only.mp rfl) (by decide)
  · exact iff_of_true rfl rfl

/-- The array of numbers has a length, although only one of VARCHAR is meant to have it. -/
theorem length_of_numbers :
    let text := "create collection t (a INT32(4) ARRAY(8));"
    let field : FieldDefinition := { name := "a", type := .array "INT32" 8 (some 4) }
    ({} : Limits).read text = .ok (.collection (.create ⟨"t", [field], .empty⟩)) ∧
      ¬∀ text collection, ({} : Limits).read text = .ok (.collection (.create collection)) →
        ∀ field ∈ collection.fields, field.type.Measured := by
  intro text field
  have read : ({} : Limits).read text = .ok (.collection (.create ⟨"t", [field], .empty⟩)) := by
    decide +kernel
  refine ⟨read, fun measured => ?_⟩
  have same : (some (4 : Int64)).isSome = true ↔ "INT32" = "VARCHAR" :=
    measured text _ read field List.mem_cons_self
  exact absurd (same.mp rfl) (by decide)

end Limits

end VectorQuery
