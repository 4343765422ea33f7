import VectorQuery.Proofs.Grammar.Progress
import VectorQuery.Proofs.Grammar.Reads
import VectorQuery.Proofs.Statement.Spelled

/-! Fields read back from every way to write them. A type ends where neither a bracket nor
a container follows, and attributes end where no word of an attribute follows. -/
namespace VectorQuery.Grammar
open Lexeme

variable {α β : Type}

/-! Words. -/

section
variable {expected : String} {spelling : List Char} {lexemes : List Lexeme} {value : α}
  {before : List Token → Prop}

theorem isWord_of_spelled (spelled : IsSpelling spelling expected) {token : Token}
    (kind : token.kind = (ofWord spelling).kind) (text : token.text = (ofWord spelling).text)
    (other : String) : token.isWord other = (expected == Text.upper other) := by
  obtain ⟨bare, same⟩ := ofWord_of_isSpelling spelled
  simp only [Token.isWord, kind, bare, text, same, Bool.true_and, Text.equalIgnoringCase]

theorem isWord_expected (spelled : IsSpelling spelling expected) {token : Token}
    (kind : token.kind = (ofWord spelling).kind) (text : token.text = (ofWord spelling).text) :
    token.isWord expected = true := by
  rw [isWord_of_spelled spelled kind text, ← spelled.upper, upper_upper, beq_self_eq_true]

theorem reads_typeWord (spelled : IsSpelling spelling expected) :
    Reads typeWord [ofWord spelling] expected Anything := by
  obtain ⟨bare, same⟩ := ofWord_of_isSpelling spelled
  refine reads_take (stands_ofWord spelled.isWord) fun token kind text => ?_
  rw [kind, if_pos bare, text, same]

theorem reads_word (spelled : IsSpelling spelling expected) :
    Reads (word expected) [ofWord spelling] () Anything :=
  reads_take (stands_ofWord spelled.isWord) fun _ kind text =>
    if_pos (isWord_expected spelled kind text)

theorem reads_acceptWord {yes no : Rule α} (spelled : IsSpelling spelling expected)
    (reads : Reads yes lexemes value before) :
    Reads (acceptWord expected >>= fun found => if found = true then yes else no)
      (ofWord spelling :: lexemes) value before := by
  refine ⟨List.forall_mem_cons.mpr ⟨stands_ofWord spelled.isWord, reads.stand⟩, ?_⟩
  intro tokens spells rest held
  obtain ⟨token, behind, rfl, kind, text, finish⟩ := spells.cons_cases
  have found := isWord_expected spelled kind text
  have accepted : acceptWord expected (token :: behind ++ rest) = .ok (true, behind ++ rest) := by
    rw [acceptWord, bind_of_ok (next?_apply _)]
    simp only [List.cons_append, List.head?_cons, Option.any_some, found, if_true]
    rw [bind_of_ok (token_ok_iff.mpr rfl), pure_apply]
  rw [bind_of_ok accepted]
  exact reads.reads finish rest held

theorem acceptWord_of_other {expected : String} {tokens : List Token}
    (other : tokens.head?.any (·.isWord expected) = false) :
    acceptWord expected tokens = .ok (false, tokens) := by
  rw [acceptWord, bind_of_ok (next?_apply _), other]
  rfl

theorem reads_acceptWord_skip {found : String} {yes no : Rule α}
    (spelled : IsSpelling spelling found) (differs : (found == Text.upper expected) = false)
    (reads : Reads no (ofWord spelling :: lexemes) value before) :
    Reads (acceptWord expected >>= fun found => if found = true then yes else no)
      (ofWord spelling :: lexemes) value before := by
  refine ⟨reads.stand, fun tokens spells rest held => ?_⟩
  have step := reads.reads spells rest held
  obtain ⟨token, behind, rfl, kind, text, -⟩ := spells.cons_cases
  have other : (token :: behind ++ rest).head?.any (·.isWord expected) = false := by
    simpa [isWord_of_spelled spelled kind text] using differs
  rw [bind_of_ok (acceptWord_of_other other)]
  exact step

theorem ofWord_kind_ne (spelled : IsSpelling spelling expected) (symbol : Operator) :
    (ofWord spelling).kind ≠ .operator symbol := by
  intro same
  have bare := (ofWord_of_isSpelling spelled).1
  rw [same] at bare
  exact absurd bare (by simp [TokenKind.isWord])

theorem meets_bracketless (spelled : IsSpelling spelling expected) :
    Meets (ofWord spelling :: lexemes) before (Lacks (.operator .openParen)) :=
  meets_lacks (ofWord_kind_ne spelled .openParen)

end

/-! What follows a field. -/

/-- Neither a bracket nor a container comes next. -/
structure EndsType (rest : List Token) : Prop where
  bracketless : Lacks (.operator .openParen) rest
  containerless : containerFollows rest = false

/-- What comes next goes on neither with a type nor with attributes. -/
structure EndsField (rest : List Token) : Prop extends EndsType rest where
  wordless : ∀ word ∈ ["PRIMARY", "PARTITION", "AUTO", "DYNAMIC", "DESCRIPTION"],
    rest.head?.any (·.isWord word) = false

theorem containerFollows_of_lacks {token : Token} {rest : List Token}
    (lacks : Lacks (.operator .openParen) rest) : containerFollows (token :: rest) = false := by
  unfold containerFollows
  split
  next first second third others same =>
    obtain ⟨rfl, rfl⟩ := List.cons.inj same
    have differs : second.kind ≠ .operator .openParen := by simpa [Lacks] using lacks
    simp [differs]
  next => rfl

theorem containerFollows_of_wordless {token : Token} (wordless : token.kind.isWord = false)
    (rest : List Token) : containerFollows (token :: rest) = false := by
  unfold containerFollows
  split
  next first second third others same =>
    obtain ⟨rfl, rfl⟩ := List.cons.inj same
    simp [wordless]
  next => rfl

/-- A symbol ends every field, save that a bracket may open. -/
theorem endsField_of_symbol {lexeme : Lexeme} {lexemes : List Lexeme}
    (symbol : lexeme.kind.isWord = false) (differs : lexeme.kind ≠ .operator .openParen)
    {before : List Token → Prop} : Meets (lexeme :: lexemes) before EndsField := by
  intro tokens spells rest _
  obtain ⟨token, behind, rfl, same, -⟩ := spells.cons_cases
  refine ⟨⟨lacks_cons (same ▸ differs) _, ?_⟩, fun word _ => ?_⟩
  · exact containerFollows_of_wordless (same ▸ symbol) _
  · simp [Token.isWord, same, symbol]

/-! Attributes. -/

theorem reads_attribute {found : FieldAttribute} {lexemes : List Lexeme}
    (spelled : found.SpelledBy lexemes) : Reads fieldAttribute lexemes (some found) Anything := by
  cases spelled with
  | primaryKey first second =>
    exact reads_acceptWord first ((reads_word second).map _)
  | partitionKey first second =>
    apply reads_acceptWord_skip first (by decide)
    exact reads_acceptWord first ((reads_word second).map _)
  | autoId first second =>
    apply reads_acceptWord_skip first (by decide)
    apply reads_acceptWord_skip first (by decide)
    exact reads_acceptWord first ((reads_word second).map _)
  | dynamic word =>
    apply reads_acceptWord_skip word (by decide)
    apply reads_acceptWord_skip word (by decide)
    apply reads_acceptWord_skip word (by decide)
    exact reads_acceptWord word reads_pure
  | @description _ quote text word quotes absent =>
    apply reads_acceptWord_skip word (by decide)
    apply reads_acceptWord_skip word (by decide)
    apply reads_acceptWord_skip word (by decide)
    apply reads_acceptWord_skip word (by decide)
    have body : Reads Grammar.text [between quote text] text Anything :=
      reads_take (fun rest _ => leads_between quotes absent rest) fun _ kind same =>
        (if_pos kind).trans (congrArg some same)
    exact reads_acceptWord word ((reads_bracketed body fun _ _ _ => trivial).map _)

theorem reads_no_attribute : Reads fieldAttribute [] none EndsField := by
  refine ⟨by simp, fun tokens spells rest ends => ?_⟩
  rw [spells.nil_cases, List.nil_append, fieldAttribute]
  have other (word : String)
      (known : word ∈ ["PRIMARY", "PARTITION", "AUTO", "DYNAMIC", "DESCRIPTION"]) :=
    acceptWord_of_other (ends.wordless word known)
  rw [bind_of_ok (other "PRIMARY" (by simp)), if_neg (by simp),
    bind_of_ok (other "PARTITION" (by simp)), if_neg (by simp),
    bind_of_ok (other "AUTO" (by simp)), if_neg (by simp),
    bind_of_ok (other "DYNAMIC" (by simp)), if_neg (by simp),
    bind_of_ok (other "DESCRIPTION" (by simp)), if_neg (by simp)]
  rfl

theorem reads_attributes {found : List FieldAttribute} {written : List (List Lexeme)}
    (spelled : List.Forall₂ FieldAttribute.SpelledBy found written) :
    Reads (many fieldAttribute) written.flatten found EndsField := by
  have consuming := fieldAttribute_advancing.consuming
  induction spelled with
  | nil => exact reads_many_nil consuming reads_no_attribute
  | cons first _ ih => exact reads_many_cons consuming (reads_attribute first) ih meets_anything

theorem attributes_bracketless {found : List FieldAttribute} {written : List (List Lexeme)}
    (spelled : List.Forall₂ FieldAttribute.SpelledBy found written) :
    Meets written.flatten EndsField (Lacks (.operator .openParen)) := by
  cases spelled with
  | nil => exact meets_nil fun _ ends => ends.bracketless
  | cons first _ =>
    rw [List.flatten_cons]
    cases first with
    | primaryKey word _ | partitionKey word _ | autoId word _ | dynamic word
    | description word _ _ => exact meets_bracketless word

/-- Attributes are not taken for a container: none of them is a word before a number in
brackets. -/
theorem attributes_endsType {found : List FieldAttribute} {written : List (List Lexeme)}
    (spelled : List.Forall₂ FieldAttribute.SpelledBy found written) :
    Meets written.flatten EndsField EndsType := by
  intro tokens spells rest ends
  refine ⟨attributes_bracketless spelled spells rest ends, ?_⟩
  cases spelled with
  | nil =>
    rw [spells.nil_cases]
    exact ends.containerless
  | cons first others =>
    rw [List.flatten_cons] at spells
    cases first with
    | primaryKey _ word | partitionKey _ word | autoId _ word =>
      obtain ⟨token, behind, rfl, -, -, finish⟩ := spells.cons_cases
      exact containerFollows_of_lacks (meets_bracketless word finish rest ends)
    | dynamic =>
      obtain ⟨token, behind, rfl, -, -, finish⟩ := spells.cons_cases
      exact containerFollows_of_lacks (attributes_bracketless others finish rest ends)
    | description =>
      obtain ⟨first, behind, rfl, -, -, finish⟩ := spells.cons_cases
      obtain ⟨second, behind, rfl, -, -, finish⟩ := finish.cons_cases
      obtain ⟨third, behind, rfl, kind, -, -⟩ := finish.cons_cases
      have text : third.kind = .literal .text := kind
      simp [containerFollows, text]

/-! Types. -/

theorem reads_size {number : Int64} {lexemes : List Lexeme}
    (sized : FieldType.SizedBy number lexemes) : Reads size lexemes number Anything := by
  cases sized with
  | brackets known =>
    obtain ⟨lexicon, integer, value⟩ := known
    have inner : Reads Grammar.integer _ number Anything :=
      reads_take lexicon.stands fun token kind text => by rw [if_pos (kind.trans integer), text, value]
    exact reads_bracketed inner fun _ _ _ => trivial

section
variable {yes no : Rule α} {spelling : List Char} {size lexemes : List Lexeme} {value : α}
  {before : List Token → Prop}

theorem reads_container {name : String} (spelled : IsSpelling spelling name) {number : Int64}
    (sized : FieldType.SizedBy number size)
    (reads : Reads yes (ofWord spelling :: size) value before) :
    Reads (peekContainer >>= fun found => if found = true then yes else no)
      (ofWord spelling :: size) value before := by
  refine ⟨reads.stand, fun tokens spells rest held => ?_⟩
  have step := reads.reads spells rest held
  cases sized with
  | brackets known =>
    obtain ⟨first, behind, rfl, bare, -, finish⟩ := spells.cons_cases
    obtain ⟨second, behind, rfl, opens, -, finish⟩ := finish.cons_cases
    obtain ⟨third, behind, rfl, integer, -, finish⟩ := finish.cons_cases
    have follows : containerFollows (first :: second :: third :: behind ++ rest) = true := by
      simp [containerFollows, bare, opens, integer, known.kind, (ofWord_of_isSpelling spelled).1]
    have peeked : peekContainer (first :: second :: third :: behind ++ rest) =
        .ok (true, first :: second :: third :: behind ++ rest) := by rw [peekContainer, follows]
    rw [bind_of_ok peeked]
    exact step

theorem reads_no_container (reads : Reads no lexemes value before)
    (ends : Meets lexemes before fun rest => containerFollows rest = false) :
    Reads (peekContainer >>= fun found => if found = true then yes else no) lexemes value
      before := by
  refine ⟨reads.stand, fun tokens spells rest held => ?_⟩
  have peeked : peekContainer (tokens ++ rest) = .ok (false, tokens ++ rest) := by
    rw [peekContainer, ends spells rest held]
  rw [bind_of_ok peeked]
  exact reads.reads spells rest held

theorem reads_opened {number : Int64} (sized : FieldType.SizedBy number size)
    (reads : Reads yes (size ++ lexemes) value before) :
    Reads (peek >>= fun seen => if seen = some (.operator .openParen) then yes else no)
      (size ++ lexemes) value before := by
  cases sized with
  | brackets => exact reads_peek (ofOperator .openParen) reads

end

theorem reads_fieldType {type : FieldType} {lexemes : List Lexeme}
    (spelled : type.SpelledBy lexemes) : Reads fieldType lexemes type EndsType := by
  cases spelled with
  | scalar word =>
    apply (reads_typeWord word).bind_nil
    refine reads_peek_of_lacks (reads_no_container ?_ ?_) (meets_nil fun _ ends => ends.bracketless)
    · exact reads_pure.anywhere
    · exact meets_nil fun _ ends => ends.containerless
  | @sized _ _ length size word sized =>
    refine (reads_typeWord word).then ?_
    rw [← List.append_nil size]
    refine reads_opened sized ((reads_size sized).then (reads_no_container ?_ ?_))
    · exact reads_pure.anywhere
    · exact meets_nil fun _ ends => ends.containerless
  | vector word container sized =>
    refine (reads_typeWord word).then (reads_peek_of_lacks ?_ (meets_bracketless container))
    refine reads_container container sized
      (reads_token (stands_ofWord container.isWord) fun token kind text => ?_)
    apply (reads_size sized).bind_nil
    rw [if_pos (isWord_expected container kind text)]
    exact reads_pure.anywhere
  | @array element _ _ _ _ word differs container sized =>
    refine (reads_typeWord word).then (reads_peek_of_lacks ?_ (meets_bracketless container))
    refine reads_container container sized
      (reads_token (stands_ofWord container.isWord) fun token kind text => ?_)
    have other : ¬token.isWord "VECTOR" = true := by
      rw [isWord_of_spelled container kind text]
      decide
    have found : (token.isWord "ARRAY" && element != "VARCHAR") = true := by
      rw [isWord_expected container kind text]
      simpa using differs
    apply (reads_size sized).bind_nil
    rw [if_neg other, if_pos found]
    exact reads_pure.anywhere
  | @sizedArray element _ _ length _ _ _ word sized container sized' =>
    refine (reads_typeWord word).then (reads_opened sized ((reads_size sized).then ?_))
    refine reads_container container sized' ((reads_word container).then (Reads.anywhere ?_))
    exact (reads_size sized').map fun capacity => FieldType.array element capacity (some length)

theorem type_head {type : FieldType} {lexemes : List Lexeme} (spelled : type.SpelledBy lexemes) :
    ∃ spelling name others, lexemes = ofWord spelling :: others ∧ IsSpelling spelling name := by
  cases spelled with
  | scalar word | sized word _ | vector word _ _ | array word _ _ _ | sizedArray word _ _ _ =>
    exact ⟨_, _, _, rfl, word⟩

/-! Fields. -/

theorem reads_field {outline : FieldOutline} {lexemes : List Lexeme}
    (spelled : outline.SpelledBy lexemes) : Reads field lexemes outline.definition EndsField := by
  cases spelled with
  | field named typed attributed =>
    have whole := (reads_attributes attributed).map fun found =>
      found.foldl FieldDefinition.add ⟨outline.name, outline.type, false, false, false, false, none⟩
    rw [outline.foldl_add] at whole
    exact (reads_identifier named).then
      ((reads_fieldType typed).bind whole (attributes_endsType attributed))

theorem reads_nextField {outline : FieldOutline} {separator lexemes : List Lexeme}
    (isSeparator : IsSeparator separator) (spelled : outline.SpelledBy lexemes) :
    Reads nextField (separator ++ lexemes) (some outline.definition) EndsField := by
  have read := reads_field spelled
  cases spelled with
  | field =>
    refine reads_optional isSeparator (reads_accept_skip ?_ (by simp)) (meets_lacks (by simp))
    exact read.map some

theorem reads_no_field {separator : List Lexeme} (isSeparator : IsSeparator separator) :
    Reads nextField (separator ++ [ofOperator .closeParen]) none Anything := by
  refine reads_optional isSeparator ?_ (meets_lacks (by simp))
  exact reads_accept (stands_ofOperator .closeParen) reads_pure

/-- A field without a comma starts with a name, and a word stands behind that: neither an
attribute nor a container. -/
theorem spelled_endsField {outline : FieldOutline} {lexemes others : List Lexeme}
    {before : List Token → Prop} (spelled : outline.SpelledBy lexemes)
    (free : ¬outline.NeedsComma) : Meets (lexemes ++ others) before EndsField := by
  intro tokens spells rest held
  cases spelled with
  | field named typed _ =>
    obtain ⟨token, behind, rfl, kind, text, finish⟩ := spells.cons_cases
    have bracketless : Lacks (.operator .openParen) (behind ++ rest) := by
      obtain ⟨spelling, name, others, rfl, word⟩ := type_head typed
      exact meets_bracketless word finish rest held
    refine ⟨⟨lacks_cons ?_ _, containerFollows_of_lacks bracketless⟩, fun word known => ?_⟩
    · rw [kind]
      simp
    · have differs : Text.upper outline.name ≠ word := by
        rintro rfl
        have reserved : Text.upper outline.name ≠ "PARTITION" := by
          intro same
          have unreserved := named.unreserved
          rw [same] at unreserved
          exact absurd unreserved (by decide)
        simp only [List.mem_cons, List.not_mem_nil, or_false] at known
        simp only [FieldOutline.NeedsComma, List.mem_cons, List.not_mem_nil, or_false] at free
        rcases known with same | same | others
        · exact free (.inl same)
        · exact reserved same
        · exact free (.inr others)
      have upper : Text.upper word = word := by
        simp only [List.mem_cons, List.not_mem_nil, or_false] at known
        rcases known with rfl | rfl | rfl | rfl | rfl <;> decide
      have same : token.text = outline.name := text
      simp [Token.isWord, Text.equalIgnoringCase, upper, same, differs]

theorem listed_endsField {outlines : List FieldOutline} {lexemes : List Lexeme}
    (listed : FieldOutline.ListedBy true outlines lexemes) :
    Meets lexemes Anything EndsField := by
  cases listed with
  | nil isSeparator =>
    rcases isSeparator with rfl | rfl
    · exact endsField_of_symbol rfl (by simp)
    · exact endsField_of_symbol rfl (by simp)
  | cons isSeparator needed spelled _ =>
    rcases isSeparator with rfl | rfl
    · rw [List.nil_append]
      exact spelled_endsField spelled fun found => absurd (needed rfl found) (by simp)
    · exact endsField_of_symbol rfl (by simp)

theorem reads_nextFields {behind : Bool} {outlines : List FieldOutline} {lexemes : List Lexeme}
    (listed : FieldOutline.ListedBy behind outlines lexemes) :
    Reads (many nextField) lexemes (outlines.map FieldOutline.definition) Anything := by
  have consuming := nextField_advancing.consuming
  induction listed with
  | nil isSeparator => exact reads_many_nil consuming (reads_no_field isSeparator)
  | cons isSeparator _ spelled others ih =>
    rw [← List.append_assoc]
    exact reads_many_cons consuming (reads_nextField isSeparator spelled) ih
      (listed_endsField others)

theorem reads_fields {outlines : List FieldOutline} {lexemes : List Lexeme}
    (listed : FieldOutline.ListedBy false outlines lexemes) :
    Reads fields (ofOperator .openParen :: lexemes) (outlines.map FieldOutline.definition)
      Anything :=
  (reads_operator .openParen).then (reads_nextFields listed)

/-- The written form of a list of fields is one way to list them. -/
theorem reads_definitions {definitions : List FieldDefinition}
    (wellFormed : ∀ definition ∈ definitions, definition.WellFormed) :
    Reads fields (ofFields definitions) definitions Anything := by
  have reads := reads_fields (FieldDefinition.listedBy_lexemes wellFormed)
  have same : definitions.map (FieldOutline.definition ∘ FieldDefinition.outline) = definitions :=
    (List.map_congr_left fun _ _ => FieldDefinition.definition_outline _).trans (List.map_id _)
  rwa [List.map_map, same] at reads

end VectorQuery.Grammar
