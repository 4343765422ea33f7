import VectorQuery.Proofs.Grammar.Value

/-! Paths and operands read from tokens. -/
namespace VectorQuery.Grammar

variable {levels : Nat}

theorem segment_ok_cases {tokens rest : List Token} {found : Option PathSegment}
    (read : segment tokens = .ok (found, rest)) :
    (∃ taken segment, found = some segment ∧ tokens = taken ++ rest ∧
      SegmentPhrase taken segment) ∨
    found = none ∧ rest = tokens ∧ Lacks (.operator .openBracket) tokens ∧
      Lacks (.operator .dot) tokens := by
  rw [segment] at read
  simp only [↓accept_bind_ok_iff, bind_ok_iff, operator, subscript, take_ok_iff, expect_ok_iff,
    identifier_ok_iff, pure_ok_iff] at read
  rcases read with
    ⟨opening, _, rfl, opens, part, _, ⟨token, rfl, meaning⟩, _, _, ⟨closing, rfl, closes⟩, rfl, rfl⟩ |
    ⟨lacksBracket, ⟨dot, _, rfl, point, _, _, ⟨name, rfl, named, rfl⟩, rfl, rfl⟩ | ⟨lacksDot, rfl, rfl⟩⟩
  · refine .inl ⟨[opening, token, closing], part, rfl, rfl, ?_⟩
    split at meaning
    next key =>
      obtain rfl := Option.some.inj meaning
      exact .key opens key closes
    next number =>
      obtain ⟨index, value, rfl⟩ := Option.map_eq_some_iff.mp meaning
      exact .index opens number value closes
    next => contradiction
  · exact .inl ⟨[dot, name], _, rfl, rfl, .field point named⟩
  · exact .inr ⟨rfl, rfl, lacksBracket, lacksDot⟩

theorem segment_consuming : Consuming segment := by
  intro tokens value rest read
  rcases segment_ok_cases read with ⟨taken, _, _, rfl, phrase⟩ | ⟨absent, _⟩
  · have := phrase.length_pos
    simp only [List.length_append]
    omega
  · contradiction

theorem path_sound : Sound path PathPhrase := by
  intro tokens path rest read
  simp only [Grammar.path, bind_ok_iff, identifier_ok_iff, pure_ok_iff] at read
  obtain ⟨_, middle, ⟨root, rfl, named, rfl⟩, segments, after, loop, rfl, rfl⟩ := read
  have inner : ∃ read, middle = read ++ after ∧ SegmentsPhrase read segments := by
    refine many_induction segment_consuming (motive := fun tokens segments rest =>
      ∃ read, tokens = read ++ rest ∧ SegmentsPhrase read segments) ?_ ?_ loop
    · intro tokens rest found
      rcases segment_ok_cases found with ⟨_, _, present, _⟩ | ⟨_, rfl, _⟩
      · contradiction
      · exact ⟨[], rfl, .none⟩
    · rintro tokens value middle segments rest found ⟨others, rfl, phrase⟩
      rcases segment_ok_cases found with ⟨taken, segment, present, rfl, first⟩ | ⟨absent, _⟩
      · obtain rfl := Option.some.inj present
        exact ⟨taken ++ others, by simp, .more first phrase⟩
      · contradiction
  obtain ⟨read, rfl, phrase⟩ := inner
  exact ⟨root :: read, rfl, .path named phrase⟩

theorem primary_sound {bracket : Rule Operand} (brackets : Sound bracket (PrimaryPhrase levels)) :
    Sound (primary levels bracket) (PrimaryPhrase levels) := by
  intro tokens operand rest read
  rw [primary, bind_of_ok (peek_apply tokens)] at read
  generalize tokens.head?.map Token.kind = kind at read
  split at read
  · exact brackets read
  · simp only [bind_ok_iff, pure_ok_iff] at read
    obtain ⟨items, middle, inner, rfl, rfl⟩ := read
    obtain ⟨taken, rfl, phrase⟩ := list_sound levels inner
    exact ⟨taken, rfl, .list phrase⟩
  · simp only [keyword, bind_ok_iff, expect_ok_iff, bracketed_ok_iff, pure_ok_iff] at read
    obtain ⟨_, _, ⟨function, rfl, named⟩, target, after, ⟨opening, closing, middle, rfl, opens, inner,
      closes⟩, rfl, rfl⟩ := read
    obtain ⟨taken, rfl, phrase⟩ := path_sound inner
    exact ⟨function :: opening :: taken ++ [closing], by simp, .arrayLength named opens phrase closes⟩
  · simp only [bind_ok_iff, pure_ok_iff] at read
    obtain ⟨target, middle, inner, rfl, rfl⟩ := read
    obtain ⟨taken, rfl, phrase⟩ := path_sound inner
    exact ⟨taken, rfl, .path phrase⟩
  · simp only [bind_ok_iff, literal_ok_iff, pure_ok_iff] at read
    obtain ⟨value, middle, ⟨token, rfl, meaning⟩, rfl, rfl⟩ := read
    exact ⟨[token], rfl, .literal meaning⟩

theorem term_sound {bracket : Rule Operand} (brackets : Sound bracket (PrimaryPhrase levels)) :
    Sound (term levels bracket) (TermPhrase levels) := by
  intro tokens operand rest read
  rw [term, bind_of_ok (peek_apply tokens)] at read
  generalize same : (tokens.head?.map Token.kind).bind TokenKind.sign? = sign at read
  cases sign with
  | some sign =>
    simp only [bind_ok_iff, token_ok_iff, pure_ok_iff] at read
    obtain ⟨token, middle, rfl, inner, after, taken, rfl, rfl⟩ := read
    obtain ⟨others, rfl, phrase⟩ := primary_sound brackets taken
    exact ⟨token :: others, rfl, .signed (by simpa using same) phrase⟩
  | none =>
    obtain ⟨taken, rfl, phrase⟩ := primary_sound brackets read
    exact ⟨taken, rfl, .unsigned phrase⟩

theorem operation_ok_cases {term : Rule Operand} {tokens rest : List Token}
    {found : Option (Arithmetic × Operand)} (read : operation term tokens = .ok (found, rest)) :
    (∃ token middle operation right, found = some (operation, right) ∧ tokens = token :: middle ∧
      token.kind.arithmetic? = some operation ∧ term middle = .ok (right, rest)) ∨
    (∃ token value, found = some (.subtract, .literal value) ∧ tokens = token :: rest ∧
      token.isGlued = true ∧ token.unsigned.literal? = some value) ∨
    found = none ∧ rest = tokens := by
  rw [operation, bind_of_ok (next?_apply tokens)] at read
  cases tokens with
  | nil =>
    obtain ⟨rfl, rfl⟩ := pure_ok_iff.mp read
    exact .inr (.inr ⟨rfl, rfl⟩)
  | cons token tail =>
    simp only [List.head?_cons] at read
    cases meant : token.kind.arithmetic? with
    | some operation =>
      simp only [meant, bind_ok_iff, token_ok_iff, List.cons.injEq, pure_ok_iff] at read
      obtain ⟨_, _, ⟨rfl, rfl⟩, right, after, taken, rfl, rfl⟩ := read
      exact .inl ⟨_, _, operation, right, rfl, rfl, meant, taken⟩
    | none =>
      simp only [meant] at read
      split at read
      next glued =>
        simp only [bind_ok_iff, gluedLiteral, take_ok_iff, List.cons.injEq, pure_ok_iff] at read
        obtain ⟨value, _, ⟨_, ⟨rfl, rfl⟩, meaning⟩, rfl, rfl⟩ := read
        exact .inr (.inl ⟨_, value, rfl, rfl, glued, meaning⟩)
      next =>
        obtain ⟨rfl, rfl⟩ := pure_ok_iff.mp read
        exact .inr (.inr ⟨rfl, rfl⟩)

theorem operation_consuming {term : Rule Operand} (shrinking : Shrinking term) :
    Consuming (operation term) := by
  intro tokens value rest read
  rcases operation_ok_cases read with ⟨_, _, _, _, _, rfl, _, taken⟩ | ⟨_, _, _, rfl, _⟩ | ⟨absent, _⟩
  · have := shrinking taken
    simp only [List.length_cons]
    omega
  · simp
  · contradiction

theorem continued_sound {bracket : Rule Operand} (brackets : Sound bracket (PrimaryPhrase levels))
    {first : Operand} {start : List Token} (phrase : OperandPhrase levels start first) :
    Sound (continued levels bracket first) fun read operand =>
      OperandPhrase levels (start ++ read) operand := by
  intro tokens operand rest read
  simp only [continued, bind_ok_iff, pure_ok_iff] at read
  obtain ⟨operations, middle, loop, rfl, rfl⟩ := read
  have terms := term_sound brackets
  refine many_induction (operation_consuming terms.shrinking) (motive := fun tokens operations rest =>
    ∀ first start, OperandPhrase levels start first → ∃ read, tokens = read ++ rest ∧
      OperandPhrase levels (start ++ read)
        (operations.foldl (fun left step => .binary left step.1 step.2) first))
    ?_ ?_ loop first start phrase
  · intro tokens rest found first start phrase
    rcases operation_ok_cases found with ⟨_, _, _, _, present, _⟩ | ⟨_, _, present, _⟩ | ⟨_, rfl⟩
    · contradiction
    · contradiction
    · exact ⟨[], rfl, by simpa using phrase⟩
  · intro tokens value middle operations rest found ih first start phrase
    rcases operation_ok_cases found with ⟨token, middle, operation, right, present, rfl, meaning, taken⟩ |
      ⟨token, value, present, rfl, glued, meaning⟩ | ⟨absent, _⟩
    · obtain rfl := Option.some.inj present
      obtain ⟨read, rfl, right⟩ := terms taken
      obtain ⟨others, rfl, whole⟩ := ih _ _ (.operation phrase meaning right)
      exact ⟨token :: read ++ others, by simp, by simpa using whole⟩
    · obtain rfl := Option.some.inj present
      obtain ⟨others, rfl, whole⟩ := ih _ _ (.glued phrase glued meaning)
      exact ⟨token :: others, rfl, by simpa using whole⟩
    · contradiction

theorem operandWith_sound {bracket : Rule Operand} (brackets : Sound bracket (PrimaryPhrase levels)) :
    Sound (operandWith levels bracket) (OperandPhrase levels) := by
  intro tokens operand rest read
  rw [operandWith, bind_ok_iff] at read
  obtain ⟨first, middle, start, read⟩ := read
  obtain ⟨taken, rfl, phrase⟩ := term_sound brackets start
  obtain ⟨others, rfl, whole⟩ := continued_sound brackets (.term phrase) read
  exact ⟨taken ++ others, by simp, whole⟩

theorem nestedOperand_sound (levels : Nat) : Sound (nestedOperand levels) (PrimaryPhrase levels) := by
  induction levels with
  | zero => exact tooDeep_sound _
  | succ levels ih =>
    intro tokens operand rest read
    rw [nestedOperand] at read
    simp only [bracketedOperand, bind_ok_iff, bracketed_ok_iff, pure_ok_iff] at read
    obtain ⟨inner, after, ⟨opening, closing, middle, rfl, opens, read, closes⟩, rfl, rfl⟩ := read
    obtain ⟨taken, rfl, phrase⟩ := operandWith_sound ih read
    exact ⟨opening :: taken ++ [closing], by simp, .nested opens phrase closes⟩

theorem operand_sound (levels : Nat) : Sound (operand levels) (OperandPhrase levels) :=
  operandWith_sound (nestedOperand_sound levels)

theorem operations_sound {first : Operand} {start : List Token}
    (phrase : OperandPhrase levels start first) :
    Sound (operations levels first) fun read operand => OperandPhrase levels (start ++ read) operand :=
  continued_sound (nestedOperand_sound levels) phrase

/-! Every phrase is read. What follows must not extend it. -/

/-- No subscript and no field follows. -/
def EndsPath (tokens : List Token) : Prop :=
  Lacks (.operator .openBracket) tokens ∧ Lacks (.operator .dot) tokens

/-- No operation follows either. -/
def EndsOperand (tokens : List Token) : Prop :=
  EndsPath tokens ∧
    ∀ token ∈ tokens.head?, token.kind.arithmetic? = none ∧ token.isGlued = false

theorem endsPath_of_literal {token : Token} {form : LiteralForm} (kind : token.kind = .literal form)
    (rest : List Token) : EndsPath (token :: rest) :=
  ⟨lacks_cons (by simp [kind]) rest, lacks_cons (by simp [kind]) rest⟩

theorem isGlued_kind {token : Token} (glued : token.isGlued = true) :
    ∃ form, token.kind = .literal form := by
  cases kind : token.kind <;> simp_all [Token.isGlued]

theorem endsPath_of_arithmetic {token : Token} {operation : Arithmetic}
    (meaning : token.kind.arithmetic? = some operation) (rest : List Token) :
    EndsPath (token :: rest) := by
  constructor <;> refine lacks_cons ?_ rest <;> intro kind <;> simp [kind, TokenKind.arithmetic?] at meaning

theorem segment_of_phrase {tokens : List Token} {part : PathSegment}
    (phrase : SegmentPhrase tokens part) (rest : List Token) :
    segment (tokens ++ rest) = .ok (some part, rest) := by
  cases phrase with
  | @key opening token closing opens key closes =>
    have named : subscript (token :: closing :: rest) = .ok (.key token.text, closing :: rest) :=
      take_ok_iff.mpr ⟨token, rfl, by simp [key]⟩
    simp only [segment, List.cons_append, List.nil_append, operator]
    rw [accept_bind_cons opens, bind_of_ok named, bind_of_ok (expect_cons closes rest), pure_apply]
  | @index opening token closing index opens number value closes =>
    have numbered : subscript (token :: closing :: rest) = .ok (.index index, closing :: rest) :=
      take_ok_iff.mpr ⟨token, rfl, by simp [number, value]⟩
    simp only [segment, List.cons_append, List.nil_append, operator]
    rw [accept_bind_cons opens, bind_of_ok numbered, bind_of_ok (expect_cons closes rest),
      pure_apply]
  | @field dot token point named =>
    have lacks : Lacks (.operator .openBracket) (dot :: token :: rest) := lacks_cons (by simp [point]) _
    have name : identifier (token :: rest) = .ok (token.text, rest) :=
      identifier_ok_iff.mpr ⟨token, rfl, named, rfl⟩
    simp only [segment, List.cons_append, List.nil_append]
    rw [accept_bind_of_lacks lacks, accept_bind_cons point, bind_of_ok name, pure_apply]

theorem segment_of_ends {rest : List Token} (ends : EndsPath rest) :
    segment rest = .ok (none, rest) := by
  rw [segment, accept_bind_of_lacks ends.1, accept_bind_of_lacks ends.2, pure_apply]

theorem segments_of_phrase {tokens : List Token} {segments : List PathSegment}
    (phrase : SegmentsPhrase tokens segments) {rest : List Token} (ends : EndsPath rest) :
    many segment (tokens ++ rest) = .ok (segments, rest) := by
  induction phrase with
  | none => exact many_of_none segment_consuming (segment_of_ends ends)
  | more first _ ih =>
    rw [List.append_assoc, many_of_some segment_consuming (segment_of_phrase first _), ih]
    rfl

theorem path_of_phrase {tokens : List Token} {target : Path} (phrase : PathPhrase tokens target)
    {rest : List Token} (ends : EndsPath rest) : path (tokens ++ rest) = .ok (target, rest) := by
  cases phrase with
  | @path root tokens segments named phrase =>
    have name : identifier (root :: tokens ++ rest) = .ok (root.text, tokens ++ rest) :=
      identifier_ok_iff.mpr ⟨root, rfl, named, rfl⟩
    rw [Grammar.path, bind_of_ok name, bind_of_ok (segments_of_phrase phrase ends), pure_apply]

theorem continued_of_some {bracket : Rule Operand} (brackets : Sound bracket (PrimaryPhrase levels))
    {left right : Operand} {step : Arithmetic} {tokens middle : List Token}
    (found : operation (term levels bracket) tokens = .ok (some (step, right), middle)) :
    continued levels bracket left tokens =
      continued levels bracket (.binary left step right) middle := by
  have consuming := operation_consuming (term_sound brackets).shrinking
  simp only [continued, bind_apply, many_of_some consuming found]
  cases many (operation (term levels bracket)) middle <;> rfl

theorem continued_of_ends {bracket : Rule Operand} (brackets : Sound bracket (PrimaryPhrase levels))
    {operand : Operand} {rest : List Token} (ends : EndsOperand rest) :
    continued levels bracket operand rest = .ok (operand, rest) := by
  have stops : operation (term levels bracket) rest = .ok (none, rest) := by
    rw [operation, bind_of_ok (next?_apply rest)]
    cases rest with
    | nil => rfl
    | cons token tail =>
      obtain ⟨plain, loose⟩ := ends.2 token rfl
      simp only [List.head?_cons, plain, loose, Bool.false_eq_true, if_false, pure_apply]
  have loop := many_of_none (operation_consuming (term_sound brackets).shrinking) stops
  rw [continued, bind_of_ok loop]
  rfl

theorem operation_cons {term : Rule Operand} {token : Token} {tokens rest : List Token}
    {step : Arithmetic} {right : Operand} (meaning : token.kind.arithmetic? = some step)
    (read : term tokens = .ok (right, rest)) :
    operation term (token :: tokens) = .ok (some (step, right), rest) := by
  rw [operation, bind_of_ok (next?_apply _)]
  simp only [List.head?_cons, meaning]
  rw [bind_of_ok (token_ok_iff.mpr rfl), bind_of_ok read, pure_apply]

theorem operation_glued {term : Rule Operand} {token : Token} {value : Value}
    (glued : token.isGlued = true) (meaning : token.unsigned.literal? = some value)
    (rest : List Token) :
    operation term (token :: rest) = .ok (some (.subtract, .literal value), rest) := by
  obtain ⟨form, kind⟩ := isGlued_kind glued
  have number : gluedLiteral (token :: rest) = .ok (value, rest) :=
    take_ok_iff.mpr ⟨token, rfl, meaning⟩
  rw [operation, bind_of_ok (next?_apply _)]
  simp only [List.head?_cons, kind, TokenKind.arithmetic?, glued, if_true]
  rw [bind_of_ok number, pure_apply]

end VectorQuery.Grammar

namespace VectorQuery
open Grammar

/-- How an operand without a sign may start. -/
def TokenKind.opensPrimary : TokenKind → Bool
  | .literal _ | .identifier | .keyword .arrayLength | .operator .openBracket
  | .operator .openParen => true
  | _ => false

theorem TokenKind.sign?_of_opensPrimary {kind : TokenKind} (opens : kind.opensPrimary = true) :
    kind.sign? = none := by
  unfold TokenKind.opensPrimary at opens
  split at opens <;> first | rfl | contradiction

/-- Tokens that neither belong to a path nor go on with an operation. -/
def TokenKind.endsOperand : TokenKind → Bool
  | .keyword _ | .separator _ | .operator .closeParen | .operator .equal | .operator .notEqual
  | .operator .bangEqual | .operator .less | .operator .lessEqual | .operator .greater
  | .operator .greaterEqual => true
  | _ => false

theorem endsOperand_cons {token : Token} (ends : token.kind.endsOperand = true)
    (rest : List Token) : EndsOperand (token :: rest) := by
  unfold TokenKind.endsOperand at ends
  split at ends <;>
    simp_all [EndsOperand, EndsPath, Lacks, TokenKind.arithmetic?, Token.isGlued]

theorem endsOperand_nil : EndsOperand [] := by
  simp [EndsOperand, EndsPath, Lacks]

theorem PathPhrase.head {tokens : List Token} {path : Path} (phrase : PathPhrase tokens path) :
    ∃ root others, tokens = root :: others ∧ root.kind = .identifier := by
  cases phrase with
  | path named _ => exact ⟨_, _, rfl, named⟩

theorem PrimaryPhrase.head {levels : Nat} {tokens : List Token} {operand : Operand}
    (phrase : PrimaryPhrase levels tokens operand) :
    ∃ token others, tokens = token :: others ∧ token.kind.opensPrimary = true := by
  cases phrase with
  | literal meaning =>
    obtain ⟨form, kind⟩ := literal?_kind meaning
    exact ⟨_, [], rfl, by simp [kind, TokenKind.opensPrimary]⟩
  | list phrase =>
    obtain ⟨opening, others, rfl, opens⟩ := phrase.head
    exact ⟨opening, others, rfl, by simp [opens, TokenKind.opensPrimary]⟩
  | path phrase =>
    obtain ⟨root, others, rfl, named⟩ := phrase.head
    exact ⟨root, others, rfl, by simp [named, TokenKind.opensPrimary]⟩
  | arrayLength named _ _ _ => exact ⟨_, _, rfl, by simp [named, TokenKind.opensPrimary]⟩
  | nested opens _ _ => exact ⟨_, _, rfl, by simp [opens, TokenKind.opensPrimary]⟩

mutual
/-- The operations behind an operand are read as if it had been one term. -/
theorem OperandPhrase.continues {levels : Nat} {tokens : List Token} {operand : Operand} :
    OperandPhrase levels tokens operand → ∀ rest, EndsPath rest →
      Grammar.operand levels (tokens ++ rest) = operations levels operand rest
  | .term phrase, rest, ends => bind_of_ok (phrase.reads rest ends) _
  | @OperandPhrase.operation _ _ others _ _ token _ left meaning right, rest, ends => by
    rw [List.append_assoc, List.cons_append, left.continues _ (endsPath_of_arithmetic meaning _)]
    exact continued_of_some (nestedOperand_sound levels) (operation_cons meaning (right.reads rest ends))
  | .glued left glued meaning, rest, ends => by
    obtain ⟨form, kind⟩ := isGlued_kind glued
    rw [List.append_assoc, List.singleton_append, left.continues _ (endsPath_of_literal kind _)]
    exact continued_of_some (nestedOperand_sound levels) (operation_glued glued meaning rest)

theorem TermPhrase.reads {levels : Nat} {tokens : List Token} {operand : Operand} :
    TermPhrase levels tokens operand → ∀ rest, EndsPath rest →
      term levels (nestedOperand levels) (tokens ++ rest) = .ok (operand, rest)
  | .unsigned phrase, rest, ends => by
    have inner := phrase.reads rest ends
    obtain ⟨token, others, rfl, opens⟩ := phrase.head
    rw [term, bind_of_ok (peek_apply _)]
    simpa [TokenKind.sign?_of_opensPrimary opens] using inner
  | .signed meaning phrase, rest, ends => by
    rw [term, bind_of_ok (peek_apply _)]
    simp only [List.cons_append, List.head?_cons, Option.map_some, Option.bind_some, meaning]
    rw [bind_of_ok (token_ok_iff.mpr rfl), bind_of_ok (phrase.reads rest ends), pure_apply]

theorem PrimaryPhrase.reads {levels : Nat} {tokens : List Token} {operand : Operand} :
    PrimaryPhrase levels tokens operand → ∀ rest, EndsPath rest →
      primary levels (nestedOperand levels) (tokens ++ rest) = .ok (operand, rest)
  | .literal meaning, rest, _ => by
    obtain ⟨form, kind⟩ := literal?_kind meaning
    rw [primary, bind_of_ok (peek_apply _)]
    simp only [List.cons_append, List.head?_cons, Option.map_some, kind]
    rw [List.nil_append, bind_of_ok (literal_ok_iff.mpr ⟨_, rfl, meaning⟩), pure_apply]
  | .list phrase, rest, _ => by
    have inner := phrase.reads rest
    obtain ⟨opening, others, rfl, opens⟩ := phrase.head
    rw [primary, bind_of_ok (peek_apply _)]
    simp only [List.cons_append, List.head?_cons, Option.map_some, opens]
    rw [bind_of_ok (by simpa using inner), pure_apply]
  | .path phrase, rest, ends => by
    have inner := path_of_phrase phrase ends
    obtain ⟨root, others, rfl, named⟩ := phrase.head
    rw [primary, bind_of_ok (peek_apply _)]
    simp only [List.cons_append, List.head?_cons, Option.map_some, named]
    rw [bind_of_ok (by simpa using inner), pure_apply]
  | @PrimaryPhrase.arrayLength _ _ opening closing _ _ named opens phrase closes, rest, _ => by
    have ends : EndsOperand (closing :: rest) :=
      endsOperand_cons (by simp [closes, TokenKind.endsOperand]) rest
    have inner := bracketed_ok_iff.mpr
      ⟨opening, closing, _, rfl, opens, path_of_phrase phrase ends.1, closes⟩
    rw [primary, bind_of_ok (peek_apply _)]
    simp only [List.cons_append, List.append_assoc, List.nil_append, List.head?_cons,
      Option.map_some, named, keyword]
    rw [bind_of_ok (expect_cons named _), bind_of_ok inner, pure_apply]
  | @PrimaryPhrase.nested levels opening closing _ operand opens phrase closes, rest, _ => by
    have ends : EndsOperand (closing :: rest) :=
      endsOperand_cons (by simp [closes, TokenKind.endsOperand]) rest
    have inner : Grammar.operand levels (_ ++ closing :: rest) = .ok (operand, closing :: rest) :=
      (phrase.continues _ ends.1).trans (continued_of_ends (nestedOperand_sound levels) ends)
    have held := bracketed_ok_iff.mpr ⟨opening, closing, _, rfl, opens, inner, closes⟩
    rw [primary, bind_of_ok (peek_apply _)]
    simp only [List.cons_append, List.append_assoc, List.nil_append, List.head?_cons,
      Option.map_some, opens, nestedOperand, bracketedOperand]
    exact bind_of_ok held _
end

theorem OperandPhrase.reads {levels : Nat} {tokens : List Token} {operand : Operand}
    (phrase : OperandPhrase levels tokens operand) {rest : List Token} (ends : EndsOperand rest) :
    Grammar.operand levels (tokens ++ rest) = .ok (operand, rest) :=
  (phrase.continues rest ends.1).trans (continued_of_ends (nestedOperand_sound levels) ends)

end VectorQuery
