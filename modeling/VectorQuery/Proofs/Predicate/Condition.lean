import VectorQuery.Proofs.Predicate.Operand

/-! The predicates of conditions. Behind a round bracket an operand or a condition may
stand, and both may start with further brackets; what follows the innermost operand
tells them apart. So a predicate determines its condition, up to the two spellings that
read alike. -/
namespace VectorQuery.Condition

/-- Conditions as statements write them, where a denied `LIKE` or `IN` stands as the
bracketed denial that it reads like. -/
def WellFormed : Condition → Prop
  | .compare left _ right => left.WellFormed ∧ right.WellFormed
  | .like target _ negated => target.WellFormed ∧ negated = false
  | .between target low high _ => target.WellFormed ∧ low.WellFormed ∧ high.WellFormed
  | .within target items negated =>
    target.WellFormed ∧ Value.areFinite items = true ∧ negated = false
  | .isNull target _ => target.WellFormed
  | .contains _ target value => target.IsNamed ∧ ∀ inner ∈ value, inner.isFinite = true
  | .negation condition => condition.WellFormed
  | .conjunction left right => left.WellFormed ∧ right.WellFormed
  | .disjunction left right => left.WellFormed ∧ right.WellFormed
  | .nested condition => condition.WellFormed

/-- A condition, or its bracketed denial. -/
def deniedIf (negated : Bool) (condition : Condition) : Condition :=
  if negated then .nested (.negation condition) else condition

/-- The condition with every denied `LIKE` and `IN` spelled out. -/
def spelled : Condition → Condition
  | .like target pattern negated => deniedIf negated (.like target pattern false)
  | .within target items negated => deniedIf negated (.within target items false)
  | .negation condition => .negation condition.spelled
  | .conjunction left right => .conjunction left.spelled right.spelled
  | .disjunction left right => .disjunction left.spelled right.spelled
  | .nested condition => .nested condition.spelled
  | .compare left comparator right => .compare left comparator right
  | .between target low high negated => .between target low high negated
  | .isNull target negated => .isNull target negated
  | .contains function target value => .contains function target value

/-- The condition with every denied `LIKE` and `IN` spelled out, and every minus before
a number made part of it. -/
def normal : Condition → Condition
  | .compare left comparator right => .compare left.normal comparator right.normal
  | .like target pattern negated => deniedIf negated (.like target.normal pattern false)
  | .between target low high negated => .between target.normal low.normal high.normal negated
  | .within target items negated => deniedIf negated (.within target.normal items false)
  | .isNull target negated => .isNull target.normal negated
  | .contains function target value => .contains function target value
  | .negation condition => .negation condition.normal
  | .conjunction left right => .conjunction left.normal right.normal
  | .disjunction left right => .disjunction left.normal right.normal
  | .nested condition => .nested condition.normal

theorem normal_spelled (condition : Condition) : condition.spelled.normal = condition.normal := by
  induction condition with
  | like target pattern negated => cases negated <;> rfl
  | within target items negated => cases negated <;> rfl
  | negation condition ih => rw [spelled, normal, normal, ih]
  | conjunction left right ihLeft ihRight => rw [spelled, normal, normal, ihLeft, ihRight]
  | disjunction left right ihLeft ihRight => rw [spelled, normal, normal, ihLeft, ihRight]
  | nested condition ih => rw [spelled, normal, normal, ih]
  | compare | between | isNull | contains => rfl

/-- A denial reads the same when it is spelled out. -/
theorem predicate_spelled (condition : Condition) :
    condition.spelled.predicate = condition.predicate := by
  induction condition with
  | like target pattern negated =>
    cases negated <;> simp [spelled, deniedIf, predicate, denied, ← String.append_assoc]
  | within target items negated =>
    cases negated <;> simp [spelled, deniedIf, predicate, denied, ← String.append_assoc]
  | negation condition ih => rw [spelled, predicate, predicate, ih]
  | conjunction left right ihLeft ihRight => rw [spelled, predicate, predicate, ihLeft, ihRight]
  | disjunction left right ihLeft ihRight => rw [spelled, predicate, predicate, ihLeft, ihRight]
  | nested condition ih => rw [spelled, predicate, predicate, ih]
  | compare | between | isNull | contains => rfl

/-- The characters of the predicate. -/
def characters (condition : Condition) : List Char :=
  condition.predicate.toList

/-- A word between blanks, and what follows it. -/
def said (word : String) (rest : List Char) : List Char :=
  ' ' :: (word.toList ++ ' ' :: rest)

/-- The operand that a predicate starts with behind its bracket, and what is said of it. -/
def lead? : Condition → Option (Operand × String × List Char)
  | .compare left comparator right => some (left, comparator.symbol, right.characters ++ [')'])
  | .like target pattern false => some (target, "LIKE", (Text.quoted pattern).toList ++ [')'])
  | .between target low high false =>
    some (low, "<=", target.characters ++ said "<=" (high.characters ++ [')']))
  | .within target items false => some (target, "IN", (Value.array items).characters ++ [')'])
  | .isNull target false => some (target, "IS", "NULL)".toList)
  | .isNull target true => some (target, "IS", "NOT NULL)".toList)
  | _ => none

/-- The conditions that start with an operand behind their bracket, by what is said of it. -/
inductive Leads : Condition → Operand → String → List Char → Prop
  | compare (left : Operand) (comparator : Comparator) (right : Operand) :
    Leads (.compare left comparator right) left comparator.symbol (right.characters ++ [')'])
  | like (target : Operand) (pattern : String) :
    Leads (.like target pattern false) target "LIKE" ((Text.quoted pattern).toList ++ [')'])
  | between (target low high : Operand) :
    Leads (.between target low high false) low "<="
      (target.characters ++ said "<=" (high.characters ++ [')']))
  | within (target : Operand) (items : List Value) :
    Leads (.within target items false) target "IN" ((Value.array items).characters ++ [')'])
  | isNull (target : Operand) (negated : Bool) :
    Leads (.isNull target negated) target "IS"
      (if negated then "NOT NULL)".toList else "NULL)".toList)

theorem leads_of_lead {condition : Condition} {operand : Operand} {word : String}
    {rest : List Char} (leads : condition.lead? = some (operand, word, rest)) :
    Leads condition operand word rest := by
  unfold lead? at leads
  split at leads
  case h_7 => contradiction
  all_goals
    simp only [Option.some.injEq, Prod.mk.injEq] at leads
    obtain ⟨rfl, rfl, rfl⟩ := leads
    constructor

theorem characters_of_lead {condition : Condition} {operand : Operand} {word : String}
    {rest : List Char} (leads : condition.lead? = some (operand, word, rest)) :
    condition.characters = '(' :: (operand.characters ++ said word rest) := by
  cases leads_of_lead leads with
  | isNull target negated =>
    cases negated <;> simp [characters, predicate, said, Operand.characters]
  | compare | like | between | within =>
    simp [characters, predicate, denied, said, Operand.characters, Value.characters]

theorem word_of_lead {condition : Condition} {operand : Operand} {word : String}
    {rest : List Char} (leads : condition.lead? = some (operand, word, rest)) :
    (∀ operation : Arithmetic, operation.symbol ≠ word) ∧
      ∀ character ∈ word.toList, (character != ' ') = true := by
  have all (word : String) (inside : word ∈ ["==", "!=", "<", ">", "<=", ">=", "LIKE", "IN", "IS"]) :
      (∀ operation : Arithmetic, operation.symbol ≠ word) ∧
        ∀ character ∈ word.toList, (character != ' ') = true := by
    simp only [List.mem_cons, List.not_mem_nil, or_false] at inside
    rcases inside with rfl | rfl | rfl | rfl | rfl | rfl | rfl | rfl | rfl <;>
      exact ⟨fun operation => by cases operation <;> decide, List.all_eq_true.mp rfl⟩
  apply all word
  cases leads_of_lead leads with
  | compare left comparator right => cases comparator <;> decide
  | like | between | within | isNull => decide

theorem said_unique {word word' : String} {rest rest' : List Char}
    (plain : ∀ character ∈ word.toList, (character != ' ') = true)
    (plain' : ∀ character ∈ word'.toList, (character != ' ') = true)
    (same : said word rest = said word' rest') : word = word' ∧ rest = rest' := by
  have blank (rest : List Char) : Text.Ends (· != ' ') (' ' :: rest) := Text.ends_cons (by decide) rest
  obtain ⟨words, behind⟩ :=
    Text.run_unique plain plain' (blank rest) (blank rest') (List.cons.inj same).2
  exact ⟨String.toList_inj.mp words, (List.cons.inj behind).2⟩

theorem said_append (word : String) (rest behind : List Char) :
    said word rest ++ behind = said word (rest ++ behind) := by
  simp [said]

theorem endsArithmetic_of_said {word : String}
    (plain : ∀ character ∈ word.toList, (character != ' ') = true)
    (other : ∀ operation : Arithmetic, operation.symbol ≠ word) (rest : List Char) :
    EndsArithmetic (said word rest) := by
  refine ⟨delimited_cons (by decide) _, fun operation behind same => ?_⟩
  have symbol : ∀ character ∈ operation.symbol.toList, (character != ' ') = true := by
    cases operation <;> exact List.all_eq_true.mp rfl
  exact other operation (said_unique symbol plain same.symm).1

theorem said_ne_bracket (word : String) (rest behind : List Char) : said word rest ≠ ')' :: behind := by
  simp [said]

theorem symbol_ne_word (comparator : Comparator) : comparator.symbol ∉ ["LIKE", "IN", "IS"] := by
  cases comparator <;> decide

theorem comparator_unique {comparator comparator' : Comparator}
    (same : comparator.symbol = comparator'.symbol) : comparator = comparator' := by
  revert same
  cases comparator <;> cases comparator' <;> decide

/-! What follows an operand tells the condition. -/

theorem compare_of_lead {condition : Condition} {operand : Operand} {comparator : Comparator}
    {rest : List Char} (leads : condition.lead? = some (operand, comparator.symbol, rest)) :
    (∃ right, condition = .compare operand comparator right ∧ rest = right.characters ++ [')']) ∨
      comparator = .lessEqual ∧ ∃ target high, condition = .between target operand high false ∧
        rest = target.characters ++ said "<=" (high.characters ++ [')']) := by
  have other := symbol_ne_word comparator
  generalize symbol : comparator.symbol = word at leads other
  cases leads_of_lead leads with
  | compare left comparator' right =>
    obtain rfl := comparator_unique symbol
    exact .inl ⟨right, rfl, rfl⟩
  | between target low high =>
    have lessEqual : comparator.symbol = Comparator.symbol .lessEqual := symbol
    exact .inr ⟨comparator_unique lessEqual, target, high, rfl, rfl⟩
  | like | within | isNull => simp at other

theorem like_of_lead {condition : Condition} {operand : Operand} {rest : List Char}
    (leads : condition.lead? = some (operand, "LIKE", rest)) :
    ∃ pattern, condition = .like operand pattern false ∧
      rest = (Text.quoted pattern).toList ++ [')'] := by
  generalize same : "LIKE" = word at leads
  cases leads_of_lead leads with
  | like target pattern => exact ⟨pattern, rfl, rfl⟩
  | compare left comparator right => exact absurd (by simp [← same]) (symbol_ne_word comparator)
  | between | within | isNull => simp at same

theorem within_of_lead {condition : Condition} {operand : Operand} {rest : List Char}
    (leads : condition.lead? = some (operand, "IN", rest)) :
    ∃ items, condition = .within operand items false ∧
      rest = (Value.array items).characters ++ [')'] := by
  generalize same : "IN" = word at leads
  cases leads_of_lead leads with
  | within target items => exact ⟨items, rfl, rfl⟩
  | compare left comparator right => exact absurd (by simp [← same]) (symbol_ne_word comparator)
  | like | between | isNull => simp at same

theorem isNull_of_lead {condition : Condition} {operand : Operand} {rest : List Char}
    (leads : condition.lead? = some (operand, "IS", rest)) :
    ∃ negated, condition = .isNull operand negated ∧
      rest = if negated then "NOT NULL)".toList else "NULL)".toList := by
  generalize same : "IS" = word at leads
  cases leads_of_lead leads with
  | isNull target negated => exact ⟨negated, rfl, rfl⟩
  | compare left comparator right => exact absurd (by simp [← same]) (symbol_ne_word comparator)
  | like | between | within => simp at same

theorem bracket_ne_said {operand operand' : Operand} (formed : operand.WellFormed)
    (formed' : operand'.WellFormed) {word : String}
    (plain : ∀ character ∈ word.toList, (character != ' ') = true)
    (other : ∀ operation : Arithmetic, operation.symbol ≠ word) (rest rest' : List Char) :
    operand.characters ++ ')' :: rest ≠ operand'.characters ++ said word rest' := by
  intro same
  have behind := (Operand.told formed formed' (endsArithmetic_of_bracket rest)
    (endsArithmetic_of_said plain other rest') same).2
  exact said_ne_bracket word rest' rest behind.symm

theorem lessEqual_word : (∀ character ∈ "<=".toList, (character != ' ') = true) ∧
    ∀ operation : Arithmetic, operation.symbol ≠ "<=" :=
  ⟨List.all_eq_true.mp rfl, fun operation => by cases operation <;> decide⟩

theorem range_unique {target high target' high' : Operand} (formed : target.WellFormed)
    (formedHigh : high.WellFormed) (formed' : target'.WellFormed) (formedHigh' : high'.WellFormed)
    {rest rest' : List Char}
    (same : target.characters ++ said "<=" (high.characters ++ ')' :: rest) =
      target'.characters ++ said "<=" (high'.characters ++ ')' :: rest')) :
    target.normal = target'.normal ∧ high.normal = high'.normal ∧ rest = rest' := by
  have ends (rest : List Char) := endsArithmetic_of_said lessEqual_word.1 lessEqual_word.2 rest
  obtain ⟨first, behind⟩ := Operand.told formed formed' (ends _) (ends _) same
  obtain ⟨second, behind⟩ := Operand.told formedHigh formedHigh' (endsArithmetic_of_bracket rest)
    (endsArithmetic_of_bracket rest') (said_unique lessEqual_word.1 lessEqual_word.1 behind).2
  exact ⟨first, second, (List.cons.inj behind).2⟩

/-- What is said of operands that read alike determines the condition. -/
theorem lead_unique {condition condition' : Condition} (formed : condition.WellFormed)
    (formed' : condition'.WellFormed) {operand operand' : Operand} {word : String}
    {rest rest' : List Char} (leads : condition.lead? = some (operand, word, rest))
    (leads' : condition'.lead? = some (operand', word, rest')) (equal : operand.normal = operand'.normal)
    {behind behind' : List Char} (same : rest ++ behind = rest' ++ behind') :
    condition.normal = condition'.normal ∧ behind = behind' := by
  cases leads_of_lead leads with
  | compare left comparator right =>
    rcases compare_of_lead leads' with ⟨right', rfl, rfl⟩ | ⟨rfl, target', high', rfl, rfl⟩
    · simp only [List.append_assoc, List.cons_append, List.nil_append] at same
      obtain ⟨second, last⟩ := Operand.told formed.2 formed'.2 (endsArithmetic_of_bracket behind)
        (endsArithmetic_of_bracket behind') same
      exact ⟨by rw [normal, normal, equal, second], (List.cons.inj last).2⟩
    · simp only [List.append_assoc, List.cons_append, List.nil_append, said_append] at same
      exact absurd same
        (bracket_ne_said formed.2 formed'.1 lessEqual_word.1 lessEqual_word.2 behind _)
  | like target pattern =>
    obtain ⟨pattern', rfl, rfl⟩ := like_of_lead leads'
    simp only [List.append_assoc, List.cons_append, List.nil_append] at same
    obtain ⟨rfl, last⟩ := Text.quoted_unique same
    exact ⟨by rw [normal, normal, equal], (List.cons.inj last).2⟩
  | between target low high =>
    have lessEqual : condition'.lead? = some (operand', Comparator.symbol .lessEqual, rest') := leads'
    rcases compare_of_lead lessEqual with ⟨right', rfl, rfl⟩ | ⟨_, target', high', rfl, rfl⟩
    · simp only [List.append_assoc, List.cons_append, List.nil_append, said_append] at same
      exact absurd same.symm
        (bracket_ne_said formed'.2 formed.1 lessEqual_word.1 lessEqual_word.2 behind' _)
    · simp only [List.append_assoc, List.cons_append, List.nil_append, said_append] at same
      obtain ⟨first, second, last⟩ :=
        range_unique formed.1 formed.2.2 formed'.1 formed'.2.2 same
      exact ⟨by rw [normal, normal, equal, first, second], last⟩
  | within target items =>
    obtain ⟨items', rfl, rfl⟩ := within_of_lead leads'
    simp only [List.append_assoc, List.cons_append, List.nil_append] at same
    obtain ⟨list, last⟩ := Value.characters_unique (.array items) formed.2.1
      (show Value.isFinite (.array items') = true from formed'.2.1)
      (delimited_cons (by decide) behind) (delimited_cons (by decide) behind') same
    exact ⟨by rw [normal, normal, equal, Value.array.inj list], (List.cons.inj last).2⟩
  | isNull target negated =>
    obtain ⟨negated', rfl, rfl⟩ := isNull_of_lead leads'
    cases negated <;> cases negated' <;> simp_all [normal]

/-! What stands behind the first bracket. -/

/-- The condition that a predicate starts with behind its bracket, and what follows the
bracket that closes it. -/
def inside? : Condition → Option (Condition × List Char)
  | .conjunction left right => some (left, said "AND" ('(' :: (right.characters ++ [')'])))
  | .disjunction left right => some (left, said "OR" ('(' :: (right.characters ++ [')'])))
  | .nested condition => some (condition, [])
  | _ => none

theorem inside_cases {condition inner : Condition} {rest : List Char}
    (inside : condition.inside? = some (inner, rest)) :
    (∃ right, condition = .conjunction inner right ∧
      rest = said "AND" ('(' :: (right.characters ++ [')']))) ∨
    (∃ right, condition = .disjunction inner right ∧
      rest = said "OR" ('(' :: (right.characters ++ [')']))) ∨
    condition = .nested inner ∧ rest = [] := by
  unfold inside? at inside
  split at inside
  case h_4 => contradiction
  all_goals
    obtain ⟨rfl, rfl⟩ := Prod.mk.inj (Option.some.inj inside)
    simp

theorem characters_of_inside {condition inner : Condition} {rest : List Char}
    (inside : condition.inside? = some (inner, rest)) :
    condition.characters = '(' :: (inner.characters ++ ')' :: rest) := by
  unfold inside? at inside
  split at inside
  case h_4 => contradiction
  all_goals
    obtain ⟨rfl, rfl⟩ := Prod.mk.inj (Option.some.inj inside)
    simp [characters, predicate, said]

theorem characters_contains (function : Containment) (target : Path) (value : Option Value) :
    (contains function target value).characters = '(' :: (function.word.toList ++ '(' ::
      (target.characters ++ (value.elim [] (fun inner => ',' :: ' ' :: inner.characters) ++
        [')', ')']))) := by
  cases value <;> simp [characters, predicate, ← Path.predicate_toList, Value.characters]

theorem characters_denied (target low high : Operand) :
    (between target low high true).characters = '(' :: ("not".toList ++ ' ' :: '(' ::
      (low.characters ++ said "<=" (target.characters ++ said "<=" (high.characters ++ [')', ')'])))) := by
  simp [characters, predicate, denied, said, Operand.characters]

theorem characters_negation (condition : Condition) :
    (negation condition).characters = "NOT".toList ++ ' ' :: condition.characters := by
  simp [characters, predicate]

/-- What a predicate starts with. -/
inductive Opening where
  | negation
  | operand
  | function
  | denial
  | condition
deriving DecidableEq

def Opening.rank : Opening → Nat
  | .negation => 0
  | .operand => 1
  | .function => 2
  | .denial => 3
  | .condition => 4

def opening : Condition → Opening
  | .negation _ => .negation
  | .compare _ _ _ | .like _ _ _ | .within _ _ _ | .isNull _ _ => .operand
  | .between _ _ _ negated => if negated then .denial else .operand
  | .contains _ _ _ => .function
  | .conjunction _ _ | .disjunction _ _ | .nested _ => .condition

theorem lead_of_opening {condition : Condition} (formed : condition.WellFormed)
    (opens : condition.opening = .operand) : ∃ operand word rest,
      condition.lead? = some (operand, word, rest) ∧ operand.WellFormed := by
  cases condition with
  | compare left comparator right => exact ⟨_, _, _, rfl, formed.1⟩
  | like target pattern negated =>
    obtain ⟨own, rfl⟩ := formed
    exact ⟨_, _, _, rfl, own⟩
  | between target low high negated =>
    cases negated with
    | true => contradiction
    | false => exact ⟨_, _, _, rfl, formed.2.1⟩
  | within target items negated =>
    obtain ⟨own, _, rfl⟩ := formed
    exact ⟨_, _, _, rfl, own⟩
  | isNull target negated => cases negated <;> exact ⟨_, _, _, rfl, formed⟩
  | contains | negation | conjunction | disjunction | nested => contradiction

theorem inside_of_opening {condition : Condition} (formed : condition.WellFormed)
    (opens : condition.opening = .condition) : ∃ inner rest,
      condition.inside? = some (inner, rest) ∧ inner.WellFormed := by
  cases condition with
  | between target low high negated => cases negated <;> contradiction
  | conjunction left right => exact ⟨_, _, rfl, formed.1⟩
  | disjunction left right => exact ⟨_, _, rfl, formed.1⟩
  | nested condition => exact ⟨_, _, rfl, formed⟩
  | compare | like | within | isNull | contains | negation => contradiction

theorem denied_of_opening {condition : Condition} (opens : condition.opening = .denial) :
    ∃ target low high, condition = .between target low high true := by
  cases condition with
  | between target low high negated =>
    cases negated with
    | true => exact ⟨_, _, _, rfl⟩
    | false => contradiction
  | _ => contradiction

theorem contains_of_opening {condition : Condition} (opens : condition.opening = .function) :
    ∃ function target value, condition = .contains function target value := by
  cases condition with
  | between target low high negated => cases negated <;> contradiction
  | contains function target value => exact ⟨_, _, _, rfl⟩
  | _ => contradiction

theorem negation_of_opening {condition : Condition} (opens : condition.opening = .negation) :
    ∃ inner, condition = .negation inner := by
  cases condition with
  | between target low high negated => cases negated <;> contradiction
  | negation inner => exact ⟨_, rfl⟩
  | _ => contradiction

theorem bracket_of_opening {condition : Condition} (formed : condition.WellFormed)
    (other : condition.opening ≠ .negation) : ∃ others, condition.characters = '(' :: others := by
  cases opens : condition.opening with
  | negation => exact absurd opens other
  | operand =>
    obtain ⟨_, _, _, leads, _⟩ := lead_of_opening formed opens
    exact ⟨_, characters_of_lead leads⟩
  | function =>
    obtain ⟨_, _, _, rfl⟩ := contains_of_opening opens
    exact ⟨_, characters_contains _ _ _⟩
  | denial =>
    obtain ⟨_, _, _, rfl⟩ := denied_of_opening opens
    exact ⟨_, characters_denied _ _ _⟩
  | condition =>
    obtain ⟨_, _, inside, _⟩ := inside_of_opening formed opens
    exact ⟨_, characters_of_inside inside⟩

theorem characters_head {condition : Condition} (formed : condition.WellFormed) :
    ∃ others, condition.characters = '(' :: others ∨ condition.characters = 'N' :: others := by
  by_cases opens : condition.opening = .negation
  · obtain ⟨inner, rfl⟩ := negation_of_opening opens
    exact ⟨_, .inr (characters_negation inner)⟩
  · obtain ⟨others, bracket⟩ := bracket_of_opening formed opens
    exact ⟨others, .inl bracket⟩

theorem function_word (function : Containment) : function.word ∈ Operand.otherWords := by
  cases function <;> decide

/-- No term starts like the condition. -/
def Apart (condition : Condition) : Prop :=
  ∀ ⦃operand : Operand⦄, operand.isTerm = true → operand.WellFormed →
    ∀ ⦃rest rest' : List Char⦄, Delimited rest →
      operand.characters ++ rest ≠ condition.characters ++ rest'

theorem apart_of_lead {condition : Condition} (formed : condition.WellFormed)
    (opens : condition.opening = .operand) : condition.Apart := by
  intro operand term wellFormed rest rest' delimited same
  obtain ⟨leading, word, others, leads, own⟩ := lead_of_opening formed opens
  obtain ⟨other, plain⟩ := word_of_lead leads
  rw [characters_of_lead leads, List.cons_append, List.append_assoc, said_append] at same
  obtain ⟨inner, rfl, innerFormed, behind⟩ := Operand.nested_of_bracket term wellFormed same
  exact bracket_ne_said innerFormed own plain other _ _ behind.symm

theorem apart_of_inside {condition inner : Condition} {tail : List Char}
    (inside : condition.inside? = some (inner, tail)) (apart : inner.Apart) : condition.Apart := by
  intro operand term wellFormed rest rest' delimited same
  rw [characters_of_inside inside, List.cons_append, List.append_assoc] at same
  obtain ⟨bracketed, rfl, formed, behind⟩ := Operand.nested_of_bracket term wellFormed same
  obtain ⟨⟨leads, leadsFormed⟩, _⟩ := Operand.wellFormed_terms formed
  rw [Operand.characters_eq, List.append_assoc] at behind
  exact apart leads leadsFormed
    (Operand.operations_delimited _ (delimited_cons (by decide) rest)) behind.symm

theorem apart_of_word {condition : Condition} {word : String} {tail : List Char}
    (other : word ∈ Operand.otherWords) (ends : Text.Ends Lexeme.isWordPart tail) (filled : tail ≠ [])
    (text : condition.characters = '(' :: (word.toList ++ tail)) : condition.Apart := by
  intro operand term wellFormed rest rest' delimited same
  rw [text, List.cons_append, List.append_assoc] at same
  obtain ⟨inner, rfl, formed, behind⟩ := Operand.nested_of_bracket term wellFormed same
  have stops : Text.Ends Lexeme.isWordPart (tail ++ rest') := by
    cases tail with
    | nil => contradiction
    | cons character tail => exact Text.ends_cons (ends character rfl) _
  exact Operand.characters_ne_word formed other (delimited_cons (by decide) rest) stops behind.symm

/-- What starts an operand starts no condition, however many brackets open first. -/
theorem apart {condition : Condition} (formed : condition.WellFormed) : condition.Apart := by
  induction condition with
  | compare | like | within | isNull => exact apart_of_lead formed rfl
  | between target low high negated =>
    cases negated with
    | false => exact apart_of_lead formed rfl
    | true =>
      exact apart_of_word (by decide) (Text.ends_cons (by decide) _) (by simp)
        (characters_denied target low high)
  | contains function target value =>
    exact apart_of_word (function_word function) (Text.ends_cons (by decide) _) (by simp)
      (characters_contains function target value)
  | negation condition =>
    intro operand term wellFormed rest rest' delimited same
    rw [characters_negation, List.append_assoc] at same
    exact Operand.characters_ne_word wellFormed (by decide) delimited
      (Text.ends_cons (by decide) _) same
  | conjunction left right ih _ => exact apart_of_inside rfl (ih formed.1)
  | disjunction left right ih _ => exact apart_of_inside rfl (ih formed.1)
  | nested condition ih => exact apart_of_inside rfl (ih formed)

theorem lead_ne_condition {operand : Operand} (own : operand.WellFormed) {condition : Condition}
    (formed : condition.WellFormed) {rest rest' : List Char} (delimited : Delimited rest) :
    operand.characters ++ rest ≠ condition.characters ++ rest' := by
  obtain ⟨⟨leads, leadsFormed⟩, _⟩ := Operand.wellFormed_terms own
  rw [Operand.characters_eq, List.append_assoc]
  exact apart formed leads leadsFormed (Operand.operations_delimited _ delimited)

/-- What the operand starts, no other predicate has behind its bracket. -/
theorem lead_ne_of_opening {operand : Operand} (own : operand.WellFormed) {condition : Condition}
    (formed : condition.WellFormed) (later : Opening.rank .operand < condition.opening.rank)
    {rest rest' : List Char} (delimited : Delimited rest) :
    '(' :: (operand.characters ++ rest) ≠ condition.characters ++ rest' := by
  intro same
  cases opens : condition.opening with
  | negation | operand => simp [opens, Opening.rank] at later
  | function =>
    obtain ⟨function, target, value, rfl⟩ := contains_of_opening opens
    rw [characters_contains, List.cons_append, List.append_assoc] at same
    exact Operand.characters_ne_word own (function_word function) delimited
      (Text.ends_cons (by decide) _) (List.cons.inj same).2
  | denial =>
    obtain ⟨target, low, high, rfl⟩ := denied_of_opening opens
    rw [characters_denied, List.cons_append, List.append_assoc] at same
    exact Operand.characters_ne_word own (by decide) delimited (Text.ends_cons (by decide) _)
      (List.cons.inj same).2
  | condition =>
    obtain ⟨inner, tail, inside, innerFormed⟩ := inside_of_opening formed opens
    rw [characters_of_inside inside, List.cons_append, List.append_assoc] at same
    exact lead_ne_condition own innerFormed delimited (List.cons.inj same).2

/-- The characters behind the bracket of a predicate that starts with no operand. -/
def Opening.seconds : Opening → List Char
  | .negation | .operand => []
  | .function => ['J', 'A']
  | .denial => ['n']
  | .condition => ['(', 'N']

theorem Opening.seconds_unique {one other : Opening} {second : Char} (own : second ∈ one.seconds)
    (others : second ∈ other.seconds) : one = other := by
  cases one <;> cases other <;> grind [Opening.seconds]

theorem second_of_opening {condition : Condition} (formed : condition.WellFormed)
    (later : Opening.rank .operand < condition.opening.rank) :
    ∃ second others, condition.characters = '(' :: second :: others ∧
      second ∈ condition.opening.seconds := by
  cases opens : condition.opening with
  | negation | operand => simp [opens, Opening.rank] at later
  | function =>
    obtain ⟨function, target, value, rfl⟩ := contains_of_opening opens
    cases function <;> exact ⟨_, _, characters_contains _ target value, by decide⟩
  | denial =>
    obtain ⟨target, low, high, rfl⟩ := denied_of_opening opens
    exact ⟨_, _, characters_denied target low high, by decide⟩
  | condition =>
    obtain ⟨inner, tail, inside, innerFormed⟩ := inside_of_opening formed opens
    rw [characters_of_inside inside]
    obtain ⟨others, bracket | word⟩ := characters_head innerFormed
    · exact ⟨'(', others ++ ')' :: tail, by rw [bracket, List.cons_append], by decide⟩
    · exact ⟨'N', others ++ ')' :: tail, by rw [word, List.cons_append], by decide⟩

theorem characters_ne_of_rank {condition condition' : Condition} (formed : condition.WellFormed)
    (formed' : condition'.WellFormed) (less : condition.opening.rank < condition'.opening.rank)
    (rest rest' : List Char) : condition.characters ++ rest ≠ condition'.characters ++ rest' := by
  intro same
  cases opens : condition.opening with
  | negation =>
    obtain ⟨inner, rfl⟩ := negation_of_opening opens
    obtain ⟨others, bracket⟩ := bracket_of_opening formed' fun denies => by simp [opens, denies] at less
    rw [characters_negation, bracket] at same
    exact absurd (List.cons.inj same).1 (by decide)
  | operand =>
    obtain ⟨operand, word, tail, leads, own⟩ := lead_of_opening formed opens
    have ends := (endsArithmetic_of_said (word_of_lead leads).2 (word_of_lead leads).1 (tail ++ rest)).1
    rw [characters_of_lead leads, List.cons_append, List.append_assoc, said_append] at same
    exact lead_ne_of_opening own formed' (opens ▸ less) ends same
  | function | denial | condition =>
    have later : Opening.rank .operand < condition.opening.rank := by rw [opens]; decide
    obtain ⟨second, others, text, own⟩ := second_of_opening formed later
    obtain ⟨second', others', text', own'⟩ := second_of_opening formed' (Nat.lt_trans later less)
    rw [text, text'] at same
    obtain rfl := (List.cons.inj (List.cons.inj same).2).1
    rw [Opening.seconds_unique own own'] at less
    exact absurd less (Nat.lt_irrefl _)

theorem opening_unique {condition condition' : Condition} (formed : condition.WellFormed)
    (formed' : condition'.WellFormed) {rest rest' : List Char}
    (same : condition.characters ++ rest = condition'.characters ++ rest') :
    condition.opening = condition'.opening := by
  have injective : ∀ one other : Opening, one.rank = other.rank → one = other := by
    intro one other
    cases one <;> cases other <;> decide
  rcases Nat.lt_trichotomy condition.opening.rank condition'.opening.rank with less | equal | more
  · exact absurd same (characters_ne_of_rank formed formed' less rest rest')
  · exact injective _ _ equal
  · exact absurd same.symm (characters_ne_of_rank formed' formed more rest' rest)

/-! Predicates determine conditions. -/

/-- What may follow a predicate: nothing, or a closing bracket. -/
def EndsPredicate (text : List Char) : Prop :=
  ∀ character ∈ text.head?, character = ')'

theorem endsPredicate_of_bracket (rest : List Char) : EndsPredicate (')' :: rest) := by
  simp [EndsPredicate]

/-- In front of what ends it, the predicate of the condition is that of no condition with
another normal form. -/
def Told (condition : Condition) : Prop :=
  ∀ ⦃condition' : Condition⦄, condition'.WellFormed → ∀ ⦃rest rest' : List Char⦄,
    EndsPredicate rest → EndsPredicate rest' →
      condition.characters ++ rest = condition'.characters ++ rest' →
        condition.normal = condition'.normal ∧ rest = rest'

theorem told_of_lead {condition : Condition} (formed : condition.WellFormed)
    (opens : condition.opening = .operand) : condition.Told := by
  intro condition' formed' rest rest' _ _ same
  have opens' := (opening_unique formed formed' same).symm.trans opens
  obtain ⟨operand, word, tail, leads, own⟩ := lead_of_opening formed opens
  obtain ⟨operand', word', tail', leads', own'⟩ := lead_of_opening formed' opens'
  obtain ⟨other, plain⟩ := word_of_lead leads
  obtain ⟨other', plain'⟩ := word_of_lead leads'
  simp only [characters_of_lead leads, characters_of_lead leads', List.cons_append,
    List.append_assoc, said_append, List.cons.injEq, true_and] at same
  obtain ⟨equal, behind⟩ := Operand.told own own' (endsArithmetic_of_said plain other _)
    (endsArithmetic_of_said plain' other' _) same
  obtain ⟨rfl, last⟩ := said_unique plain plain' behind
  exact lead_unique formed formed' leads leads' equal last

/-- The second argument of a containment, if there is one, and the brackets behind it. -/
def arguments (value : Option Value) (rest : List Char) : List Char :=
  value.elim [] (fun inner => ',' :: ' ' :: inner.characters) ++ ')' :: ')' :: rest

theorem arguments_delimited (value : Option Value) (rest : List Char) :
    Delimited (arguments value rest) := by
  cases value <;> exact delimited_cons (by decide) _

theorem arguments_unique {value value' : Option Value} {rest rest' : List Char}
    (finite : ∀ inner ∈ value, inner.isFinite = true) (finite' : ∀ inner ∈ value', inner.isFinite = true)
    (same : arguments value rest = arguments value' rest') : value = value' ∧ rest = rest' := by
  cases value with
  | none =>
    cases value' with
    | none => exact ⟨rfl, (List.cons.inj (List.cons.inj same).2).2⟩
    | some inner' => simp [arguments] at same
  | some inner =>
    cases value' with
    | none => simp [arguments] at same
    | some inner' =>
      simp only [arguments, Option.elim_some, List.cons_append, List.cons.injEq, true_and] at same
      obtain ⟨rfl, last⟩ := Value.characters_unique inner (finite inner rfl) (finite' inner' rfl)
        (delimited_cons (by decide) _) (delimited_cons (by decide) _) same
      exact ⟨rfl, (List.cons.inj (List.cons.inj last).2).2⟩

theorem told_contains {function : Containment} {target : Path} {value : Option Value}
    (formed : (contains function target value).WellFormed) :
    (contains function target value).Told := by
  intro condition' formed' rest rest' _ _ same
  obtain ⟨function', target', value', rfl⟩ :=
    contains_of_opening (opening_unique formed formed' same).symm
  have words (function : Containment) : ∀ character ∈ function.word.toList,
      (character != '(') = true := by cases function <;> exact List.all_eq_true.mp rfl
  have bracket (rest : List Char) : Text.Ends (· != '(') ('(' :: rest) :=
    Text.ends_cons (by decide) rest
  simp only [characters_contains, List.cons_append, List.append_assoc, List.nil_append,
    List.cons.injEq, true_and] at same
  obtain ⟨word, behind⟩ := Text.run_unique (words function) (words function') (bracket _) (bracket _) same
  obtain rfl : function = function' := by
    revert word
    cases function <;> cases function' <;> decide
  obtain ⟨rfl, second⟩ := target.characters_unique formed.1 formed'.1
    (arguments_delimited value rest) (arguments_delimited value' rest') (List.cons.inj behind).2
  obtain ⟨rfl, last⟩ := arguments_unique formed.2 formed'.2 second
  exact ⟨rfl, last⟩

theorem told_denied {target low high : Operand} (formed : (between target low high true).WellFormed) :
    (between target low high true).Told := by
  intro condition' formed' rest rest' _ _ same
  obtain ⟨target', low', high', rfl⟩ :=
    denied_of_opening (opening_unique formed formed' same).symm
  simp only [characters_denied, List.cons_append, List.append_assoc, List.nil_append, said_append,
    List.append_cancel_left_eq, List.cons.injEq, true_and] at same
  have ends (rest : List Char) := endsArithmetic_of_said lessEqual_word.1 lessEqual_word.2 rest
  obtain ⟨first, behind⟩ := Operand.told formed.2.1 formed'.2.1 (ends _) (ends _) same
  obtain ⟨second, third, last⟩ := range_unique formed.1 formed.2.2 formed'.1 formed'.2.2
    (said_unique lessEqual_word.1 lessEqual_word.1 behind).2
  exact ⟨by rw [normal, normal, first, second, third], (List.cons.inj last).2⟩

theorem told_negation {condition : Condition} (formed : condition.WellFormed)
    (told : condition.Told) : (negation condition).Told := by
  intro condition' formed' rest rest' ends ends' same
  obtain ⟨inner', rfl⟩ := negation_of_opening
    (opening_unique (show (negation condition).WellFormed from formed) formed' same).symm
  simp only [characters_negation, List.append_assoc, List.cons_append,
    List.append_cancel_left_eq, List.cons.injEq, true_and] at same
  obtain ⟨equal, behind⟩ := told (show inner'.WellFormed from formed') ends ends' same
  exact ⟨by rw [normal, normal, equal], behind⟩

/-- What follows the bracketed condition inside tells the condition. -/
theorem told_of_inside {condition inner : Condition} {tail : List Char}
    (formed : condition.WellFormed) (opens : condition.opening = .condition)
    (inside : condition.inside? = some (inner, tail)) (told : inner.Told)
    (finish : ∀ ⦃condition' inner' : Condition⦄ ⦃tail' : List Char⦄, condition'.WellFormed →
      condition'.inside? = some (inner', tail') → inner.normal = inner'.normal →
      ∀ ⦃rest rest' : List Char⦄, EndsPredicate rest → EndsPredicate rest' →
        tail ++ rest = tail' ++ rest' → condition.normal = condition'.normal ∧ rest = rest') :
    condition.Told := by
  intro condition' formed' rest rest' ends ends' same
  have opens' := (opening_unique formed formed' same).symm.trans opens
  obtain ⟨inner', tail', inside', innerFormed'⟩ := inside_of_opening formed' opens'
  simp only [characters_of_inside inside, characters_of_inside inside', List.cons_append,
    List.append_assoc, List.cons.injEq, true_and] at same
  obtain ⟨equal, behind⟩ := told innerFormed' (endsPredicate_of_bracket _)
    (endsPredicate_of_bracket _) same
  exact finish formed' inside' equal ends ends' (List.cons.inj behind).2

theorem endsPredicate_ne_said {rest : List Char} (ends : EndsPredicate rest) (word : String)
    (behind : List Char) : rest ≠ said word behind := by
  rintro rfl
  exact absurd (ends ' ' rfl) (by decide)

theorem connectives_plain : (∀ character ∈ "AND".toList, (character != ' ') = true) ∧
    ∀ character ∈ "OR".toList, (character != ' ') = true :=
  ⟨List.all_eq_true.mp rfl, List.all_eq_true.mp rfl⟩

theorem right_unique {right right' : Condition} (formed' : right'.WellFormed) (told : right.Told)
    {word : String} (plain : ∀ character ∈ word.toList, (character != ' ') = true)
    {rest rest' : List Char}
    (same : said word ('(' :: (right.characters ++ [')'])) ++ rest =
      said word ('(' :: (right'.characters ++ [')'])) ++ rest') :
    right.normal = right'.normal ∧ rest = rest' := by
  rw [said_append, said_append] at same
  have inner := (said_unique plain plain same).2
  simp only [List.cons_append, List.append_assoc, List.nil_append, List.cons.injEq, true_and] at inner
  obtain ⟨equal, last⟩ := told formed' (endsPredicate_of_bracket rest)
    (endsPredicate_of_bracket rest') inner
  exact ⟨equal, (List.cons.inj last).2⟩

theorem said_and_ne_or (rest rest' behind behind' : List Char) :
    said "AND" rest ++ behind ≠ said "OR" rest' ++ behind' := by
  intro same
  rw [said_append, said_append] at same
  exact absurd (said_unique connectives_plain.1 connectives_plain.2 same).1 (by decide)

/-- No two conditions with different normal forms share a predicate. -/
theorem told {condition : Condition} (formed : condition.WellFormed) : condition.Told := by
  induction condition with
  | compare | like | within | isNull => exact told_of_lead formed rfl
  | between target low high negated =>
    cases negated with
    | false => exact told_of_lead formed rfl
    | true => exact told_denied formed
  | contains function target value => exact told_contains formed
  | negation condition ih => exact told_negation formed (ih formed)
  | conjunction left right ihLeft ihRight =>
    apply told_of_inside formed rfl rfl (ihLeft formed.1)
    intro condition' inner' tail' formed' inside' equal rest rest' ends ends' same
    rcases inside_cases inside' with ⟨right', rfl, rfl⟩ | ⟨right', rfl, rfl⟩ | ⟨rfl, rfl⟩
    · obtain ⟨second, last⟩ := right_unique formed'.2 (ihRight formed.2) connectives_plain.1 same
      exact ⟨by rw [normal, normal, equal, second], last⟩
    · exact absurd same (said_and_ne_or _ _ _ _)
    · rw [said_append] at same
      exact absurd same.symm (endsPredicate_ne_said ends' _ _)
  | disjunction left right ihLeft ihRight =>
    apply told_of_inside formed rfl rfl (ihLeft formed.1)
    intro condition' inner' tail' formed' inside' equal rest rest' ends ends' same
    rcases inside_cases inside' with ⟨right', rfl, rfl⟩ | ⟨right', rfl, rfl⟩ | ⟨rfl, rfl⟩
    · exact absurd same.symm (said_and_ne_or _ _ _ _)
    · obtain ⟨second, last⟩ := right_unique formed'.2 (ihRight formed.2) connectives_plain.2 same
      exact ⟨by rw [normal, normal, equal, second], last⟩
    · rw [said_append] at same
      exact absurd same.symm (endsPredicate_ne_said ends' _ _)
  | nested condition ih =>
    apply told_of_inside formed rfl rfl (ih formed)
    intro condition' inner' tail' formed' inside' equal rest rest' ends ends' same
    rcases inside_cases inside' with ⟨right', rfl, rfl⟩ | ⟨right', rfl, rfl⟩ | ⟨rfl, rfl⟩
    · rw [said_append] at same
      exact absurd same (endsPredicate_ne_said ends _ _)
    · rw [said_append] at same
      exact absurd same (endsPredicate_ne_said ends _ _)
    · exact ⟨by rw [normal, normal, equal], same⟩

end VectorQuery.Condition
