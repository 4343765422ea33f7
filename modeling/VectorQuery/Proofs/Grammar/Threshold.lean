import VectorQuery.Proofs.Grammar.Agreement
import VectorQuery.Proofs.Grammar.Nesting
import VectorQuery.Proofs.Grammar.Replay
import VectorQuery.Statement

/-! The limit on nesting is a threshold. A rule for filters or values reads the same under
every limit that is not below the nesting of what it reads, and says under every other one
that the limit was met. -/
namespace VectorQuery.Grammar

/-! Literals. -/

variable {levels bound : Nat}

theorem valueWith_replays {list list' : Rule (List Value)} {mapping mapping' : Rule Mapping}
    (lists : Replays (fun items => (Value.array items).nesting ≤ bound) list list')
    (mappings : Replays (fun mapping => mapping.toValue.nesting ≤ bound) mapping mapping') :
    Replays (fun value => value.nesting ≤ bound) (valueWith list mapping)
      (valueWith list' mapping') := by
  refine peek_replays fun kind => ?_
  split
  · exact map_replays lists fun _ held => held
  · exact map_replays mappings fun _ held => held
  · exact take_replays _

section
variable {item item' : Rule Value} (sound : Sound item (ValuePhrase levels))
  (shrinking : Shrinking item') (each : Replays (fun value => value.nesting ≤ bound) item item')
include sound shrinking each

theorem listOf_replays :
    Replays (fun items => (Value.array items).nesting ≤ bound + 1) (listOf item) (listOf item') := by
  refine then_replays (take_taking _) fun _ => found_replays (pure_replays []) ?_ _
  have items := (separated_replays sound.shrinking shrinking each).weaken
    fun items => Value.array_nesting_le_iff.mp
  exact keep_replays items (take_taking _)

theorem entries_replays : Replays (fun entries => ∀ entry ∈ entries, entry.2.nesting ≤ bound)
    (many (entry item)) (many (entry item')) := by
  have one : Replays (fun found => ∀ entry ∈ found, entry.2.nesting ≤ bound) (entry item)
      (entry item') := by
    refine then_replays (accept_taking _) fun _ => found_replays (pure_replays none) ?_ _
    refine then_replays (take_taking _) fun key => then_replays (take_taking _) fun _ => ?_
    exact map_replays each fun value held => held _ rfl
  exact many_replays (entry_consuming sound.shrinking) (entry_consuming shrinking) one

/-- Without repeated keys, every value that was read is an entry of the mapping. -/
theorem mappingOf_replays : Replays (fun mapping => mapping.toValue.nesting ≤ bound + 1)
    (mappingOf item) (mappingOf item') := by
  refine ⟨(mappingOf_sound sound).taking, fun tokens mapping rest read unrepeated held => ?_⟩
  simp only [mappingOf, operator, bind_ok_iff, expect_ok_iff, pure_ok_iff] at read
  obtain ⟨_, _, ⟨opening, rfl, opens⟩, entries, after, loop, rfl, rfl⟩ := read
  obtain ⟨inner, closing, rfl, closes, phrase⟩ := entries_sound sound loop
  have distinct : (entries.map Prod.fst).Nodup :=
    unrepeated (List.suffix_refl _) (List.suffix_refl _) opens closes phrase
  rw [Mapping.ofList_of_distinct distinct] at held
  have behind : Unrepeated (inner ++ closing :: after) after :=
    unrepeated.inside (List.suffix_cons _ _) (List.suffix_refl _)
  have again := (entries_replays sound shrinking each).again loop behind
    (Value.object_nesting_le_iff.mp held)
  rw [mappingOf, operator, bind_of_ok (expect_cons opens _), bind_of_ok again, pure_apply]

end

theorem value_replays : Replays (fun result => result.nesting ≤ bound) (value levels)
    (value bound) := by
  induction levels generalizing bound with
  | zero =>
    rw [value_eq, value_eq]
    exact valueWith_replays (tooDeep_replays _) (tooDeep_replays _)
  | succ levels ih =>
    rw [value_eq, value_eq]
    have sound := value_sound levels
    refine valueWith_replays (replays_of_levels rfl (fun _ _ _ _ _ => Nat.succ_pos _) ?_)
      (replays_of_levels rfl (fun _ _ _ _ _ => Nat.succ_pos _) ?_)
    · intro fewer bound same
      obtain rfl := Nat.succ.inj same
      exact listOf_replays sound (value_sound bound).shrinking ih
    · intro fewer bound same
      obtain rfl := Nat.succ.inj same
      exact mappingOf_replays sound (value_sound bound).shrinking ih

theorem list_replays :
    Replays (fun items => (Value.array items).nesting ≤ bound) (list levels) (list bound) := by
  refine replays_of_levels rfl (fun _ _ _ _ _ => Nat.succ_pos _) fun fewer bound _ => ?_
  exact listOf_replays (value_sound fewer) (value_sound bound).shrinking value_replays

/-! Operands. -/

section
variable {bracket bracket' : Rule Operand}
  (brackets : Replays (fun operand => operand.nesting ≤ bound) bracket bracket')
include brackets

theorem primary_replays : Replays (fun operand => operand.nesting ≤ bound)
    (primary levels bracket) (primary bound bracket') := by
  refine peek_replays fun kind => ?_
  split
  · exact brackets
  · exact map_replays list_replays fun _ held => held
  · refine then_replays (take_taking _) fun _ => ?_
    exact map_replays (bracketed_replays (same_replays path_sound.taking)) fun _ held => held
  · exact map_replays (same_replays path_sound.taking) fun _ held => held
  · exact map_replays (take_replays _) fun _ held => held

theorem term_replays : Replays (fun operand => operand.nesting ≤ bound)
    (term levels bracket) (term bound bracket') := by
  refine peek_replays fun kind => ?_
  cases kind.bind TokenKind.sign? with
  | some sign =>
    exact then_replays (take_taking _) fun _ =>
      map_replays (primary_replays brackets) fun _ held => held
  | none => exact primary_replays brackets

end

theorem operation_replays {term term' : Rule Operand}
    (terms : Replays (fun operand => operand.nesting ≤ bound) term term') :
    Replays (fun found => ∀ step ∈ found, step.2.nesting ≤ bound) (operation term)
      (operation term') := by
  refine next?_replays fun following => ?_
  cases following with
  | none => exact pure_replays none
  | some token =>
    cases meaning : token.kind.arithmetic? with
    | some operation =>
      simp only [meaning]
      exact then_replays (take_taking _) fun _ => map_replays terms fun _ held => held _ rfl
    | none =>
      simp only [meaning]
      exact choice_replays (then_replays (take_taking _) fun _ => pure_replays _) (pure_replays none)

theorem nesting_foldl_binary {operations : List (Arithmetic × Operand)} {first : Operand} :
    (operations.foldl (fun left step => .binary left step.1 step.2) first).nesting ≤ bound ↔
      first.nesting ≤ bound ∧ ∀ step ∈ operations, step.2.nesting ≤ bound := by
  induction operations generalizing first with
  | nil => simp
  | cons step operations ih =>
    rw [List.foldl_cons, ih, Operand.nesting, Nat.max_le, List.forall_mem_cons, and_assoc]

theorem nesting_le_of_continued {bracket : Rule Operand} {first operand : Operand}
    {tokens rest : List Token}
    (read : continued levels bracket first tokens = .ok (operand, rest)) :
    first.nesting ≤ operand.nesting := by
  obtain ⟨operations, -, rfl⟩ := map_ok_iff.mp read
  exact (nesting_foldl_binary.mp (Nat.le_refl _)).1

section
variable {bracket bracket' : Rule Operand} (sound : Sound bracket (PrimaryPhrase levels))
  (sound' : Sound bracket' (PrimaryPhrase bound))
  (brackets : Replays (fun operand => operand.nesting ≤ bound) bracket bracket')
include sound sound' brackets

theorem continued_replays (first : Operand) : Replays (fun operand => operand.nesting ≤ bound)
    (continued levels bracket first) (continued bound bracket' first) := by
  refine map_replays (many_replays (operation_consuming (term_sound sound).shrinking)
    (operation_consuming (term_sound sound').shrinking)
    (operation_replays (term_replays brackets))) fun operations held => ?_
  exact (nesting_foldl_binary.mp held).2

theorem operandWith_replays : Replays (fun operand => operand.nesting ≤ bound)
    (operandWith levels bracket) (operandWith bound bracket') :=
  bind_replays (term_replays brackets) (continued_replays sound sound' brackets)
    fun _ _ _ _ read held => Nat.le_trans (nesting_le_of_continued read) held

end

theorem nestedOperand_replays : Replays (fun operand => operand.nesting ≤ bound)
    (nestedOperand levels) (nestedOperand bound) := by
  induction levels generalizing bound with
  | zero => exact tooDeep_replays _
  | succ levels ih =>
    refine replays_of_levels rfl (fun fewer tokens operand rest read => ?_) ?_
    · obtain ⟨inner, -, rfl⟩ := map_ok_iff.mp read
      exact Nat.succ_pos _
    · intro fewer bound same
      obtain rfl := Nat.succ.inj same
      refine map_replays (bracketed_replays ?_) fun _ held => Nat.le_of_succ_le_succ held
      exact operandWith_replays (nestedOperand_sound _) (nestedOperand_sound _) ih

theorem operand_replays : Replays (fun operand => operand.nesting ≤ bound) (operand levels)
    (operand bound) :=
  operandWith_replays (nestedOperand_sound _) (nestedOperand_sound _) nestedOperand_replays

theorem operations_replays (first : Operand) : Replays (fun operand => operand.nesting ≤ bound)
    (operations levels first) (operations bound first) :=
  continued_replays (nestedOperand_sound _) (nestedOperand_sound _) nestedOperand_replays first

/-! Filters. -/

theorem predicate_replays (target : Operand) : Replays (fun condition => condition.nesting ≤ bound)
    (predicate levels target) (predicate bound target) := by
  have negation := accept_taking (.keyword .not)
  refine peek_replays fun kind => ?_
  cases kind.bind TokenKind.comparator? with
  | some comparator =>
    refine then_replays (take_taking _) fun _ => map_replays operand_replays fun right held => ?_
    exact (Nat.max_le.mp held).2
  | none =>
    refine found_replays ?_ (then_replays negation fun negated => found_replays ?_
      (found_replays ?_ (found_replays ?_ refuse_replays _) _) _) _
    · exact then_replays negation fun _ => then_replays (take_taking _) fun _ => pure_replays _
    · exact then_replays (take_taking _) fun _ => pure_replays _
    · refine bind_replays operand_replays (fun low => then_replays (take_taking _) fun _ =>
        map_replays operand_replays fun high held => ?_) ?_
      · exact (Nat.max_le.mp (Nat.max_le.mp held).2).2
      · intro low tokens condition rest read held
        obtain ⟨_, _, -, read⟩ := bind_ok_iff.mp read
        obtain ⟨high, -, rfl⟩ := map_ok_iff.mp read
        exact (Nat.max_le.mp (Nat.max_le.mp held).2).1
    · exact map_replays list_replays fun items held => (Nat.max_le.mp held).2

theorem containment_replays (function : Containment) :
    Replays (fun condition => condition.nesting ≤ bound) (containment levels function)
      (containment bound function) := by
  refine then_replays (take_taking _) fun _ => bracketed_replays ?_
  refine then_replays path_sound.taking fun target => found_replays ?_ (pure_replays _) _
  exact map_replays value_replays fun _ held => held

def Lead.nesting : Lead → Nat
  | .condition whole => whole.nesting
  | .operand first => first.nesting

section
variable {nested nested' : Rule Lead}
  (deeper : Replays (fun lead => lead.nesting ≤ bound) nested nested')
include deeper

theorem leadWith_replays : Replays (fun lead => lead.nesting ≤ bound) (leadWith levels nested)
    (leadWith bound nested') := by
  refine peek_replays fun kind => choice_replays (bind_replays deeper (fun lead => ?_) ?_) ?_
  · cases lead with
    | condition condition => exact pure_replays _
    | operand first => exact map_replays (operations_replays first) fun _ held => held
  · intro lead tokens result rest read held
    cases lead with
    | condition condition =>
      obtain ⟨rfl, -⟩ := pure_ok_iff.mp read
      exact held
    | operand first =>
      obtain ⟨operand, continues, rfl⟩ := map_ok_iff.mp read
      exact Nat.le_trans (nesting_le_of_continued continues) held
  · cases kind.bind TokenKind.containment? with
    | some function => exact map_replays (containment_replays function) fun _ held => held
    | none => exact map_replays operand_replays fun _ held => held

theorem unaryWith_replays : Replays (fun condition => condition.nesting ≤ bound)
    (unaryWith levels nested) (unaryWith bound nested') := by
  refine bind_replays (leadWith_replays deeper) (fun lead => ?_) ?_
  · cases lead with
    | condition condition => exact pure_replays _
    | operand target => exact predicate_replays target
  · intro lead tokens condition rest read held
    cases lead with
    | condition _ =>
      obtain ⟨rfl, -⟩ := pure_ok_iff.mp read
      exact held
    | operand target =>
      obtain ⟨_, -, phrase⟩ := predicate_sound levels target read
      exact Nat.le_trans phrase.target_nesting_le held

end

theorem connective_replays {unary unary' : Rule Condition}
    (each : Replays (fun condition => condition.nesting ≤ bound) unary unary') :
    Replays (fun found => ∀ step ∈ found, step.2.nesting ≤ bound) (connective unary)
      (connective unary') := by
  refine found_replays ?_ (found_replays ?_ (pure_replays none) _) _
  · exact map_replays each fun _ held => held _ rfl
  · exact map_replays each fun _ held => held _ rfl

theorem nesting_join (connective : Connective) (left right : Condition) :
    (connective.join left right).nesting = max left.nesting right.nesting := by
  cases connective <;> rfl

theorem nesting_foldl_join {connectives : List (Connective × Condition)} {first : Condition} :
    (connectives.foldl (fun left step => step.1.join left step.2) first).nesting ≤ bound ↔
      first.nesting ≤ bound ∧ ∀ step ∈ connectives, step.2.nesting ≤ bound := by
  induction connectives generalizing first with
  | nil => simp
  | cons step connectives ih =>
    rw [List.foldl_cons, ih, nesting_join, Nat.max_le, List.forall_mem_cons, and_assoc]

theorem connected_replays {unary unary' : Rule Condition} (shrinking : Shrinking unary)
    (shrinking' : Shrinking unary')
    (each : Replays (fun condition => condition.nesting ≤ bound) unary unary')
    (first : Condition) :
    Replays (fun condition => condition.nesting ≤ bound) (connected unary first)
      (connected unary' first) := by
  refine map_replays (many_replays (connective_consuming shrinking)
    (connective_consuming shrinking') (connective_replays each)) fun connectives held => ?_
  exact (nesting_foldl_join.mp held).2

theorem nesting_le_of_connected {unary : Rule Condition} {first condition : Condition}
    {tokens rest : List Token} (read : connected unary first tokens = .ok (condition, rest)) :
    first.nesting ≤ condition.nesting := by
  obtain ⟨connectives, -, rfl⟩ := map_ok_iff.mp read
  exact (nesting_foldl_join.mp (Nat.le_refl _)).1

section
variable {nested nested' : Rule Lead} (sound : Sound nested (NestedPhrase levels))
  (sound' : Sound nested' (NestedPhrase bound))
  (deeper : Replays (fun lead => lead.nesting ≤ bound) nested nested')
include sound sound' deeper

theorem heldWith_replays : Replays (fun lead => lead.nesting ≤ bound) (heldWith levels nested)
    (heldWith bound nested') := by
  have joined (first : Condition) : Replays (fun lead : Lead => lead.nesting ≤ bound)
      (connected (unaryWith levels nested) first >>= fun whole => pure (Lead.condition whole))
      (connected (unaryWith bound nested') first >>= fun whole => pure (Lead.condition whole)) :=
    map_replays (connected_replays (unaryWith_sound sound).shrinking
      (unaryWith_sound sound').shrinking (unaryWith_replays deeper) first) fun _ held => held
  have carried {first : Condition} {tokens rest : List Token} {lead : Lead}
      (read : (connected (unaryWith levels nested) first >>= fun whole =>
        pure (Lead.condition whole)) tokens = .ok (lead, rest)) :
      first.nesting ≤ lead.nesting := by
    obtain ⟨whole, joins, rfl⟩ := map_ok_iff.mp read
    exact nesting_le_of_connected joins
  refine bind_replays (leadWith_replays deeper) (fun lead => ?_) ?_
  · cases lead with
    | condition first => exact joined first
    | operand target =>
      refine peek_replays fun kind => choice_replays (pure_replays _) ?_
      exact bind_replays (predicate_replays target) joined fun _ _ _ _ read held =>
        Nat.le_trans (carried read) held
  · intro lead tokens result rest read held
    cases lead with
    | condition first => exact Nat.le_trans (carried read) held
    | operand target =>
      obtain ⟨kind, middle, -, read⟩ := bind_ok_iff.mp read
      split at read
      · obtain ⟨rfl, -⟩ := pure_ok_iff.mp read
        exact held
      · obtain ⟨first, _, said, read⟩ := bind_ok_iff.mp read
        obtain ⟨_, -, phrase⟩ := predicate_sound levels target said
        exact Nat.le_trans phrase.target_nesting_le (Nat.le_trans (carried read) held)

theorem nestedWith_replays : Replays (fun lead => lead.nesting ≤ bound + 1)
    (nestedWith levels nested) (nestedWith bound nested') := by
  refine peek_replays fun kind => choice_replays ?_ (bind_replays (bracketed_replays
    (heldWith_replays sound sound' deeper)) (fun lead => ?_) ?_)
  · refine then_replays (take_taking _) fun _ => map_replays (unaryWith_replays deeper) ?_
    exact fun _ held => Nat.le_of_succ_le_succ held
  · cases lead with
    | condition first => exact pure_replays _
    | operand first => exact pure_replays _
  · intro lead tokens result rest read held
    cases lead with
    | condition first =>
      obtain ⟨rfl, -⟩ := pure_ok_iff.mp read
      exact Nat.le_of_succ_le_succ held
    | operand first =>
      obtain ⟨rfl, -⟩ := pure_ok_iff.mp read
      exact Nat.le_of_succ_le_succ held

end

theorem nestedWith_opens {nested : Rule Lead} {tokens rest : List Token} {lead : Lead}
    (read : nestedWith levels nested tokens = .ok (lead, rest)) : 0 < lead.nesting := by
  rw [nestedWith, bind_of_ok (peek_apply tokens)] at read
  split at read
  · obtain ⟨_, _, -, read⟩ := bind_ok_iff.mp read
    obtain ⟨condition, -, rfl⟩ := map_ok_iff.mp read
    exact Nat.succ_pos _
  · obtain ⟨held, _, -, finish⟩ := bind_ok_iff.mp read
    cases held with
    | condition condition =>
      obtain ⟨rfl, -⟩ := pure_ok_iff.mp finish
      exact Nat.succ_pos _
    | operand operand =>
      obtain ⟨rfl, -⟩ := pure_ok_iff.mp finish
      exact Nat.succ_pos _

theorem nestedLead_replays : Replays (fun lead => lead.nesting ≤ bound) (nestedLead levels)
    (nestedLead bound) := by
  induction levels generalizing bound with
  | zero => exact tooDeep_replays _
  | succ levels ih =>
    refine replays_of_levels rfl (fun _ _ _ _ read => nestedWith_opens read) ?_
    intro fewer bound same
    obtain rfl := Nat.succ.inj same
    exact nestedWith_replays (nestedLead_sound _) (nestedLead_sound _) ih

theorem unary_replays : Replays (fun condition => condition.nesting ≤ bound) (unary levels)
    (unary bound) :=
  unaryWith_replays nestedLead_replays

theorem conditions_replays : Replays (fun condition => condition.nesting ≤ bound)
    (conditions levels) (conditions bound) :=
  bind_replays unary_replays
    (connected_replays (unary_sound _).shrinking (unary_sound _).shrinking unary_replays)
    fun _ _ _ _ read held => Nat.le_trans (nesting_le_of_connected read) held

/-! Limits side by side. -/

/-- The same tokens under two limits, of which the first may be met where the second is not. -/
def limited : Coupling where
  tokens left right := left = right
  heads token token' := token = token'
  levels fewer more := fewer ≤ more
  faults fault fault' := fault = fault'
  escapes fault := ∃ token, fault = .tooDeep token
  alike := Token.alike_of_eq
  split := by
    rintro left _ rfl
    cases left with
    | nil => exact .inl ⟨rfl, rfl⟩
    | cons token rest => exact .inr ⟨token, token, rest, rest, rfl, rfl, rfl, fun _ => rfl⟩
  unexpected := by
    rintro token _ rfl
    rfl
  endOfInput := fun _ => rfl
  tooDeep := by
    rintro left _ - rfl
    rfl
  escape := fun _ _ => ⟨_, rfl⟩
  deeper := by
    intro fewer levels' within
    exact ⟨levels' - 1, by omega, by omega⟩

variable {α : Type} {tokens rest : List Token}

/-- The rule reads the value with at least this many levels, and meets the limit with fewer. -/
def Threshold (rule : Nat → Rule α) (tokens : List Token) (value : α) (rest : List Token)
    (nesting : Nat) : Prop :=
  ∀ bound, (nesting ≤ bound → rule bound tokens = .ok (value, rest)) ∧
    (bound < nesting → ∃ fault, rule bound tokens = .error fault ∧
      (fault.toError bound).diagnostic.code = "PARSE_003")

theorem threshold_of_replays {rule : Nat → Rule α} {nesting : α → Nat} {value : α}
    (agree : ∀ bound levels, limited.levels bound levels →
      Agree limited (rule bound) (rule levels))
    (replays : ∀ bound levels, Replays (fun value => nesting value ≤ bound) (rule levels)
      (rule bound))
    (fits : ∀ ⦃bound value rest⦄, rule bound tokens = .ok (value, rest) → nesting value ≤ bound)
    (unrepeated : Unrepeated tokens rest) (read : rule levels tokens = .ok (value, rest)) :
    Threshold rule tokens value rest (nesting value) := by
  refine fun bound => ⟨(replays bound levels).again read unrepeated, fun shallow => ?_⟩
  have below : limited.levels bound levels := Nat.le_trans (Nat.le_of_lt shallow) (fits read)
  have related : limited.tokens tokens tokens := rfl
  have run := agree bound levels below related
  generalize same : rule bound tokens = outcome at run
  rw [read] at run
  cases run with
  | read _ =>
    have := fits same
    omega
  | escape met =>
    obtain ⟨token, rfl⟩ := met
    exact ⟨_, rfl, rfl⟩

/-- Without repeated keys, filters and values are read under exactly the limits that they do
not exceed. -/
theorem nesting_threshold (unrepeated : Unrepeated tokens rest) (levels : Nat) :
    (∀ condition, conditions levels tokens = .ok (condition, rest) →
      Threshold conditions tokens condition rest condition.nesting) ∧
    ∀ result, value levels tokens = .ok (result, rest) →
      Threshold value tokens result rest result.nesting := by
  constructor
  · intro condition read
    refine threshold_of_replays (fun _ _ => conditions_agree) (fun _ _ => conditions_replays)
      (fun bound condition rest read => ?_) unrepeated read
    obtain ⟨_, -, phrase⟩ := conditions_sound bound read
    exact phrase.nesting_le
  · intro result read
    refine threshold_of_replays (fun _ _ => value_agree) (fun _ _ => value_replays)
      (fun bound result rest read => ?_) unrepeated read
    obtain ⟨_, -, phrase⟩ := value_sound bound read
    exact phrase.nesting_le

/-- The contents of the text literals among tokens. -/
def texts (tokens : List Token) : List String :=
  (tokens.filter fun token => token.kind = .literal .text).map Token.text

theorem texts_append (first second : List Token) :
    texts (first ++ second) = texts first ++ texts second := by
  simp [texts]

theorem keys_sublist_texts {tokens : List Token} {levels : Nat}
    {entries : List (String × Value)} (phrase : EntriesPhrase levels tokens entries) :
    (entries.map Prod.fst).Sublist (texts tokens) := by
  induction size : tokens.length using Nat.strongRecOn generalizing tokens levels entries with
  | ind length ih =>
    cases phrase with
    | none => exact List.nil_sublist _
    | @more _ separator first others key colon _ entries _ named _ _ phrase =>
      have shorter : others.length < length := by
        rw [← size]
        simp
        omega
      have own : texts [key] = [key.text] := by simp [texts, named]
      have split : separator ++ key :: colon :: first ++ others =
          separator ++ ([key] ++ (colon :: first ++ others)) := by simp
      have later : (entries.map Prod.fst).Sublist (texts (colon :: first ++ others)) := by
        rw [texts_append]
        exact List.sublist_append_of_sublist_right (ih others.length shorter phrase rfl)
      rw [split, texts_append, texts_append, own]
      exact List.sublist_append_of_sublist_right (later.cons_cons key.text)

/-- Where no text comes twice, no key does. -/
theorem unrepeated_of_texts (distinct : (texts tokens).Nodup) : Unrepeated tokens rest := by
  intro opening closing inner behind levels entries within _ _ _ phrase
  have held : inner.Sublist tokens := by
    refine List.Sublist.trans ?_ within.sublist
    exact List.sublist_append_of_sublist_left (List.sublist_cons_self opening inner)
  have among : (texts inner).Sublist (texts tokens) := (held.filter _).map _
  exact distinct.sublist ((keys_sublist_texts phrase).trans among)

/-- `NOT (JSON_CONTAINS(a, {'k': [1]}))` opens four levels: the call opens none. -/
theorem nesting_threshold_of_call :
    let tokens : List Token :=
      [⟨.keyword .not, "NOT", 1, 1⟩, ⟨.operator .openParen, "(", 1, 5⟩,
        ⟨.keyword .jsonContains, "JSON_CONTAINS", 1, 6⟩, ⟨.operator .openParen, "(", 1, 19⟩,
        ⟨.identifier, "a", 1, 20⟩, ⟨.separator .comma, ",", 1, 21⟩,
        ⟨.operator .openBrace, "\x7b", 1, 23⟩, ⟨.literal .text, "k", 1, 24⟩,
        ⟨.operator .colon, ":", 1, 27⟩, ⟨.operator .openBracket, "[", 1, 29⟩,
        ⟨.literal .integer, "1", 1, 30⟩, ⟨.operator .closeBracket, "]", 1, 31⟩,
        ⟨.operator .closeBrace, "\x7d", 1, 32⟩, ⟨.operator .closeParen, ")", 1, 33⟩,
        ⟨.operator .closeParen, ")", 1, 34⟩]
    let condition : Condition := .negation (.nested
      (.contains .jsonContains ⟨"a", []⟩ (some (.object [("k", .array [.integer 1])]))))
    Unrepeated tokens [] ∧ conditions 9 tokens = .ok (condition, []) ∧
      Threshold conditions tokens condition [] 4 := by
  intro tokens condition
  have unrepeated : Unrepeated tokens [] := unrepeated_of_texts (by decide)
  have read : conditions 9 tokens = .ok (condition, []) := by rfl
  exact ⟨unrepeated, read, (nesting_threshold unrepeated 9).1 condition read⟩

end VectorQuery.Grammar
