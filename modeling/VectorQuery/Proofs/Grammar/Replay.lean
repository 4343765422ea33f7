import VectorQuery.Proofs.Grammar.Phrase
import VectorQuery.Proofs.Grammar.Rule

/-! Rules that replay others: what one run read, the other reads again, if the result keeps a
bound. Rules made of steps that replay each other do so themselves where the results of the
steps are parts of the whole result. -/
namespace VectorQuery.Grammar

variable {α β : Type}

/-- No object that was read, from the tokens up to the rest, repeats a key. -/
def Unrepeated (tokens rest : List Token) : Prop :=
  ∀ ⦃opening closing : Token⦄ ⦃inner behind : List Token⦄ ⦃levels : Nat⦄
    ⦃entries : List (String × Value)⦄,
    opening :: inner ++ closing :: behind <:+ tokens → rest <:+ behind →
    opening.kind = .operator .openBrace → closing.kind = .operator .closeBrace →
    EntriesPhrase levels inner entries → (entries.map Prod.fst).Nodup

theorem Unrepeated.inside {tokens tokens' rest rest' : List Token}
    (unrepeated : Unrepeated tokens rest) (front : tokens' <:+ tokens) (back : rest <:+ rest') :
    Unrepeated tokens' rest' :=
  fun _ _ _ _ _ _ within behind => unrepeated (within.trans front) (back.trans behind)

/-- A rule leaves a rest of the tokens. -/
def Taking (rule : Rule α) : Prop :=
  ∀ ⦃tokens value rest⦄, rule tokens = .ok (value, rest) → rest <:+ tokens

theorem Sound.taking {rule : Rule α} {phrase : List Token → α → Prop} (sound : Sound rule phrase) :
    Taking rule := by
  intro tokens value rest read
  obtain ⟨taken, rfl, -⟩ := sound read
  exact List.suffix_append _ _

theorem take_taking (meaning : Token → Option α) : Taking (take meaning) := by
  intro tokens value rest read
  obtain ⟨token, rfl, -⟩ := take_ok_iff.mp read
  exact List.suffix_cons token rest

theorem accept_taking (kind : TokenKind) : Taking (accept kind) := by
  intro tokens found rest read
  rcases accept_ok_cases read with ⟨token, -, rfl, -⟩ | ⟨-, rfl, -⟩
  · exact List.suffix_cons token rest
  · exact List.suffix_refl rest

/-- What the first rule reads, the second reads as well if it is within a bound. -/
structure Replays (within : α → Prop) (rule rule' : Rule α) : Prop where
  taking : Taking rule
  again : ∀ ⦃tokens value rest⦄, rule tokens = .ok (value, rest) → Unrepeated tokens rest →
    within value → rule' tokens = .ok (value, rest)

variable {within : α → Prop}

theorem same_replays {rule : Rule α} (taking : Taking rule) : Replays within rule rule :=
  ⟨taking, fun _ _ _ read _ _ => read⟩

theorem bind_taking {rule : Rule α} {next : α → Rule β} (first : Taking rule)
    (second : ∀ value, Taking (next value)) : Taking (rule >>= next) := by
  intro tokens result rest read
  obtain ⟨value, middle, start, finish⟩ := bind_ok_iff.mp read
  exact (second value finish).trans (first start)

theorem pure_taking (value : α) : Taking (pure value) := by
  intro tokens result rest read
  obtain ⟨-, rfl⟩ := pure_ok_iff.mp read
  exact List.suffix_refl tokens

theorem pure_replays (value : α) : Replays within (pure value) (pure value) :=
  same_replays (pure_taking value)

theorem take_replays (meaning : Token → Option α) : Replays within (take meaning) (take meaning) :=
  same_replays (take_taking meaning)

theorem refuse_replays : Replays within refuse refuse :=
  same_replays fun _ _ _ read => absurd read refuse_ne_ok

theorem tooDeep_replays (rule : Rule α) : Replays within tooDeep rule := by
  constructor
  · intro tokens value rest read
    contradiction
  · intro tokens value rest read
    contradiction

theorem Replays.weaken {stronger : α → Prop} {rule rule' : Rule α}
    (replays : Replays within rule rule') (weaker : ∀ value, stronger value → within value) :
    Replays stronger rule rule' :=
  ⟨replays.taking, fun _ value _ read unrepeated held =>
    replays.again read unrepeated (weaker value held)⟩

/-! Steps one after another. -/

section
variable {rule rule' : Rule α} {next next' : α → Rule β} {last : β → Prop}

/-- The first step is replayed if what follows it carries the bound back to it. -/
theorem bind_replays (first : Replays within rule rule')
    (second : ∀ value, Replays last (next value) (next' value))
    (carried : ∀ ⦃value tokens result rest⦄, next value tokens = .ok (result, rest) →
      last result → within value) :
    Replays last (rule >>= next) (rule' >>= next') := by
  constructor
  · exact bind_taking first.taking fun value => (second value).taking
  · intro tokens result rest read unrepeated held
    obtain ⟨value, middle, start, finish⟩ := bind_ok_iff.mp read
    have front := first.taking start
    have back := (second value).taking finish
    have taken := first.again start (unrepeated.inside (List.suffix_refl _) back)
      (carried finish held)
    rw [bind_of_ok taken]
    exact (second value).again finish (unrepeated.inside front (List.suffix_refl _)) held

theorem then_replays (taking : Taking rule)
    (second : ∀ value, Replays last (next value) (next' value)) :
    Replays last (rule >>= next) (rule >>= next') := by
  have same : Replays (fun _ => True) rule rule := same_replays taking
  exact bind_replays same second fun _ _ _ _ _ _ => trivial

theorem map_replays (first : Replays within rule rule') {change : α → β}
    (carried : ∀ value, last (change value) → within value) :
    Replays last (rule >>= fun value => pure (change value))
      (rule' >>= fun value => pure (change value)) := by
  refine bind_replays first (fun value => pure_replays (change value)) ?_
  intro value tokens result rest read held
  obtain ⟨rfl, -⟩ := pure_ok_iff.mp read
  exact carried value held

theorem keep_replays (first : Replays within rule rule') {closing : Rule β}
    (taking : Taking closing) :
    Replays within (rule >>= fun value => closing >>= fun _ => pure value)
      (rule' >>= fun value => closing >>= fun _ => pure value) := by
  refine bind_replays first (fun value => then_replays taking fun _ => pure_replays value) ?_
  intro value tokens result rest read held
  obtain ⟨_, -, rfl⟩ := map_ok_iff.mp read
  exact held

end

section
variable {yes yes' no no' : Rule α} (first : Replays within yes yes')
  (second : Replays within no no')
include first second

theorem choice_replays {found : Prop} [Decidable found] :
    Replays within (if found then yes else no) (if found then yes' else no') := by
  split
  · exact first
  · exact second

theorem found_replays (kind : TokenKind) :
    Replays within (accept kind >>= fun found => if found = true then yes else no)
      (accept kind >>= fun found => if found = true then yes' else no') :=
  then_replays (accept_taking kind) fun _ => choice_replays first second

end

theorem next?_replays {next next' : Option Token → Rule α}
    (each : ∀ token, Replays within (next token) (next' token)) :
    Replays within (next? >>= next) (next? >>= next') := by
  refine then_replays (fun tokens value rest read => ?_) each
  obtain ⟨-, rfl⟩ := Prod.mk.inj (Except.ok.inj ((next?_apply tokens).symm.trans read))
  exact List.suffix_refl tokens

theorem peek_replays {next next' : Option TokenKind → Rule α}
    (each : ∀ kind, Replays within (next kind) (next' kind)) :
    Replays within (peek >>= next) (peek >>= next') := by
  refine then_replays (fun tokens value rest read => ?_) each
  obtain ⟨-, rfl⟩ := Prod.mk.inj (Except.ok.inj ((peek_apply tokens).symm.trans read))
  exact List.suffix_refl tokens

theorem bracketed_replays {inner inner' : Rule α} (held : Replays within inner inner') :
    Replays within (bracketed inner) (bracketed inner') :=
  then_replays (take_taking _) fun _ => keep_replays held (take_taking _)

/-! Loops. -/

theorem many_replays {item item' : Rule (Option α)} (consuming : Consuming item)
    (consuming' : Consuming item')
    (each : Replays (fun found => ∀ value ∈ found, within value) item item') :
    Replays (fun values => ∀ value ∈ values, within value) (many item) (many item') := by
  have loop {tokens rest : List Token} {values : List α}
      (read : many item tokens = .ok (values, rest)) :
      rest <:+ tokens ∧ (Unrepeated tokens rest → (∀ value ∈ values, within value) →
        many item' tokens = .ok (values, rest)) := by
    refine many_induction consuming (motive := fun tokens values rest => rest <:+ tokens ∧
      (Unrepeated tokens rest → (∀ value ∈ values, within value) →
        many item' tokens = .ok (values, rest))) ?_ ?_ read
    · intro tokens rest found
      refine ⟨each.taking found, fun unrepeated _ => ?_⟩
      exact many_of_none consuming' (each.again found unrepeated nofun)
    · rintro tokens value middle values rest found ⟨back, others⟩
      have front := each.taking found
      refine ⟨back.trans front, fun unrepeated held => ?_⟩
      obtain ⟨first, later⟩ := List.forall_mem_cons.mp held
      have taken := each.again found (unrepeated.inside (List.suffix_refl _) back) (by simpa)
      rw [many_of_some consuming' taken,
        others (unrepeated.inside front (List.suffix_refl _)) later]
      rfl
  exact ⟨fun _ _ _ read => (loop read).1, fun _ _ _ read => (loop read).2⟩

theorem separated_replays {item item' : Rule α} (shrinking : Shrinking item)
    (shrinking' : Shrinking item') (each : Replays within item item') :
    Replays (fun values => ∀ value ∈ values, within value) (separated item) (separated item') := by
  have behind : Replays (fun found => ∀ value ∈ found, within value) (commaItem item)
      (commaItem item') :=
    found_replays (map_replays each fun value held => held value rfl) (pure_replays none) _
  have loop := many_replays (commaItem_consuming shrinking) (commaItem_consuming shrinking') behind
  refine bind_replays each (fun first => map_replays loop ?_) ?_
  · exact fun others held => (List.forall_mem_cons.mp held).2
  · intro first tokens values rest read held
    obtain ⟨others, -, rfl⟩ := map_ok_iff.mp read
    exact (List.forall_mem_cons.mp held).1

/-! Levels. -/

/-- A rule that opens a level is replayed where what it holds is, one level further in. -/
theorem replays_of_levels {rule : Nat → Rule α} {nesting : α → Nat} {levels bound : Nat}
    (shallow : rule 0 = tooDeep)
    (opens : ∀ fewer ⦃tokens value rest⦄, rule (fewer + 1) tokens = .ok (value, rest) →
      0 < nesting value)
    (deep : ∀ fewer bound, levels = fewer + 1 →
      Replays (fun value => nesting value ≤ bound + 1) (rule (fewer + 1)) (rule (bound + 1))) :
    Replays (fun value => nesting value ≤ bound) (rule levels) (rule bound) := by
  cases levels with
  | zero =>
    rw [shallow]
    exact tooDeep_replays _
  | succ fewer =>
    cases bound with
    | zero =>
      refine ⟨(deep fewer 0 rfl).taking, fun tokens value rest read _ held => ?_⟩
      have := opens fewer read
      omega
    | succ bound => exact deep fewer bound rfl

end VectorQuery.Grammar
