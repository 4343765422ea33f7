import VectorQuery.Proofs.Grammar.Tracking

/-! Conditions keep to the scan over their tokens. They stand in a filter, where no range is
left open; what `NOT` opens in front of one ends at the next connective, which leads back to the
place where the first of the connected conditions started. -/
namespace VectorQuery.Grammar

variable {limit levels : Nat} {place : Place}

/-! What is said of an operand. -/

theorem containment_function {kind : TokenKind} {function : Containment}
    (known : kind.containment? = some function) :
    kind.isPlain = true ∧ (some kind).any TokenKind.isFunction = true := by
  unfold TokenKind.containment? at known
  split at known <;> first
    | exact ⟨rfl, rfl⟩
    | contradiction

/-- Behind an operand, `NOT` opens nothing. -/
theorem negated_tracks :
    Tracks limit (At place isEnded) (accept (.keyword .not)) fun _ => Somewhere place := by
  have ended (last : Option TokenKind) (ended : isEnded last = true) :
      place.step last (.keyword .not) = place := by
    have behind : last.any TokenKind.startsCondition = false := Bool.not_eq_true' _ ▸ ended
    simp [Place.step, behind]
  have found : Tracks limit (At place isEnded) (accept (.keyword .not)) fun found =>
      if found = true then Somewhere place else At place isEnded :=
    tracks_found fun held kind => held.after (kind ▸ ended) rfl
  refine found.widen fun {value} _ _ held => ?_
  cases value with
  | true => exact held
  | false => exact held.somewhere

section
variable (filtered : place.filtered = true) (resting : place.frame.ranging = false)
  (full : place.frame.levels + levels = limit)
include filtered resting full

/-- Between its bounds, a range is open; its `AND` belongs to it. -/
theorem bounds_tracks {β : Type} {next : Operand → Operand → β} :
    Tracks limit (At (place.withRange true) isFresh) (do
      let low ← operand levels
      keyword .and
      return next low (← operand levels)) fun _ => Somewhere place := by
  have low : Tracks limit (At (place.withRange true) isFresh) (operand levels) fun _ =>
      At (place.withRange true) isEnded := operand_tracks filtered full
  have back : (place.withRange true).withRange false = place := by
    simp [Place.withRange, ← resting]
  have middle : Tracks limit (At (place.withRange true) isEnded) (keyword .and) fun _ =>
      At place isFresh := expect_tracks (fun _ _ => back) rfl
  exact tracks_bind low fun _ => tracks_bind middle fun _ =>
    tracks_map ((operand_tracks filtered full).widen At.somewhere)

theorem predicate_tracks (target : Operand) :
    Tracks limit (At place isEnded) (predicate levels target) fun _ => Somewhere place := by
  refine tracks_bind tracks_peek fun kind => ?_
  split
  next comparator known =>
    exact tracks_bind (seen_tracks comparator_plain known) fun _ =>
      tracks_map ((operand_tracks filtered full).widen At.somewhere)
  next =>
    refine Tracks.narrow (accept_tracks isEnded rfl rfl ?_ ?_) fun held => held.1
    · exact tracks_bind negated_tracks fun _ => tracks_map (plain_tracks anything rfl rfl)
    refine tracks_bind negated_tracks fun negated => ?_
    refine accept_tracks anything rfl rfl (tracks_map (text_tracks anything rfl)) ?_
    refine tracks_accept (fun held kind => held.after (fun last _ => ?_) ?_)
      (bounds_tracks filtered resting full) ?_
    · rw [kind, Place.step, if_pos filtered]
    · rw [kind]
      rfl
    -- The list is looked for whatever comes behind `IN`.
    refine accept_tracks (· == some (.keyword .in)) rfl rfl ?_ tracks_refuse
    refine tracks_map (Tracks.narrow ((list_tracks full).widen At.somewhere) fun held => ?_)
    refine ⟨held.weaken fun _ word => eq_of_beq word ▸ rfl, .inr ?_⟩
    rw [Cursor.wantsBracket, eq_of_beq held.2]

end

theorem containment_tracks (full : place.frame.levels + levels = limit)
    {found : Option TokenKind} {function : Containment}
    (known : found.bind TokenKind.containment? = some function) :
    Tracks limit (fun cursor tokens => At place isFresh cursor tokens ∧
      found = tokens.head?.map Token.kind) (containment levels function) fun _ =>
        Somewhere place := by
  refine tracks_bind (seen_tracks containment_function known) fun _ => ?_
  refine bracketed_tracks anything false (fun last applied => ?_) rfl ?_ rfl
  · rw [applied]
    exact Bool.and_false _
  refine tracks_bind path_tracks fun target => ?_
  have inner : (place.enter false).frame.levels + levels = limit := full
  refine accept_tracks isFresh rfl rfl (tracks_map ?_) (tracks_pure At.near)
  exact (value_tracks inner).widen At.near

/-! What starts a condition. -/

/-- `NOT` or a round bracket comes next, where a condition may start. -/
def OpensLead (place : Place) : Assertion := fun cursor tokens =>
  At place isLead cursor tokens ∧ (tokens.head?.map Token.kind).any TokenKind.opensLead = true

/-- Behind the start of a condition. -/
def BehindLead (place : Place) : Lead → Assertion
  | .condition _ => Near place
  | .operand _ => At place isEnded

section
variable {nested : Rule Lead}
  (nests : Tracks limit (OpensLead place) nested (BehindLead place))
  (filtered : place.filtered = true) (full : place.frame.levels + levels = limit)
include nests filtered full

theorem leadWith_tracks :
    Tracks limit (At place isLead) (leadWith levels nested) (BehindLead place) := by
  refine tracks_bind tracks_peek fun kind => tracks_choice (fun opens => ?_) fun _ => ?_
  · refine tracks_bind (nests.narrow fun held => ⟨held.1, held.2 ▸ opens⟩) fun lead => ?_
    cases lead with
    | condition condition => exact tracks_pure fun held => held
    | operand first => exact tracks_map (operations_tracks filtered full first)
  · split
    next function known =>
      refine tracks_map (Tracks.narrow ((containment_tracks full known).widen At.near) fun held => ?_)
      exact ⟨held.1.weaken fun _ => isFresh_of_isLead, held.2⟩
    next =>
      refine tracks_map ((operand_tracks filtered full).narrow fun held => ?_)
      exact held.1.weaken fun _ => isFresh_of_isLead

variable (resting : place.frame.ranging = false)
include resting

theorem unaryWith_tracks :
    Tracks limit (At place isLead) (unaryWith levels nested) fun _ => Near place := by
  refine tracks_bind (leadWith_tracks nests filtered full) fun lead => ?_
  cases lead with
  | condition condition => exact tracks_pure fun held => held
  | operand target => exact (predicate_tracks filtered resting full target).widen At.near

end

/-- A connective leads back to the place where the first condition started. -/
theorem connected_tracks {unary : Rule Condition} (resting : place.frame.ranging = false)
    (settled : place.frame.base = place.frame.levels)
    (unaries : Tracks limit (At place isLead) unary fun _ => Near place) (first : Condition) :
    Tracks limit (Near place) (connected unary first) fun _ => Near place := by
  have settles (levels : Nat) : (place.withLevels levels).settle = place := by
    change place.withLevels place.frame.base = place
    rw [settled]
    rfl
  have next {word : Keyword} (joins : word = .and ∨ word = .or) {cursor : Cursor} {token : Token}
      {rest : List Token} (near : Near place cursor (token :: rest))
      (kind : token.kind = .keyword word) : At place isLead (cursor.after token) rest := by
    obtain ⟨levels, same⟩ := near
    have resting : (place.withLevels levels).frame.ranging = false := resting
    rw [Cursor.after, same, kind]
    rcases joins with rfl | rfl
    · exact ⟨by simp only [Place.step, resting, settles]; rfl, rfl⟩
    · exact ⟨settles levels, rfl⟩
  refine tracks_map (tracks_many ?_)
  refine tracks_accept (next (.inl rfl)) (tracks_map unaries) ?_
  exact tracks_accept (next (.inr rfl)) (tracks_map unaries) (tracks_pure fun held => held)

section
variable {nested : Rule Lead}
  (nests : Tracks limit (OpensLead place) nested (BehindLead place))
  (filtered : place.filtered = true) (resting : place.frame.ranging = false)
  (full : place.frame.levels + levels = limit)
include nests filtered resting full

theorem heldWith_tracks (settled : place.frame.base = place.frame.levels) :
    Tracks limit (At place isLead) (heldWith levels nested) fun _ => Near place := by
  have connects (first : Condition) := connected_tracks resting settled
    (unaryWith_tracks nests filtered full resting) first
  refine tracks_bind (leadWith_tracks nests filtered full) fun lead => ?_
  cases lead with
  | condition first => exact tracks_map (connects first)
  | operand target =>
    refine tracks_bind tracks_peek fun kind => tracks_choice (fun _ => ?_) fun _ => ?_
    · exact tracks_pure fun held => held.1.near
    · refine tracks_bind (Tracks.narrow ((predicate_tracks filtered resting full target).widen At.near)
        fun held => held.1) fun first => tracks_map (connects first)

end

section
variable {nested : Rule Lead}

theorem groupWith_tracks
    (nests : Tracks limit (OpensLead (place.enter true)) nested (BehindLead (place.enter true)))
    (filtered : place.filtered = true) (full : place.frame.levels + 1 + levels = limit) :
    Tracks limit (At place isLead) (groupWith levels nested) (BehindLead place) := by
  have inner : Tracks limit (At place isLead) (bracketed (heldWith levels nested)) fun _ =>
      At place isEnded := by
    refine bracketed_tracks isLead true (fun last lead => ?_) rfl
      (heldWith_tracks nests filtered rfl full rfl) rfl
    rw [filtered, (Bool.and_eq_true_iff.mp (isFresh_of_isLead lead)).1]
    rfl
  refine tracks_bind inner fun lead => ?_
  cases lead with
  | condition condition => exact tracks_pure At.near
  | operand operand => exact tracks_pure fun held => held

theorem step_not {last : Option TokenKind} (filtered : place.filtered = true)
    (lead : isLead last = true) :
    place.step last (.keyword .not) = place.withLevels (place.frame.levels + 1) := by
  have behind : last.any TokenKind.startsCondition = true := lead
  simp [Place.step, filtered, behind]

theorem deniedWith_tracks
    (nests : Tracks limit (OpensLead (place.withLevels (place.frame.levels + 1))) nested
      (BehindLead (place.withLevels (place.frame.levels + 1))))
    (filtered : place.filtered = true) (resting : place.frame.ranging = false)
    (full : place.frame.levels + 1 + levels = limit) :
    Tracks limit (At place isLead) (deniedWith levels nested) (BehindLead place) := by
  have opening : Tracks limit (At place isLead) (keyword .not) fun _ =>
      At (place.withLevels (place.frame.levels + 1)) isLead :=
    expect_tracks (fun _ => step_not filtered) rfl
  refine tracks_bind opening fun _ => tracks_map ?_
  exact unaryWith_tracks nests filtered full resting

end

theorem OpensLead.blamed {cursor : Cursor} {tokens : List Token} (filtered : place.filtered = true)
    (full : place.frame.levels = limit) (opens : OpensLead place cursor tokens) :
    Blamed limit cursor tokens := by
  obtain ⟨lead, comes⟩ := opens
  cases tokens with
  | nil => contradiction
  | cons token rest =>
    have opens : token.kind.opensLead = true := comes
    unfold TokenKind.opensLead at opens
    split at opens
    next kind =>
      refine lead.blamed full (kind ▸ rfl) fun last leads => ?_
      rw [kind, step_not filtered leads]
      rfl
    next kind =>
      refine lead.blamed full (kind ▸ rfl) fun last leads => ?_
      rw [kind, step_openParen filtered (isFresh_of_isLead leads)]
      rfl
    next => contradiction

/-- What `NOT` and round brackets open is counted by the scan. -/
theorem nestedLead_tracks (filtered : place.filtered = true) (resting : place.frame.ranging = false)
    (full : place.frame.levels + levels = limit) :
    Tracks limit (OpensLead place) (nestedLead levels) (BehindLead place) := by
  induction levels generalizing place with
  | zero => exact tracks_tooDeep (OpensLead.blamed filtered full)
  | succ levels ih =>
    have deeper : place.frame.levels + 1 + levels = limit := by omega
    refine tracks_bind tracks_peek fun kind => tracks_choice (fun _ => ?_) fun _ => ?_
    -- `NOT` stays within the innermost bracket; a round bracket opens one further in.
    · have denied := @ih (place.withLevels (place.frame.levels + 1)) filtered resting deeper
      exact (deniedWith_tracks denied filtered resting deeper).narrow fun held => held.1.1
    · have grouped := @ih (place.enter true) filtered rfl deeper
      exact (groupWith_tracks grouped filtered deeper).narrow fun held => held.1.1

theorem conditions_tracks (filtered : place.filtered = true) (resting : place.frame.ranging = false)
    (settled : place.frame.base = place.frame.levels)
    (full : place.frame.levels + levels = limit) :
    Tracks limit (At place isLead) (conditions levels) fun _ => Near place := by
  have unaries : Tracks limit (At place isLead) (unary levels) fun _ => Near place :=
    unaryWith_tracks (nestedLead_tracks filtered resting full) filtered full resting
  exact tracks_bind unaries (connected_tracks resting settled unaries)

end VectorQuery.Grammar
