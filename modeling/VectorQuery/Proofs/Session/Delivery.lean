import VectorQuery.Proofs.Command.Injective
import VectorQuery.Session

/-! What a session delivers to its handler. A handler that notes every call of its families
answers as before, and its notes are the statements that it is for, each one once. -/
namespace VectorQuery

/-- A call of a handler: the section whose family is called, the command that its request
stands for, and the defaults. -/
structure Call where
  area : Section
  command : Command
  defaults : Defaults

namespace Handler

variable {σ output ρ : Type}

/-- Whether the handler has a family for a section. -/
def implements (handler : Handler σ output) : Section → Bool
  | .database => handler.database.isSome
  | .collection => handler.collection.isSome
  | .partition => handler.partition.isSome
  | .index => handler.index.isSome
  | .insert => handler.write.isSome
  | .delete => handler.delete.isSome
  | .query => handler.query.isSome
  | .search => handler.search.isSome

/-- Answers as before, and notes the call behind those noted so far. -/
def noting (area : Section) (command : ρ → Command) (answers : Answers σ output ρ) :
    Answers (σ × List Call) output ρ :=
  fun request defaults (state, calls) =>
    let (answer, state) := answers request defaults state
    (answer, state, calls ++ [⟨area, command request, defaults⟩])

/-- The handler whose families note their calls, each under its own section. -/
def observed (handler : Handler σ output) : Handler (σ × List Call) output where
  database := handler.database.map (noting .database .database)
  collection := handler.collection.map (noting .collection .collection)
  partition := handler.partition.map (noting .partition .partition)
  index := handler.index.map (noting .index .index)
  write := handler.write.map (noting .insert .write)
  delete := handler.delete.map (noting .delete .delete)
  query := handler.query.map (noting .query .query)
  search := handler.search.map (noting .search .search)

/-- The call that a command is for, if the handler has the family of its section. -/
def call? (handler : Handler σ output) (config : Config) (command : Command) : Option Call :=
  let area := Section.ofKind command.kind
  if handler.implements area then some ⟨area, command, config.defaultsFor command.kind⟩ else none

variable {handler : Handler σ output} {config : Config} {command : Command}

theorem answer_noting (area : Section) (command : ρ → Command)
    (family : Option (Answers σ output ρ)) (kind : CommandKind) (request : ρ)
    (defaults : Defaults) (state : σ) (calls : List Call) :
    answer (family.map (noting area command)) kind request defaults (state, calls) =
      let (answer, state) := answer family kind request defaults state
      (answer, state, calls ++
        (if family.isSome then some (Call.mk area (command request) defaults) else none).toList) := by
  cases family with
  | none => simp [answer]
  | some answers => rfl

/-- A command calls the family of its section once, or nothing. The two ways to the families
agree, so that no command of a family that the handler has is refused. -/
theorem dispatch_observed (state : σ) (calls : List Call) :
    handler.observed.dispatch config command (state, calls) =
      let (answer, state) := handler.dispatch config command state
      (answer, state, calls ++ (handler.call? config command).toList) := by
  have area := Command.section_kind command
  cases command with
  | database request | collection request | partition request | index request | write request
  | delete request | query request | search request =>
    simp only [dispatch, observed, answer_noting, call?, area, implements]

/-- Without the family of its section a command changes nothing. -/
theorem dispatch_of_not_implements
    (absent : handler.implements (Section.ofKind command.kind) = false) (state : σ) :
    handler.dispatch config command state =
      (.error (SessionError.unsupported command.kind).diagnostic, state) := by
  have area := Command.section_kind command
  rw [area] at absent
  cases command with
  | database request | collection request | partition request | index request | write request
  | delete request | query request | search request =>
    simp only [implements, Option.isSome_eq_false_iff, Option.isNone_iff_eq_none] at absent
    simp only [dispatch, area, absent, answer]

end Handler

namespace Session

variable {σ output : Type}

/-- The call that a text is for: there is one if the text stands for a command, and the
handler has a family for it. -/
def call? (session : Session) (handler : Handler σ output) (text : String) : Option Call :=
  match session.limits.read (terminated text) with
  | .ok command => handler.call? session.config command
  | .error _ => none

variable (session : Session) (handler : Handler σ output)

theorem execute_observed (text : String) (state : σ) (calls : List Call) :
    session.execute handler.observed text (state, calls) =
      let (answer, state) := session.execute handler text state
      (answer, state, calls ++ (session.call? handler text).toList) := by
  unfold execute call?
  cases session.limits.read (terminated text) with
  | ok command => exact Handler.dispatch_observed state calls
  | error diagnostic => simp

/-- The notes of a run are the calls of its texts, in their order. -/
theorem run_observed (texts : List String) (state : σ) (calls : List Call) :
    session.run handler.observed texts (state, calls) =
      let (answers, state) := session.run handler texts state
      (answers, state, calls ++ texts.filterMap (session.call? handler)) := by
  induction texts generalizing state calls with
  | nil => simp [run]
  | cons text texts ih =>
    have calls' : (session.call? handler text).toList ++ texts.filterMap (session.call? handler) =
        (text :: texts).filterMap (session.call? handler) := by
      cases called : session.call? handler text with
      | none => simp [called]
      | some call => simp [called]
    simp only [run, execute_observed, ih, List.append_assoc, calls']

theorem run_append (before texts : List String) (state : σ) :
    session.run handler (before ++ texts) state =
      let (answers, state) := session.run handler before state
      let (answers', state) := session.run handler texts state
      (answers ++ answers', state) := by
  induction before generalizing state with
  | nil => rfl
  | cons text before ih => simp only [List.cons_append, run, ih]

theorem length_run (texts : List String) (state : σ) :
    (session.run handler texts state).1.length = texts.length := by
  induction texts generalizing state with
  | nil => rfl
  | cons text texts ih => simp only [run, List.length_cons, ih]

/-- Every text is answered as it would be alone, in the state that the texts before it have
left. -/
theorem run_getElem? (before behind : List String) (text : String) (state : σ) :
    (session.run handler (before ++ text :: behind) state).1[before.length]? =
      some (session.execute handler text (session.run handler before state).2).1 := by
  rw [run_append]
  simp only [run]
  rw [← session.length_run handler before state, List.getElem?_append_right (Nat.le_refl _)]
  simp

/-- A text that is no statement is refused as it is read, one whose family the handler lacks is
refused for its kind, and both leave the state alone. -/
theorem execute_refuses (text : String) (state : σ) :
    match session.limits.read (terminated text) with
    | .error diagnostic => session.execute handler text state = (.error diagnostic, state)
    | .ok command => handler.implements (Section.ofKind command.kind) = false →
      ∃ diagnostic, session.execute handler text state = (.error diagnostic, state) ∧
        diagnostic.code = "SESSION_001" ∧
        diagnostic.message = "no handler for `" ++ command.kind.tag ++ "`" := by
  unfold execute
  cases session.limits.read (terminated text) with
  | error diagnostic => rfl
  | ok command =>
    intro absent
    exact ⟨_, Handler.dispatch_of_not_implements absent state, rfl, rfl⟩

/-- A session hands on each statement that its handler has a family for, once and in order, and
nothing else: the notes of the handler are those calls, and to note them changes no answer and
no state. Every text is answered in the state that the texts before it have left, and what
is no statement or has no family is refused there. -/
theorem run_delivers (texts : List String) (state : σ) :
    session.run handler.observed texts (state, []) =
      ((session.run handler texts state).1, (session.run handler texts state).2,
        texts.filterMap (session.call? handler)) ∧
    (session.run handler texts state).1.length = texts.length ∧
    ∀ before text behind, texts = before ++ text :: behind →
      let reached := (session.run handler before state).2
      let outcome := session.execute handler text reached
      (session.run handler texts state).1[before.length]? = some outcome.1 ∧
      match session.limits.read (terminated text) with
      | .error diagnostic => outcome = (.error diagnostic, reached)
      | .ok command => handler.implements (Section.ofKind command.kind) = false →
        ∃ diagnostic, outcome = (.error diagnostic, reached) ∧ diagnostic.code = "SESSION_001" ∧
          diagnostic.message = "no handler for `" ++ command.kind.tag ++ "`" := by
  refine ⟨by rw [run_observed, List.nil_append], session.length_run handler texts state, ?_⟩
  rintro before text behind rfl
  exact ⟨session.run_getElem? handler before behind text state,
    session.execute_refuses handler text _⟩

end Session

end VectorQuery
