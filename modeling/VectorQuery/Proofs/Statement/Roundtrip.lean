import VectorQuery.Proofs.Grammar.Yield
import VectorQuery.Proofs.Statement.Rows
import VectorQuery.Proofs.Statement.Selection

/-! Every well-formed command reads back from the statement that is written for it. -/
namespace VectorQuery.Grammar
open Lexeme

/-- A semicolon comes next. -/
def EndsStatement (rest : List Token) : Prop :=
  ∃ token others, rest = token :: others ∧ token.kind = .separator .semicolon

theorem EndsStatement.lacks {rest : List Token} (ends : EndsStatement rest) {kind : TokenKind}
    (differs : .separator .semicolon ≠ kind) : Lacks kind rest := by
  obtain ⟨token, others, rfl, same⟩ := ends
  exact lacks_cons (same ▸ differs) others

/-! Structure. -/

theorem reads_createCollection {collection : CreateCollection} {levels : Nat}
    (wellFormed : collection.WellFormed levels) :
    Reads (createCollection (levels + 1)) collection.lexemes collection Anything := by
  obtain ⟨named, fields, options⟩ := wellFormed
  refine (reads_identifier named).then ((reads_definitions fields).then ?_)
  exact (reads_options options).map fun options =>
    (⟨collection.name, collection.fields, options⟩ : CreateCollection)

theorem reads_createIndex {index collection field : String} {options : Option IndexOptions}
    {levels : Nat}
    (wellFormed : (IndexCommand.create index collection field options).WellFormed levels) :
    Reads (createIndex (levels + 1))
      (ofName index :: ofKeyword .on :: ofName collection :: ofOperator .openParen ::
        ofName field :: ofOperator .closeParen ::
        options.elim [] fun options => ofOptions options.written)
      (.create index collection field options) EndsStatement := by
  obtain ⟨named, owned, indexed, given⟩ := wellFormed
  have bracketed := reads_bracketed (reads_identifier indexed) fun _ _ _ => trivial
  refine (reads_identifier named).then ((reads_keyword .on).then ?_)
  refine (reads_identifier owned).then (bracketed.then ?_)
  cases options with
  | none =>
    have absent : Reads (announced .with (mapping (levels + 1))) [] none (Lacks (.keyword .with)) :=
      reads_unannounced .with
    refine (absent.weaken fun _ ends => ends.lacks (by simp)).finish ?_
    rfl
  | some options =>
    have written := IndexOptions.writable_written (given options rfl)
    apply (reads_given written).anywhere.finish
    rw [Option.map_some, IndexOptions.ofMapping_written (given options rfl)]

/-! Verbs. Each word is passed by until the one that is written. -/

section
variable {levels : Nat} {lexemes : List Lexeme} {value : Command} {before : List Token → Prop}

theorem reads_command_create (reads : Reads (create levels) lexemes value before) :
    Reads (command levels) (ofKeyword .create :: lexemes) value before :=
  reads_accept_keyword .create reads

theorem reads_command_drop (reads : Reads drop lexemes value before) :
    Reads (command levels) (ofKeyword .drop :: lexemes) value before :=
  reads_accept_skip (reads_accept_keyword .drop reads) (by simp)

theorem reads_command_show (reads : Reads showAll lexemes value before) :
    Reads (command levels) (ofKeyword .show :: lexemes) value before := by
  iterate 2 refine reads_accept_skip ?_ (by simp)
  exact reads_accept_keyword .show reads

theorem reads_command_load (reads : Reads (load levels) lexemes value before) :
    Reads (command levels) (ofKeyword .load :: lexemes) value before := by
  iterate 3 refine reads_accept_skip ?_ (by simp)
  exact reads_accept_keyword .load reads

theorem reads_command_release (reads : Reads release lexemes value before) :
    Reads (command levels) (ofKeyword .release :: lexemes) value before := by
  iterate 4 refine reads_accept_skip ?_ (by simp)
  exact reads_accept_keyword .release reads

theorem reads_command_select (reads : Reads (select levels) lexemes value before) :
    Reads (command levels) (ofKeyword .select :: lexemes) value before := by
  iterate 12 refine reads_accept_skip ?_ (by simp)
  exact reads_accept_keyword .select reads

end

/-! Commands. -/

theorem reads_database {found : DatabaseCommand} (wellFormed : found.WellFormed) (levels : Nat) :
    Reads (command levels) found.lexemes (.database found) Anything := by
  cases found with
  | create name =>
    refine reads_command_create (reads_accept_keyword .database ?_)
    exact (reads_identifier wellFormed).map fun name => Command.database (.create name)
  | drop name =>
    refine reads_command_drop (reads_accept_keyword .database ?_)
    exact (reads_identifier wellFormed).map fun name => Command.database (.drop name)
  | use name =>
    iterate 5 refine reads_accept_skip ?_ (by simp)
    apply reads_accept_keyword .use
    exact (reads_identifier wellFormed).map fun name => Command.database (.use name)
  | showAll => exact reads_command_show (reads_accept_keyword .databases reads_pure)

theorem reads_collection {found : CollectionCommand} {levels : Nat}
    (wellFormed : found.WellFormed levels) :
    Reads (command (levels + 1)) found.lexemes (.collection found) Anything := by
  cases found with
  | showAll =>
    refine reads_command_show (reads_accept_skip ?_ (by simp))
    exact reads_accept_keyword .collections reads_pure
  | drop name =>
    refine reads_command_drop (reads_accept_skip (reads_accept_keyword .collection ?_) (by simp))
    exact (reads_identifier wellFormed).map fun name => Command.collection (.drop name)
  | release name =>
    refine reads_command_release (reads_accept_keyword .collection ?_)
    exact (reads_identifier wellFormed).map fun name => Command.collection (.release name)
  | compact name =>
    iterate 7 refine reads_accept_skip ?_ (by simp)
    refine reads_accept_keyword .compact ((reads_keyword .collection).then ?_)
    exact (reads_identifier wellFormed).map fun name => Command.collection (.compact name)
  | load name options =>
    refine reads_command_load (reads_accept_keyword .collection ?_)
    apply (reads_identifier wellFormed.1).then
    exact (reads_options wellFormed.2).map fun options => Command.collection (.load name options)
  | createAlias name collection =>
    have inner : Reads createAlias [ofName name, ofKeyword .for, ofName collection]
        (.createAlias name collection) Anything := by
      refine (reads_identifier wellFormed.1).then ((reads_keyword .for).then ?_)
      exact (reads_identifier wellFormed.2).map fun collection =>
        CollectionCommand.createAlias name collection
    apply reads_command_create
    iterate 2 refine reads_accept_skip ?_ (by simp)
    exact reads_accept_keyword .alias (inner.map Command.collection)
  | dropAlias name collection =>
    have inner : Reads dropAlias [ofName name, ofKeyword .for, ofName collection]
        (.dropAlias name collection) Anything := by
      refine (reads_identifier wellFormed.1).then ((reads_keyword .for).then ?_)
      exact (reads_identifier wellFormed.2).map fun collection =>
        CollectionCommand.dropAlias name collection
    apply reads_command_drop
    iterate 2 refine reads_accept_skip ?_ (by simp)
    exact reads_accept_keyword .alias (inner.map Command.collection)
  | showAliases collection =>
    apply reads_command_show
    iterate 2 refine reads_accept_skip ?_ (by simp)
    refine reads_accept_keyword .aliases ((reads_keyword .for).then ?_)
    exact (reads_identifier wellFormed).map fun name => Command.collection (.showAliases name)
  | rename old new database =>
    iterate 6 refine reads_accept_skip ?_ (by simp)
    refine reads_accept_keyword .rename ((reads_keyword .collection).then ?_)
    refine (reads_identifier wellFormed.1).then ((reads_keyword .to).then ?_)
    refine (reads_identifier wellFormed.2.1).then ((reads_keyword .in).then ?_)
    exact (reads_identifier wellFormed.2.2).map fun database =>
      Command.collection (.rename old new database)
  | create collection =>
    have inner := reads_createCollection wellFormed
    refine reads_command_create (reads_accept_skip (reads_accept_keyword .collection ?_) (by simp))
    exact inner.map fun collection => Command.collection (.create collection)

theorem reads_partition {found : PartitionCommand} {levels : Nat}
    (wellFormed : found.WellFormed levels) :
    Reads (command (levels + 1)) found.lexemes (.partition found) Anything := by
  cases found with
  | create partition collection options =>
    obtain ⟨named, owned, given⟩ := wellFormed
    have inner : Reads (createPartition (levels + 1))
        (ofName partition :: ofKeyword .on :: ofName collection :: ofOptions options.entries)
        (.create partition collection options) Anything := by
      refine (reads_identifier named).then ((reads_keyword .on).then ?_)
      apply (reads_identifier owned).then
      exact (reads_options given).map fun options =>
        PartitionCommand.create partition collection options
    apply reads_command_create
    iterate 3 refine reads_accept_skip ?_ (by simp)
    exact reads_accept_keyword .partition (inner.map Command.partition)
  | showAll collection =>
    apply reads_command_show
    iterate 3 refine reads_accept_skip ?_ (by simp)
    refine reads_accept_keyword .partitions ((reads_keyword .on).then ?_)
    exact (reads_identifier wellFormed).map fun name => Command.partition (.showAll name)
  | drop partition collection =>
    have inner : Reads dropPartition [ofName partition, ofKeyword .on, ofName collection]
        (.drop partition collection) Anything := by
      refine (reads_identifier wellFormed.1).then ((reads_keyword .on).then ?_)
      exact (reads_identifier wellFormed.2).map fun collection =>
        PartitionCommand.drop partition collection
    apply reads_command_drop
    iterate 3 refine reads_accept_skip ?_ (by simp)
    exact reads_accept_keyword .partition (inner.map Command.partition)
  | load collection partitions options =>
    obtain ⟨owned, filled, named, given⟩ := wellFormed
    refine reads_command_load (reads_accept_skip (reads_accept_keyword .partition ?_) (by simp))
    refine (reads_names filled named).bind ((reads_keyword .on).then ?_) (meets_lacks (by simp))
    apply (reads_identifier owned).then
    exact (reads_options given).map fun options =>
      Command.partition (.load collection partitions options)
  | release collection partitions =>
    obtain ⟨owned, filled, named⟩ := wellFormed
    refine reads_command_release (reads_accept_skip (reads_accept_keyword .partition ?_) (by simp))
    refine (reads_names filled named).bind ((reads_keyword .on).then ?_) (meets_lacks (by simp))
    exact (reads_identifier owned).map fun collection =>
      Command.partition (.release collection partitions)

theorem reads_index {found : IndexCommand} {levels : Nat} (wellFormed : found.WellFormed levels) :
    Reads (command (levels + 1)) found.lexemes (.index found) EndsStatement := by
  cases found with
  | create index collection field options =>
    apply reads_command_create
    iterate 4 refine reads_accept_skip ?_ (by simp)
    exact reads_accept_keyword .index ((reads_createIndex wellFormed).map Command.index)
  | showAll collection =>
    apply reads_command_show
    iterate 4 refine reads_accept_skip ?_ (by simp)
    refine reads_accept_keyword .indexes ((reads_keyword .on).then ?_)
    exact ((reads_identifier wellFormed).map fun name => Command.index (.showAll name)).anywhere
  | drop index collection =>
    have inner : Reads dropIndex [ofName index, ofKeyword .on, ofName collection]
        (.drop index collection) Anything := by
      refine (reads_identifier wellFormed.1).then ((reads_keyword .on).then ?_)
      exact (reads_identifier wellFormed.2).map fun collection => IndexCommand.drop index collection
    apply reads_command_drop
    iterate 4 refine reads_accept_skip ?_ (by simp)
    exact reads_accept_keyword .index (inner.anywhere.map Command.index)

theorem reads_writing {found : WriteCommand} {levels : Nat} (wellFormed : found.WellFormed levels) :
    Reads (command levels) found.lexemes (.write found) EndsStatement := by
  cases found with
  | bulk files =>
    have inner : Reads bulkInsert files.lexemes files EndsStatement :=
      (reads_bulkInsert wellFormed).weaken fun _ ends =>
        ⟨ends.lacks (by simp), ends.lacks (by simp)⟩
    iterate 8 refine reads_accept_skip ?_ (by simp)
    exact reads_accept_keyword .bulk (inner.map fun files => Command.write (.bulk files))
  | insert write =>
    have inner : Reads (Grammar.write levels) write.lexemes write EndsStatement :=
      (reads_write wellFormed).weaken fun _ ends => ends.lacks (by simp)
    iterate 9 refine reads_accept_skip ?_ (by simp)
    exact reads_accept_keyword .insert (inner.map fun write => Command.write (.insert write))
  | upsert write =>
    have inner : Reads (Grammar.write levels) write.lexemes write EndsStatement :=
      (reads_write wellFormed).weaken fun _ ends => ends.lacks (by simp)
    iterate 10 refine reads_accept_skip ?_ (by simp)
    exact reads_accept_keyword .upsert (inner.map fun write => Command.write (.upsert write))

/-! Statements. -/

theorem reads_delete_command {found : Delete} {levels : Nat} (wellFormed : found.WellFormed levels) :
    Reads (command (levels + 1)) (ofKeyword .delete :: found.lexemes) (.delete found) Anything := by
  iterate 11 refine reads_accept_skip ?_ (by simp)
  exact reads_accept_keyword .delete ((reads_delete wellFormed).map Command.delete)

theorem reads_command {found : Command} {levels : Nat} (wellFormed : found.WellFormed (levels + 2)) :
    Reads (command (levels + 2)) found.lexemes found EndsStatement := by
  obtain ⟨-, wellFormed⟩ := wellFormed
  have more : levels ≤ levels + 1 := by omega
  cases found with
  | database found => exact (reads_database wellFormed _).anywhere
  | collection found => exact (reads_collection (wellFormed.mono more)).anywhere
  | partition found => exact (reads_partition (wellFormed.mono more)).anywhere
  | index found => exact reads_index (wellFormed.mono more)
  | write found => exact reads_writing (wellFormed.mono (by omega))
  | delete found => exact (reads_delete_command (wellFormed.mono more)).anywhere
  | query found => exact (reads_command_select (reads_select_query (wellFormed.mono more))).anywhere
  | search found => exact (reads_command_select (reads_select_search wellFormed)).anywhere

theorem reads_finished : Reads finished [] () (· = []) := by
  refine ⟨by simp, fun tokens spells rest empty => ?_⟩
  rw [spells.nil_cases, empty]
  rfl

theorem reads_ended {found : Command} {levels : Nat} {lexemes : List Lexeme}
    (reads : Reads (command levels) lexemes found EndsStatement) :
    Reads (statement levels) (lexemes ++ [.semicolon]) found (· = []) := by
  have ending : Meets [.semicolon] (· = []) EndsStatement := by
    intro tokens spells rest _
    obtain ⟨token, behind, rfl, kind, -⟩ := spells.cons_cases
    exact ⟨token, behind ++ rest, rfl, kind⟩
  refine reads.bind ?_ ending
  exact (reads_expect stands_semicolon).then (reads_finished.map fun _ => found)

theorem reads_statement {found : Command} {levels : Nat}
    (wellFormed : found.WellFormed (levels + 2)) :
    Reads (statement (levels + 2)) (found.lexemes ++ [.semicolon]) found (· = []) :=
  reads_ended (reads_command wellFormed)

end VectorQuery.Grammar

namespace VectorQuery.Command
open Lexeme Grammar

/-- A well-formed command is read from its own statement, where that is not too long. -/
theorem readText_statement {limits : Limits} {command : Command}
    (wellFormed : command.WellFormed limits.maxDepth)
    (short : limits.checkLength command.statement = .ok ()) :
    limits.readText command.statement = .ok command := by
  obtain ⟨levels, depth⟩ : ∃ levels, limits.maxDepth = levels + 2 :=
    ⟨limits.maxDepth - 2, by have := wellFormed.1; omega⟩
  rw [depth] at wellFormed
  have reads := reads_statement wellFormed
  obtain ⟨tokens, split, spells⟩ := sequence_written reads.stand
  have read := reads.reads spells [] rfl
  rw [List.append_nil, ← depth] at read
  exact readText_of_tokens short split read

/-- A deletion from a partition, with its filter among the options. -/
theorem readText_statement_of_delete :
    let command : Command :=
      .delete ⟨"books", some "old", some "a like 'b'", ⟨[("n", .array [.integer (-3), .null])]⟩⟩
    command.WellFormed 64 ∧
      command.statement =
        "DELETE FROM PARTITION old ON books WITH \x7b 'expr' : \"a like 'b'\" , 'n' : [ -3 , null ] \x7d ; " ∧
      ({} : Limits).readText command.statement = .ok command := by
  intro command
  have name (text : String) (checked : text.toList.head?.any isWordStart = true ∧
      text.toList.all isWordPart = true) (free : Text.upper text ≠ "TRUE" ∧
      Text.upper text ≠ "FALSE" ∧ Text.upper text ≠ "NULL")
      (unreserved : Keyword.ofWord? (Text.upper text) = none) : IsName text :=
    ⟨isWord_of_checked checked.1 checked.2, free, unreserved⟩
  have wellFormed : command.WellFormed 64 := by
    refine ⟨by decide, ?_⟩
    constructor
    · exact name "books" ⟨rfl, rfl⟩ (by decide) rfl
    · intro text given
      obtain rfl := Option.some.inj given
      exact name "old" ⟨rfl, rfl⟩ (by decide) rfl
    · intro text given
      obtain rfl := Option.some.inj given
      exact ⟨'"', rfl, by decide⟩
    · exact ⟨by decide, ⟨'"', rfl, by decide⟩, ⟨trivial, trivial, trivial⟩, trivial⟩
    · decide
  exact ⟨wellFormed, by rfl, readText_statement wellFormed rfl⟩

end VectorQuery.Command
