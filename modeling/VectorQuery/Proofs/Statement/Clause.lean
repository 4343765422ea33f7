import VectorQuery.Proofs.Statement.Field
import VectorQuery.Proofs.Statement.Value

/-! Written clauses read back: options and the filter among them, targets, names, limits
and columns. -/
namespace VectorQuery.Grammar
open Lexeme Document

/-! Names. -/

theorem reads_names {names : List String} (filled : names ≠ [])
    (each : ∀ name ∈ names, IsName name) :
    Reads (separated identifier) (ofNames names) names (Lacks (.separator .comma)) :=
  reads_items identifier_strict.shrinking filled fun name inside => reads_identifier (each name inside)

theorem reads_target {partition : Option String} {collection : String}
    (named : ∀ name ∈ partition, IsName name) (isName : IsName collection) :
    Reads target (ofTarget partition collection) (partition, collection) Anything := by
  cases partition with
  | none =>
    refine reads_accept_skip ?_ (by simp)
    exact (reads_identifier isName).map fun collection => (none, collection)
  | some partition =>
    refine reads_accept_keyword .partition ((reads_identifier (named partition rfl)).then ?_)
    apply (reads_keyword .on).then
    exact (reads_identifier isName).map fun collection => (some partition, collection)

theorem reads_bulkTarget {partition : Option String} {collection : String}
    (named : ∀ name ∈ partition, IsName name) (isName : IsName collection) :
    Reads bulkTarget (ofBulkTarget partition collection) (partition, collection) Anything := by
  cases partition with
  | none =>
    refine reads_accept_skip ((reads_keyword .collection).then ?_) (by simp)
    exact (reads_identifier isName).map fun collection => (none, collection)
  | some partition =>
    refine reads_accept_keyword .partition ((reads_identifier (named partition rfl)).then ?_)
    apply (reads_keyword .on).then
    exact (reads_identifier isName).map fun collection => (some partition, collection)

theorem reads_selectedPartitions {names : List String} (each : ∀ name ∈ names, IsName name) :
    Reads selectedPartitions (ofSelected names) names (Lacks (.keyword .partition)) := by
  cases names with
  | nil =>
    refine reads_accept_of_lacks ?_ (meets_nil fun _ lacks => lacks)
    exact reads_pure.anywhere
  | cons name others =>
    refine reads_accept_keyword .partition ((reads_names (by simp) each).bind ?_ (meets_lacks (by simp)))
    exact ((reads_keyword .on).map fun _ => name :: others).anywhere

/-! Columns. -/

theorem isName_ne_star {name : String} (isName : IsName name) : name ≠ "*" := by
  rintro rfl
  obtain ⟨character, others, spelled, start⟩ := isName.word.start
  obtain ⟨rfl, -⟩ := List.cons.inj spelled
  contradiction

theorem isName_ne_count {name : String} (isName : IsName name) : name ≠ "count(*)" := by
  rintro rfl
  have part := isName.word.parts '(' (by decide)
  contradiction

theorem reads_column {name : String} (isColumn : IsColumn name) :
    Reads column (ofColumn name) name Anything := by
  rcases isColumn with rfl | rfl | isName
  · exact reads_accept (stands_ofOperator .star) reads_pure
  · refine reads_accept_skip (reads_accept_keyword .count ?_) (by simp)
    have inner := reads_bracketed (reads_operator .star) fun _ _ _ => trivial
    exact inner.map fun _ => "count(*)"
  · rw [ofColumn, if_neg (isName_ne_star isName), if_neg (isName_ne_count isName)]
    refine reads_accept_skip (reads_accept_skip ?_ (by simp)) (by simp)
    exact reads_identifier isName

/-! Limits. -/

theorem reads_limit (word : Keyword) (number : Option Int64) :
    Reads (announced word integer) (ofLimit word number) number (Lacks (.keyword word)) := by
  cases number with
  | none => exact reads_unannounced word
  | some number => exact (reads_announced word (reads_integer number)).anywhere

/-! Options. -/

theorem reads_given {mapping : Mapping} {levels : Nat} (writable : mapping.Writable levels) :
    Reads (announced .with (Grammar.mapping (levels + 1))) (ofOptions mapping.entries)
      (some mapping) Anything :=
  reads_announced .with (reads_mapping writable)

theorem reads_options {mapping : Mapping} {levels : Nat} (writable : mapping.Writable levels) :
    Reads (options (levels + 1)) (ofOptions mapping.entries) mapping Anything :=
  (reads_given writable).map fun given => given.getD .empty

end VectorQuery.Grammar
