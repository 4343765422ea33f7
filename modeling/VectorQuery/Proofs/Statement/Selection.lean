import VectorQuery.Grammar.Selection
import VectorQuery.Proofs.Statement.Clause
import VectorQuery.Proofs.Statement.Options

/-! Written selections read back: deletions, queries and searches. Their filter comes
from the options, so the clause that would compile one is never written. -/
namespace VectorQuery.Grammar
open Lexeme

theorem reads_unfiltered (levels : Nat) :
    Reads (compiledFilter levels) [] none (Lacks (.keyword .where)) :=
  (reads_unannounced .where).map (Option.map Condition.predicate)

theorem reads_clauses {mapping : Mapping} {levels : Nat} (writable : mapping.Writable levels) :
    Reads (clauses (levels + 1)) (ofOptions mapping.entries) (none, mapping) Anything :=
  (reads_unfiltered _).nil_bind ((reads_given writable).finish rfl) (meets_lacks (by simp))

theorem reads_delete {delete : Delete} {levels : Nat} (wellFormed : delete.WellFormed levels) :
    Reads (Grammar.delete (levels + 1)) delete.lexemes delete Anything := by
  obtain ⟨collection, partition, filter, options⟩ := delete
  obtain ⟨named, parted, lacks, writable, bare⟩ := wellFormed
  have given := reads_clauses (writable_filterEntries lacks writable bare)
  refine (reads_keyword .from).then ((reads_target parted named).then (given.finish ?_))
  simp only [Mapping.filterOr, filter?_written bare, withoutFilter_written bare, Option.or_none]

/-- A number that may be left out keeps the next word from view only by its own. -/
theorem meets_limit {word : Keyword} {number : Option Int64} {others : List Lexeme}
    {before : List Token → Prop} {kind : TokenKind} (differs : .keyword word ≠ kind)
    (meets : Meets others before (Lacks kind)) :
    Meets (ofLimit word number ++ others) before (Lacks kind) := by
  cases number with
  | none => exact meets
  | some number => exact meets_lacks differs

theorem reads_query {query : Query} {levels : Nat} (wellFormed : query.WellFormed levels) :
    Reads (Grammar.query (levels + 1) query.columns query.partitions query.collection)
      (ofLimit .limit query.limit ++ (ofLimit .offset query.offset ++
        ofOptions (filterEntries query.filter query.options.entries))) query Anything := by
  obtain ⟨collection, columns, partitions, limit, offset, filter, options⟩ := query
  obtain ⟨named, chosen, parted, lacks, writable, bare⟩ := wellFormed
  have given := reads_clauses (writable_filterEntries lacks writable bare)
  refine (reads_limit .limit limit).bind ?_ (meets_limit (by simp) (meets_lacks (by simp)))
  refine (reads_limit .offset offset).bind (given.finish ?_) (meets_lacks (by simp))
  simp only [Mapping.filterOr, filter?_written bare, withoutFilter_written bare, Option.or_none]

/-! Vectors. -/

theorem vectors?_arrays {vectors : List (List Value)} (filled : vectors ≠ []) :
    Value.vectors? (vectors.map .array) = some vectors := by
  have some : (vectors.map Value.array).all (!·.isArray) = false := by
    obtain ⟨vector, others, rfl⟩ := List.exists_cons_of_ne_nil filled
    simp [Value.isArray]
  rw [Value.vectors?, some]
  clear filled some
  induction vectors with
  | nil => rfl
  | cons vector others ih =>
    simp only [Bool.false_eq_true, if_false] at ih
    simp [List.mapM_cons, ih]

theorem reads_vectors {vectors : List (List Value)} {levels : Nat} (filled : vectors ≠ [])
    (writable : ∀ vector ∈ vectors, ∀ value ∈ vector, value.Writable levels) :
    Reads (Grammar.vectors (levels + 2)) (Value.array (vectors.map .array)).lexemes vectors
      Anything := by
  have items : Value.ItemsWritable (vectors.map .array) (levels + 1) := by
    rw [Value.itemsWritable_iff]
    intro item inside
    obtain ⟨vector, member, rfl⟩ := List.mem_map.mp inside
    exact Value.itemsWritable_iff.mpr (writable vector member)
  have list := reads_list items (by simpa using filled)
  refine reads_current fun opening => list.finish ?_
  rw [vectors?_arrays filled]

theorem reads_search {search : Search} {levels : Nat} (wellFormed : search.WellFormed levels) :
    Reads (Grammar.search (levels + 2) search.columns search.partitions search.collection)
      (ofKeyword .order :: ofKeyword .by :: ofName search.target :: ofOperator .less ::
        ofOperator .minus :: ofOperator .greater ::
        ((Value.array (search.vectors.map .array)).lexemes ++ (ofLimit .limit search.limit ++
          ofOptions (filterEntries search.filter search.options.written)))) search Anything := by
  obtain ⟨collection, columns, partitions, target, vectors, limit, filter, options⟩ := search
  obtain ⟨named, chosen, parted, aimed, ⟨filled, inner⟩, lacks, given⟩ := wellFormed
  have bare : "expr" ∉ options.written.map Prod.fst :=
    SearchOptions.absent_written (by decide) (by decide) (by decide) options
  have writable := SearchOptions.writable_written given
  have mapping := reads_mapping (writable_filterEntries lacks writable bare)
  refine (reads_keyword .order).then ((reads_keyword .by).then ?_)
  refine (reads_identifier aimed).then ((reads_operator .less).then ?_)
  refine (reads_operator .minus).then ((reads_operator .greater).then ?_)
  apply (reads_vectors filled inner).then
  refine (reads_limit .limit limit).bind ?_ (meets_lacks (by simp))
  refine (reads_unfiltered _).nil_bind ?_ (meets_lacks (by simp))
  refine (reads_keyword .with).then (mapping.finish ?_)
  simp only [Mapping.filterOr, filter?_written bare, withoutFilter_written bare, Option.or_none,
    SearchOptions.ofMapping_written given.options.1]

/-! Selections. -/

theorem reads_selection {columns partitions : List String} {collection : String}
    {rest : List Lexeme} {next : List String → List String → String → Rule Command}
    {command : Command} (chosen : columns ≠ [] ∧ ∀ column ∈ columns, IsColumn column)
    (parted : ∀ name ∈ partitions, IsName name) (named : IsName collection)
    (reads : Reads (next columns partitions collection) rest command Anything) :
    Reads (do
      let columns ← separated column
      keyword .from
      let partitions ← selectedPartitions
      let collection ← identifier
      next columns partitions collection) (ofSelection columns partitions collection rest) command
      Anything := by
  have names := reads_items column_shrinking chosen.1 fun name inside =>
    reads_column (chosen.2 name inside)
  refine names.bind ((reads_keyword .from).then ?_) (meets_lacks (by simp))
  refine (reads_selectedPartitions parted).bind ?_ (meets_lacks (by simp))
  exact (reads_identifier named).then reads

theorem reads_select_query {query : Query} {levels : Nat} (wellFormed : query.WellFormed levels) :
    Reads (select (levels + 1)) query.lexemes (.query query) Anything := by
  apply reads_selection wellFormed.columns wellFormed.partitions wellFormed.collection
  apply reads_peek_of_lacks ((reads_query wellFormed).map Command.query)
  exact meets_limit (by simp) (meets_limit (by simp) (meets_lacks (by simp)))

theorem reads_select_search {search : Search} {levels : Nat}
    (wellFormed : search.WellFormed levels) :
    Reads (select (levels + 2)) search.lexemes (.search search) Anything := by
  apply reads_selection wellFormed.columns wellFormed.partitions wellFormed.collection
  exact reads_peek (ofKeyword .order) ((reads_search wellFormed).map Command.search)

end VectorQuery.Grammar
