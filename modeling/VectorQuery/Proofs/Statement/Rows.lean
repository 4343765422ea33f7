import VectorQuery.Proofs.Statement.Clause

/-! Written rows and files read back. The names of the longest row serve every row,
since the keys of each start those of every longer one. -/
namespace VectorQuery

namespace Write

theorem length_le_longestKeys {rows : List Mapping} {row : Mapping} (inside : row ∈ rows) :
    row.keys.length ≤ (longestKeys rows).length := by
  induction rows with
  | nil => contradiction
  | cons first rows ih =>
    rw [longestKeys]
    rcases List.mem_cons.mp inside with rfl | later
    · split <;> omega
    · have shorter := ih later
      split <;> omega

theorem longestKeys_mem {rows : List Mapping} (filled : longestKeys rows ≠ []) :
    ∃ row ∈ rows, longestKeys rows = row.keys := by
  induction rows with
  | nil => contradiction
  | cons first rows ih =>
    rw [longestKeys] at filled ⊢
    split
    · exact ⟨first, by simp, rfl⟩
    next shorter =>
      rw [if_neg shorter] at filled
      obtain ⟨row, inside, same⟩ := ih filled
      exact ⟨row, by simp [inside], same⟩

theorem keys_prefix_longestKeys {rows : List Mapping}
    (aligned : ∀ row ∈ rows, ∀ other ∈ rows, row.keys <+: other.keys ∨ other.keys <+: row.keys)
    {row : Mapping} (inside : row ∈ rows) : row.keys <+: longestKeys rows := by
  have shorter := length_le_longestKeys inside
  by_cases empty : longestKeys rows = []
  · have none : row.keys = [] := List.length_eq_zero_iff.mp (by simpa [empty] using shorter)
    rw [none]
    exact List.nil_prefix
  · obtain ⟨other, member, same⟩ := longestKeys_mem empty
    rw [same] at shorter ⊢
    rcases aligned row inside other member with starts | reverse
    · exact starts
    · have whole : other.keys = row.keys := reverse.eq_of_length_le shorter
      exact whole ▸ List.prefix_rfl

theorem longestKeys_ne_nil {rows : List Mapping} (filled : rows ≠ [])
    (full : ∀ row ∈ rows, row.entries ≠ []) : longestKeys rows ≠ [] := by
  obtain ⟨row, others, rfl⟩ := List.exists_cons_of_ne_nil filled
  have long : row.keys.length ≤ (longestKeys (row :: others)).length :=
    length_le_longestKeys (by simp)
  have positive : 0 < row.keys.length := by
    simpa [Mapping.keys] using List.length_pos_iff.mpr (full row (by simp))
  exact List.length_pos_iff.mp (by omega)

theorem zip_of_prefix {names : List String} {entries : List (String × Value)}
    (starts : entries.map Prod.fst <+: names) : names.zip (entries.map Prod.snd) = entries := by
  induction entries generalizing names with
  | nil => simp
  | cons entry entries ih =>
    obtain ⟨others, rfl⟩ := starts
    have behind : (entries.map Prod.fst ++ others).zip (entries.map Prod.snd) = entries :=
      ih (List.prefix_append ..)
    simpa using behind

end Write

namespace Grammar
open Lexeme

theorem reads_row {row : Mapping} {names : List String} {levels : Nat}
    (filled : row.entries ≠ []) (distinct : row.keys.Nodup) (starts : row.keys <+: names)
    (writable : ∀ entry ∈ row.entries, entry.2.Writable levels) :
    Reads (Grammar.row levels names) (Write.rowLexemes row) row Anything := by
  have each : ∀ value ∈ row.entries.map Prod.snd,
      Reads (Grammar.value levels) value.lexemes value Anything := by
    intro value inside
    obtain ⟨entry, member, rfl⟩ := List.mem_map.mp inside
    exact reads_value (writable entry member)
  have values := reads_items (value_sound levels).shrinking (by simpa using filled) each
  have between := reads_bracketed values fun token rest closes =>
    lacks_cons (by simp [closes]) rest
  have whole := between.map fun values => Mapping.ofList (names.zip values)
  rwa [Write.zip_of_prefix starts, Mapping.ofList_of_distinct distinct] at whole

theorem reads_write {write : Write} {levels : Nat} (wellFormed : write.WellFormed levels) :
    Reads (Grammar.write levels) write.lexemes write (Lacks (.separator .comma)) := by
  obtain ⟨named, partition, ⟨filled, full⟩, keys, writable, aligned⟩ := wellFormed
  have written := Write.longestKeys_ne_nil filled full
  have names : ∀ name ∈ Write.longestKeys write.rows, IsName name := by
    obtain ⟨row, inside, same⟩ := Write.longestKeys_mem written
    exact same ▸ (keys row inside).2
  have rows := reads_items (row_shrinking (value_sound levels).shrinking _) filled
    fun row inside => reads_row (full row inside) (keys row inside).1
      (Write.keys_prefix_longestKeys aligned inside) (writable row inside)
  have header := reads_bracketed (reads_names written names) fun token rest closes =>
    lacks_cons (by simp [closes]) rest
  refine (reads_keyword .into).then ((reads_target partition named).then ?_)
  refine header.then ((reads_keyword .values).then ?_)
  exact rows.map fun rows => (⟨write.collection, write.partition, rows⟩ : Write)

/-! Files. -/

/-- Neither a comma nor a text comes next. -/
def EndsFiles (rest : List Token) : Prop :=
  Lacks (.separator .comma) rest ∧ Lacks (.literal .text) rest

theorem reads_file {content : String} (lacks : LacksQuote content) {separator : List Lexeme}
    (isSeparator : IsSeparator separator) :
    Reads file (separator ++ [ofText content]) (some content) Anything := by
  have text := (reads_text lacks).map some
  rcases isSeparator with rfl | rfl
  · exact reads_accept_skip (reads_peek (ofText content) text) (by simp)
  · exact reads_accept stands_comma text

theorem reads_no_file : Reads file [] none EndsFiles := by
  refine reads_accept_of_lacks (reads_peek_of_lacks ?_ (meets_nil fun _ ends => ends.2))
    (meets_nil fun _ ends => ends.1)
  exact reads_pure.anywhere

theorem reads_files {files : List String} (lacks : ∀ content ∈ files, LacksQuote content)
    {separator : List Lexeme} (isSeparator : IsSeparator separator) :
    Reads (many file) (separatedBy separator (fun content => [ofText content]) files) files
      EndsFiles := by
  have consuming := file_advancing.consuming
  induction files generalizing separator with
  | nil => exact reads_many_nil consuming reads_no_file
  | cons content files ih =>
    have first := reads_file (lacks content (by simp)) isSeparator
    have behind := ih (fun other inside => lacks other (by simp [inside])) (.inr rfl)
    exact reads_many_cons consuming first behind meets_anything

theorem reads_bulkInsert {insert : BulkInsert} (wellFormed : insert.WellFormed) :
    Reads bulkInsert insert.lexemes insert EndsFiles := by
  obtain ⟨named, partition, lacks⟩ := wellFormed
  refine (reads_keyword .insert).then ((reads_bulkTarget partition named).then ?_)
  apply (reads_keyword .from).then
  exact (reads_files lacks (.inl rfl)).map fun files =>
    (⟨insert.collection, insert.partition, files⟩ : BulkInsert)

end Grammar

end VectorQuery
