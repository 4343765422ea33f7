import VectorQuery.Proofs.Decimal
import VectorQuery.Proofs.Text.Line

/-! The layout of a report. The source line and the caret stand in two rows, one below the
other, behind margins that are equally wide however many digits the number of the line has. -/
namespace VectorQuery
open Text

theorem Text.feed_not_mem_line (text : List Char) (number : Nat) : '\n' ∉ line text number := by
  have absent (text : List Char) : '\n' ∉ text.takeWhile (· ≠ '\n') := fun inside => by
    simpa using List.all_eq_true.mp List.all_takeWhile '\n' inside
  fun_induction line with
  | case1 text number ih => exact ih
  | case2 => exact fun inside => absent _ ((withoutReturn_front _).subset inside)
  | case3 => exact absent _

namespace Diagnostic

/-- What stands to the left of the source: a mark, in a column that is wide enough for the
number of the line. -/
def margin (number : Nat) (mark : String) : List Char :=
  ' ' :: (aligned (max (Decimal.text number).length 2) mark).toList ++ [' ', '│', ' ']

theorem length_aligned {width : Nat} {text : String} (fits : text.length ≤ width) :
    (aligned width text).length = width := by
  simp [aligned, spaces]
  omega

theorem length_margin (number : Nat) :
    (margin number (Decimal.text number)).length = (margin number "").length := by
  simp only [margin, List.length_cons, List.length_append, String.length_toList]
  rw [length_aligned (Nat.le_max_left _ _), length_aligned (Nat.zero_le _)]

theorem feed_not_mem_margin {mark : String} (absent : '\n' ∉ mark.toList) (number : Nat) :
    '\n' ∉ margin number mark := by
  simp [margin, aligned, spaces, absent]

/-- The report has this line of the source, and below it a caret in this column, behind
margins that are equally wide. -/
def Shows (diagnostic : Diagnostic) (number column : Nat) (line : List Char) : Prop :=
  (margin number (Decimal.text number)).length = (margin number "").length ∧
    ∃ label, [margin number (Decimal.text number) ++ line,
      margin number "" ++ List.replicate (column - 1) ' ' ++ '^' :: label] <:+:
        diagnostic.report.toList.splitOn '\n'

theorem excerpt_split {diagnostic : Diagnostic} {statement : String}
    (known : diagnostic.statement = some statement) (fragment : Fragment) : ∃ front tail,
      (diagnostic.excerpt fragment).toList = front ++ '\n' ::
        (margin fragment.line (Decimal.text fragment.line) ++ line statement.toList fragment.line ++
          '\n' :: (margin fragment.line "" ++ List.replicate (fragment.column - 1) ' ' ++ ['^'] ++
            tail)) := by
  have column : max fragment.column 1 - 1 = fragment.column - 1 := by omega
  let number := Decimal.text fragment.line
  let width := max number.length 2
  refine ⟨(" " ++ spaces width ++ "--> line " ++ number ++ ", column " ++
      Decimal.text (max fragment.column 1) ++ "\n " ++ aligned width "" ++ " │").toList,
    (" " ++ diagnostic.label.getD "" ++ "\n").toList, ?_⟩
  simp [excerpt, known, margin, spaces, column, number, width]

theorem report_split {diagnostic : Diagnostic} {fragment : Fragment}
    (placed : diagnostic.fragment = some fragment) : ∃ front tail,
      diagnostic.report.toList = front ++ (diagnostic.excerpt fragment).toList ++ tail := by
  refine ⟨("error[" ++ diagnostic.code ++ "]: " ++ diagnostic.message ++ "\n").toList,
    (diagnostic.help.elim "" (fun help => "\nhelp: " ++ help ++ "\n") ++
      String.join (diagnostic.notes.map fun note => "note: " ++ note ++ "\n")).toList, ?_⟩
  simp [report, placed]

/-- Whatever line feeds the message and the label have, the two rows stand apart. -/
theorem report_shows {diagnostic : Diagnostic} {fragment : Fragment} {statement : String}
    (known : diagnostic.statement = some statement)
    (placed : diagnostic.fragment = some fragment) :
    diagnostic.Shows fragment.line fragment.column (line statement.toList fragment.line) := by
  obtain ⟨before, behind, whole⟩ := report_split placed
  obtain ⟨front, tail, split⟩ := excerpt_split known fragment
  have digits : '\n' ∉ (Decimal.text fragment.line).toList := by
    rw [Decimal.text, String.toList_ofList]
    exact fun inside => by simpa using (Decimal.digits_isWhole fragment.line).2.1 _ inside
  have row : '\n' ∉ margin fragment.line (Decimal.text fragment.line) ++
      line statement.toList fragment.line := by
    simp [feed_not_mem_margin digits, feed_not_mem_line]
  have caret : '\n' ∉ margin fragment.line "" ++ List.replicate (fragment.column - 1) ' ' ++
      ['^'] := by
    simp [@feed_not_mem_margin "" (by simp)]
  have rows : diagnostic.report.toList.splitOn '\n' = (before ++ front).splitOn '\n' ++
      (margin fragment.line (Decimal.text fragment.line) ++ line statement.toList fragment.line) ::
      ((tail ++ behind).splitOn '\n').modifyHead (margin fragment.line "" ++
        List.replicate (fragment.column - 1) ' ' ++ ['^'] ++ ·) := by
    rw [← splitOn_append_of_not_mem caret, ← List.splitOn_append_cons_self_of_not_mem row,
      ← List.splitOn_append_cons_self, whole, split]
    simp
  cases others : (tail ++ behind).splitOn '\n' with
  | nil => exact absurd others (List.splitOn_ne_nil _ _)
  | cons label others' =>
    refine ⟨length_margin fragment.line, label, (before ++ front).splitOn '\n', others', ?_⟩
    simp [rows, others]

end Diagnostic

end VectorQuery
