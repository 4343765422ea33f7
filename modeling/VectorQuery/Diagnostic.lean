import VectorQuery.Text.Line
import VectorQuery.Value.Written

/-! Diagnostics: what went wrong, where in the statement, and what may help. The
report shows the source line with a caret below the offending column. -/
namespace VectorQuery

/-- A piece of a statement and where it starts. Lines and columns count from one. -/
structure Fragment where
  text : String
  line : Nat
  column : Nat
deriving DecidableEq, Repr

namespace Fragment

def textOf (fragment : Option Fragment) : String :=
  fragment.elim "" text

/-- The line of a fragment that may be absent. Without one it is the first. -/
def lineOf (fragment : Option Fragment) : Nat :=
  fragment.elim 1 line

/-- The column of a fragment that may be absent. Without one it is zero, before the
first. -/
def columnOf (fragment : Option Fragment) : Nat :=
  fragment.elim 0 column

end Fragment

structure Diagnostic where
  code : String
  message : String
  statement : Option String := none
  fragment : Option Fragment := none
  label : Option String := none
  help : Option String := none
  notes : List String := []
deriving DecidableEq, Repr

namespace Diagnostic

/-- The text holds a character or a number that no token accepts. -/
def isLexical (diagnostic : Diagnostic) : Bool :=
  "LEX_".toList.isPrefixOf diagnostic.code.toList

/-- The tokens match no statement. -/
def isGrammatical (diagnostic : Diagnostic) : Bool :=
  "PARSE_".toList.isPrefixOf diagnostic.code.toList

def withStatement (diagnostic : Diagnostic) (statement : String) : Diagnostic :=
  { diagnostic with statement := some statement }

def spaces (count : Nat) : String :=
  String.ofList (List.replicate count ' ')

def aligned (width : Nat) (text : String) : String :=
  spaces (width - text.length) ++ text

/-- The place of a fragment, and below it the source line and a caret when the
statement is known. -/
def excerpt (diagnostic : Diagnostic) (fragment : Fragment) : String :=
  let number := Decimal.text fragment.line
  let column := max fragment.column 1
  let width := max number.length 2
  let gutter (mark : String) := " " ++ aligned width mark ++ " │"
  " " ++ spaces width ++ "--> line " ++ number ++ ", column " ++ Decimal.text column ++ "\n" ++
    match diagnostic.statement with
    | none => ""
    | some statement =>
      gutter "" ++ "\n" ++
      gutter number ++ " " ++ String.ofList (Text.line statement.toList fragment.line) ++ "\n" ++
      gutter "" ++ " " ++ spaces (column - 1) ++ "^ " ++ diagnostic.label.getD "" ++ "\n"

def report (diagnostic : Diagnostic) : String :=
  "error[" ++ diagnostic.code ++ "]: " ++ diagnostic.message ++ "\n" ++
    diagnostic.fragment.elim "" diagnostic.excerpt ++
    diagnostic.help.elim "" (fun help => "\nhelp: " ++ help ++ "\n") ++
    String.join (diagnostic.notes.map fun note => "note: " ++ note ++ "\n")

def toValue (diagnostic : Diagnostic) : Value :=
  let optional (text : Option String) : Value := text.elim .null .text
  .object [
    ("code", .text diagnostic.code),
    ("statement", optional diagnostic.statement),
    ("message", .text diagnostic.message),
    ("fragment", diagnostic.fragment.elim (.text "None") fun fragment =>
      .object [("Statement", .object [
        ("text", .text fragment.text),
        ("line", .integer (Int64.ofNat fragment.line)),
        ("column", .integer (Int64.ofNat fragment.column))])]),
    ("label", optional diagnostic.label),
    ("help", optional diagnostic.help),
    ("notes", .array (diagnostic.notes.map .text))]

end Diagnostic

end VectorQuery
