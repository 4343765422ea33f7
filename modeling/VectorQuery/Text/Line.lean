/-! The lines of a text. A line ends at a line feed, which may follow a carriage
return; the last line needs no end. -/
namespace VectorQuery.Text

def withoutReturn (line : List Char) : List Char :=
  if line.getLast? = some '\r' then line.dropLast else line

/-- The line with the given number, counted from one; number zero also means the
first. Empty past the end. A carriage return belongs to the line end only when a
line feed follows. -/
def line (text : List Char) : Nat → List Char
  | number + 2 => line (text.dropWhile (· ≠ '\n')).tail (number + 1)
  | _ =>
    let content := text.takeWhile (· ≠ '\n')
    if text.contains '\n' then withoutReturn content else content

end VectorQuery.Text
