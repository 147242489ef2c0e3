/-!
# Lines of a text

A line ends at a line feed. A carriage return directly before that line feed belongs to the
terminator, one anywhere else belongs to the line. After a final terminator no line follows.
-/

set_option autoImplicit false

namespace FormulaGrid.Text

def dropReturn (line : List Char) : List Char :=
  if line.getLast? = some '\r' then line.dropLast else line

/-- Collects lines after the characters `line` (in reverse) of an unfinished one. -/
def linesAfter (line : List Char) : List Char → List (List Char)
  | [] => if line.isEmpty then [] else [line.reverse]
  | '\n' :: rest => dropReturn line.reverse :: linesAfter [] rest
  | c :: rest => linesAfter (c :: line) rest

def lines (text : List Char) : List (List Char) :=
  linesAfter [] text

end FormulaGrid.Text
