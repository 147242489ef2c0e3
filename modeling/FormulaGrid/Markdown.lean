import FormulaGrid.Document.Display

/-!
# Markdown tables

The displayed values of a document as a table with the letters of the columns above and the numbers
of the rows at the left. No text of a cell can end its cell or its line.
-/

set_option autoImplicit false

namespace FormulaGrid.Markdown

def escapeChar : Char → List Char
  | '|' => ['\\', '|']
  | '\n' => [' ']
  | '\r' => []
  | c => [c]

def escape (text : String) : String :=
  String.ofList (text.toList.flatMap escapeChar)

def line (head : String) (cells : List String) : String :=
  "| " ++ head ++ " |" ++ String.join (cells.map fun cell => " " ++ cell ++ " |") ++ "\n"

def title : String := "# Sheet\n\n"

def table (grid : List (List String)) : String :=
  let width := Sheet.width ⟨grid⟩
  let header := line " " ((List.range width).map Address.columnLabel)
  let rule := "|---|" ++ String.join (List.replicate width "---|") ++ "\n"
  let body := grid.mapIdx fun row cells =>
    line (toString (row + 1)) ((padRow width cells).map escape)
  header ++ rule ++ String.join body

def render (doc : Document) : String :=
  title ++ if doc.isEmpty then "*Empty spreadsheet*\n" else table doc.displayGrid

end FormulaGrid.Markdown
