import FormulaGrid.Document.Basic
import FormulaGrid.Evaluation.Pass

/-!
# Displayed values of documents

Each question is answered by a fresh pass over the sheet, so answers follow the edits before them.
-/

set_option autoImplicit false

namespace FormulaGrid.Document

def display (doc : Document) (cell : Address) : String :=
  ((Pass.display cell).run (.start doc.sheet)).1

def displayGrid (doc : Document) : List (List String) :=
  (Pass.displayGrid.run (.start doc.sheet)).1

/-- The formula text that a user means; its sigil may be left out. -/
def formulaText (text : String) : String :=
  match Text.trim text.toList with
  | c :: rest => String.ofList (if c = Formula.sigil then c :: rest else Formula.sigil :: c :: rest)
  | [] => String.singleton Formula.sigil

/-- The value of a formula that stands in no cell. -/
def evaluateFormula (doc : Document) (text : String) : Value :=
  ((Pass.ask (.loose (formulaText text))).run (.start doc.sheet)).1

def addressBar (doc : Document) (cell : Address) : String :=
  cell.label ++ ": " ++ doc.get cell

end FormulaGrid.Document
