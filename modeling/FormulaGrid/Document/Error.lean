import FormulaGrid.Address.Label
import FormulaGrid.Files.System

/-!
# Failures of documents

What can go wrong when a document is loaded, edited or exported. Formulas that fail are no failures
here: they have values of their own.
-/

set_option autoImplicit false

namespace FormulaGrid

inductive DocumentError where
  | file (e : FileError)
  /-- A quoted field is not closed on its line, counted from one. -/
  | unclosedQuote (line : Nat)
  | invalidCell (label : String)
  | invalidRange (text : String)
  | emptyBlock
  | blockTooLarge (base : Address)
  | emptyFile
deriving DecidableEq, Repr

namespace DocumentError

def message : DocumentError → String
  | file e => "IO error: " ++ e.message
  | unclosedQuote line => "Parse error at line " ++ toString line ++ ": unterminated quoted field"
  | invalidCell label => "Invalid cell reference: " ++ label
  | invalidRange text => "Invalid range: " ++ text
  | emptyBlock => "Invalid range: empty paste block"
  | blockTooLarge base => "Invalid range: paste at " ++ base.label ++ " does not fit in the grid"
  | emptyFile => "CSV file is empty"

def chainMessage : DocumentError → String
  | file e => message (file e) ++ ": " ++ e.message
  | e => e.message

end DocumentError
end FormulaGrid
