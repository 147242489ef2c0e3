import FormulaGrid.Csv.Reader
import FormulaGrid.Csv.Writer
import FormulaGrid.Markdown

/-!
# Documents and files

A document is loaded from a file of rows and exported in one of two formats.
-/

set_option autoImplicit false

namespace FormulaGrid

inductive ExportFormat where
  | markdown
  | csv
deriving DecidableEq, Repr

namespace Document

variable {m : Type → Type} [Monad m]

def readRows (files : FileSystem m) (path : String) :
    m (Except DocumentError (List (List String))) := do
  match ← files.readText path with
  | .ok text => return Csv.rows text
  | .error e => return .error (.file e)

def ofFileRows (path : String) (rows : List (List String)) : Except DocumentError Document :=
  if rows.isEmpty then .error .emptyFile else .ok { ofRows rows with file := some path }

def load (files : FileSystem m) (path : String) : m (Except DocumentError Document) := do
  return (← readRows files path) >>= ofFileRows path

def render (doc : Document) : ExportFormat → String
  | .csv => Csv.render doc
  | .markdown => Markdown.render doc

def exportTo (doc : Document) (files : FileSystem m) (format : ExportFormat) (path : String) :
    m (Except DocumentError Unit) := do
  return (← files.writeText path (doc.render format)).mapError .file

end Document
end FormulaGrid
