import FormulaGrid.Document.Files
import FormulaGrid.Files.Path
import FormulaGrid.Toml.Reader

/-!
# Settings

The settings are the size of a blank sheet and the format of exports to files whose names do not
decide it. A settings file has the tables `sheet` and `export` with keys for them; what it leaves
out has a default, and what it adds is an error. A table may also be written as an array of its
values, and the name of a format as a table with this name as its only key and nothing in it.
-/

set_option autoImplicit false

namespace FormulaGrid

def ExportFormat.ofName? : String → Option ExportFormat
  | "csv" => some .csv
  | "markdown" => some .markdown
  | _ => none

/-- The format that the extension of a path asks for, or the given one. -/
def ExportFormat.forPath (fallback : ExportFormat) (path : String) : ExportFormat :=
  match (Path.extension? path.toList).map fun name => String.ofList (name.map Char.toLower) with
  | some "csv" => .csv
  | some "md" => .markdown
  | some "markdown" => .markdown
  | _ => fallback

structure Settings where
  rows : Nat
  cols : Nat
  format : ExportFormat
deriving DecidableEq, Repr

namespace Settings

def standard : Settings := ⟨Document.standardRows, Document.standardCols, .markdown⟩

def fields? (names : List String) : Toml.Value → Option (List (Option Toml.Value))
  | .table _ entries =>
    if entries.all fun entry => names.contains entry.1 then some (names.map (entries.lookup ·))
    else none
  | .array items => some ((List.range names.length).map (items[·]?))
  | .tables items =>
    some ((List.range names.length).map fun i => (items[i]?).map (.table .header ·))
  | _ => none

def orDefault {α : Type} (fallback : α) (decode : Toml.Value → Option α) :
    Option Toml.Value → Option α
  | none => some fallback
  | some value => decode value

def count? : Toml.Value → Option Nat
  | .integer n => if 0 ≤ n then some n.toNat else none
  | _ => none

def isEmpty : Toml.Value → Bool
  | .array items => items.isEmpty
  | .table _ entries => entries.isEmpty
  | _ => false

def format? : Toml.Value → Option ExportFormat
  | .string name => ExportFormat.ofName? name
  | .table _ [(name, value)] => if isEmpty value then ExportFormat.ofName? name else none
  | _ => none

def sheet? (value : Toml.Value) : Option (Nat × Nat) := do
  match ← fields? ["rows", "cols"] value with
  | [rows, cols] =>
    return (← orDefault standard.rows count? rows, ← orDefault standard.cols count? cols)
  | _ => none

def export? (value : Toml.Value) : Option ExportFormat := do
  match ← fields? ["format"] value with
  | [format] => orDefault standard.format format? format
  | _ => none

def ofText? (text : String) : Option Settings := do
  match ← fields? ["sheet", "export"] (.table .header (← Toml.read? text)) with
  | [sheet, exports] =>
    let (rows, cols) ← orDefault (standard.rows, standard.cols) sheet? sheet
    return ⟨rows, cols, ← orDefault standard.format export? exports⟩
  | _ => none

end Settings
end FormulaGrid
