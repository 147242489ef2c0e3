import FormulaGrid.CommandLine.Options
import FormulaGrid.Document.Edit
import FormulaGrid.Settings.Load

/-!
# Runs of the program

A run loads the settings and the sheet, and then does the first of these that was asked for: it
prints the value of a formula, prints the value of a cell, exports the sheet, or prints the sheet. A
formula with a failure for its value makes the run fail too.
-/

set_option autoImplicit false

namespace FormulaGrid.CommandLine

structure Report where
  code : Nat
  output : String
  errors : List String
deriving DecidableEq, Repr

inductive RunError where
  | load (path : String) (e : DocumentError)
  | cell (e : DocumentError)
  | export (path : String) (e : DocumentError)
deriving DecidableEq, Repr

def RunError.message : RunError → String
  | .load path e => "Failed to load " ++ path ++ ": " ++ e.chainMessage
  | .cell e => e.chainMessage
  | .export path e => "Failed to export to " ++ path ++ ": " ++ e.chainMessage

def versionText : String := "cellwise 0.1.0\n"

def helpLines : List String :=
  ["Evaluate spreadsheet formulas (cell references, arithmetic, SUM ranges) over CSV sheets.",
    "",
    "Usage: cellwise [OPTIONS] [FILE]",
    "",
    "Arguments:",
    "  [FILE]  Sheet to open (CSV of raw cell text, formulas start with `=`)",
    "",
    "Options:",
    "  -c, --command <FORMULA>  Evaluate a formula against the sheet and print the result",
    "      --cell <LABEL>       Print the displayed value of a single cell (e.g. B3)",
    "  -o, --output <FILE>      Export evaluated values (.csv for CSV, otherwise markdown)",
    "      --config <PATH>      Config file to use instead of the user config dir",
    "      --no-config          Ignore any config file",
    "  -v, --verbose            Enable debug logging",
    "  -h, --help               Print help",
    "  -V, --version            Print version"]

def helpText : String := String.join (helpLines.map (· ++ "\n"))

def misuseText : String := "error: invalid arguments; for more information, try '--help'."

variable {m : Type → Type} [Monad m]

def openDocument (files : FileSystem m) (settings : Settings) :
    Option String → m (Except RunError Document)
  | some path => return (← Document.load files path).mapError (.load path)
  | none => return .ok (.new settings.rows settings.cols)

def perform (files : FileSystem m) (settings : Settings) (options : Options) (doc : Document) :
    m (Except RunError (Nat × String)) := do
  match options.command, options.cell, options.output with
  | some formula, _, _ =>
    let value := doc.evaluateFormula formula
    return .ok (if value.isFault then 1 else 0, value.display ++ "\n")
  | none, some label, _ =>
    match Document.cellNamed label with
    | .ok cell => return .ok (0, doc.display cell ++ "\n")
    | .error e => return .error (.cell e)
  | none, none, some path =>
    match ← doc.exportTo files (settings.format.forPath path) path with
    | .ok () => return .ok (0, "Exported to " ++ path ++ "\n")
    | .error e => return .error (.export path e)
  | none, none, none => return .ok (0, doc.render settings.format)

def loadSettings (files : FileSystem m) (env : Environment) (options : Options) :
    m (Settings × List SettingsWarning) :=
  if options.noConfig then return (.standard, []) else Settings.load files env options.config

def runOptions (files : FileSystem m) (env : Environment) (options : Options) : m Report := do
  let (settings, warnings) ← loadSettings files env options
  let warned := warnings.map ("Warning: " ++ ·.message)
  let failed (e : RunError) : Report := ⟨1, "", warned ++ ["Error: " ++ e.message]⟩
  match ← openDocument files settings options.file with
  | .error e => return failed e
  | .ok doc =>
    match ← perform files settings options doc with
    | .error e => return failed e
    | .ok (code, output) => return ⟨code, output, warned⟩

def run (files : FileSystem m) (env : Environment) (arguments : List String) : m Report :=
  match Options.ofArguments arguments with
  | .ok options => runOptions files env options
  | .error .help => return ⟨0, helpText, []⟩
  | .error .version => return ⟨0, versionText, []⟩
  | .error .misuse => return ⟨2, "", [misuseText]⟩

end FormulaGrid.CommandLine
