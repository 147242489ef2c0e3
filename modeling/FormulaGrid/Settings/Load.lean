import FormulaGrid.Settings.Basic

/-!
# Loading settings

Settings are read from a file that the user names, or else from one at a usual place. The latter
need not exist. Whatever is wrong with a file is a warning, and the default settings apply.
-/

set_option autoImplicit false

namespace FormulaGrid

structure Environment where
  home : Option String
  /-- Where the user keeps settings, if it is an absolute path. -/
  settingsHome : Option String
deriving DecidableEq, Repr

def Environment.settingsPath? (env : Environment) : Option String :=
  let usual := env.home.map fun home => Path.join home ".config"
  let root := (env.settingsHome.filter fun path => Path.isAbsolute path).or usual
  root.map fun root => Path.join (Path.join root "cellwise") "config.toml"

inductive SettingsWarning where
  | missing (path : String)
  | unreadable (path : String) (e : FileError)
  | malformed (path : String)
deriving DecidableEq, Repr

def SettingsWarning.message : SettingsWarning → String
  | .missing path => "Config file not found: " ++ path
  | .unreadable path e => "Failed to read " ++ path ++ ": " ++ e.message
  | .malformed path => "Failed to parse " ++ path

namespace Settings

variable {m : Type → Type} [Monad m]

def readFile (files : FileSystem m) (path : String) : m (Settings × List SettingsWarning) := do
  match ← files.readText path with
  | .error e => return (standard, [.unreadable path e])
  | .ok text =>
    match ofText? text with
    | some settings => return (settings, [])
    | none => return (standard, [.malformed path])

def load (files : FileSystem m) (env : Environment) (named : Option String) :
    m (Settings × List SettingsWarning) := do
  match named, env.settingsPath? with
  | some path, _ =>
    if ← files.present path then readFile files path else return (standard, [.missing path])
  | none, some path => if ← files.present path then readFile files path else return (standard, [])
  | none, none => return (standard, [])

end Settings
end FormulaGrid
