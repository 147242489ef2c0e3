/-!
# Command line options

A line of arguments names at most one file to open. Options have a long name and some a letter;
flags stand alone, other options take a value, either the next argument or what follows directly,
after an equals sign or, for a letter, without one. Letters can be run together, and after two
dashes all arguments are files. Each option may be given once.
-/

set_option autoImplicit false

namespace FormulaGrid.CommandLine

inductive Flag where
  | noConfig
  | verbose
  | help
  | version
deriving DecidableEq, Repr

inductive Setting where
  | command
  | cell
  | output
  | config
deriving DecidableEq, Repr

inductive Name where
  | flag (flag : Flag)
  | setting (setting : Setting)
deriving DecidableEq, Repr

def Name.ofLong? : String → Option Name
  | "command" => some (.setting .command)
  | "cell" => some (.setting .cell)
  | "output" => some (.setting .output)
  | "config" => some (.setting .config)
  | "no-config" => some (.flag .noConfig)
  | "verbose" => some (.flag .verbose)
  | "help" => some (.flag .help)
  | "version" => some (.flag .version)
  | _ => none

def Name.ofLetter? : Char → Option Name
  | 'c' => some (.setting .command)
  | 'o' => some (.setting .output)
  | 'v' => some (.flag .verbose)
  | 'h' => some (.flag .help)
  | 'V' => some (.flag .version)
  | _ => none

/-- The value may be any argument, even one that looks like an option. -/
def Setting.takesAny : Setting → Bool
  | .command => true
  | _ => false

def Setting.isPath : Setting → Bool
  | .output => true
  | .config => true
  | _ => false

structure Options where
  file : Option String
  command : Option String
  cell : Option String
  output : Option String
  config : Option String
  noConfig : Bool
  verbose : Bool
deriving DecidableEq, Repr

/-- Why the arguments are not worked on to their end. -/
inductive Stop where
  | help
  | version
  | misuse
deriving DecidableEq, Repr

namespace Options

def initial : Options := ⟨none, none, none, none, none, false, false⟩

def once (old : Option String) (value : String) : Except Stop (Option String) :=
  if old.isSome then .error .misuse else .ok (some value)

def openFile (options : Options) (path : String) : Except Stop Options := do
  if path.isEmpty then throw .misuse
  return { options with file := ← once options.file path }

def put (options : Options) (setting : Setting) (value : String) : Except Stop Options := do
  if setting.isPath ∧ value.isEmpty then throw .misuse
  match setting with
  | .command => return { options with command := ← once options.command value }
  | .cell => return { options with cell := ← once options.cell value }
  | .output => return { options with output := ← once options.output value }
  | .config => return { options with config := ← once options.config value }

def raise (options : Options) : Flag → Except Stop Options
  | .noConfig => do
    if options.noConfig then throw .misuse
    return { options with noConfig := true }
  | .verbose => do
    if options.verbose then throw .misuse
    return { options with verbose := true }
  | .help => throw .help
  | .version => throw .version

end Options

inductive Argument where
  | plain (text : String)
  | separator
  | long (name : String) (value : Option String)
  | letters (letters : List Char)
deriving DecidableEq, Repr

def Argument.ofText (text : String) : Argument :=
  match text.toList with
  | ['-', '-'] => separator
  | '-' :: '-' :: rest =>
    let value := match rest.dropWhile (· ≠ '=') with
      | _ :: value => some (String.ofList value)
      | [] => none
    long (String.ofList (rest.takeWhile (· ≠ '='))) value
  | '-' :: letter :: rest => letters (letter :: rest)
  | _ => plain text

/-- The options so far, and the one that waits for its value. -/
abbrev State := Options × Option Setting

def readLetters (options : Options) : List Char → Except Stop State
  | [] => return (options, none)
  | letter :: rest =>
    match Name.ofLetter? letter with
    | none => throw .misuse
    | some (.flag flag) => do readLetters (← options.raise flag) rest
    | some (.setting setting) =>
      match rest with
      | [] => return (options, some setting)
      | '=' :: value => return (← options.put setting (String.ofList value), none)
      | value => return (← options.put setting (String.ofList value), none)

def readArgument (options : Options) : Argument → Except Stop State
  | .plain path => return (← options.openFile path, none)
  | .separator => return (options, none)
  | .long name value =>
    match Name.ofLong? name, value with
    | some (.flag flag), none => return (← options.raise flag, none)
    | some (.setting setting), some value => return (← options.put setting value, none)
    | some (.setting setting), none => return (options, some setting)
    | _, _ => throw .misuse
  | .letters letters => readLetters options letters

def readFrom : State → List String → Except Stop Options
  | (options, none), [] => return options
  | (_, some _), [] => throw .misuse
  | (options, some setting), argument :: rest => do
    match Argument.ofText argument with
    | .plain value => readFrom (← options.put setting value, none) rest
    | _ =>
      if setting.takesAny then readFrom (← options.put setting argument, none) rest
      else throw .misuse
  | (options, none), argument :: rest => do
    match Argument.ofText argument with
    | .separator => rest.foldlM Options.openFile options
    | form => readFrom (← readArgument options form) rest

/-- The options that arguments spell. The user cannot both name a settings file and want none. -/
def Options.ofArguments (arguments : List String) : Except Stop Options := do
  let options ← readFrom (.initial, none) arguments
  if options.config.isSome ∧ options.noConfig then throw .misuse
  return options

end FormulaGrid.CommandLine
