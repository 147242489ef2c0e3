import FormulaGrid.CommandLine.Run

/-!
# The program

The outer layer: the file system and the environment of the process, and the report on its streams.
-/

set_option autoImplicit false

namespace FormulaGrid

/-- The number of a failure, which the system reports with either sign. -/
def failureNumber (code : UInt32) : Nat :=
  if code.toNat < 0x80000000 then code.toNat else 0x100000000 - code.toNat

def fileErrorOf (e : IO.Error) : FileError :=
  match e with
  | .noFileOrDirectory .. => .notFound
  | .permissionDenied .. => .denied
  | .inappropriateType _ code _ =>
    match failureNumber code with
    | 20 => .notDirectory
    | 21 => .isDirectory
    | _ => .other (toString e)
  | _ => .other (toString e)

def readBytes (path : String) : IO (Except FileError ByteArray) := do
  try return .ok (← IO.FS.readBinFile path)
  catch e => return .error (fileErrorOf e)

def writeBytes (path : String) (content : ByteArray) : IO (Except FileError Unit) := do
  try return .ok (← IO.FS.writeBinFile path content)
  catch e => return .error (fileErrorOf e)

/-- A path leads somewhere unless reading fails for want of a file. -/
def isPresent (path : String) : IO Bool := do
  match ← readBytes path with
  | .error .notFound => return false
  | .error .notDirectory => return false
  | _ => return true

def machineFiles : FileSystem IO := ⟨isPresent, readBytes, writeBytes⟩

end FormulaGrid

def main (arguments : List String) : IO UInt32 := do
  let env : FormulaGrid.Environment :=
    ⟨(← IO.getEnv "HOME").filter (!·.isEmpty), ← IO.getEnv "XDG_CONFIG_HOME"⟩
  let report ← FormulaGrid.CommandLine.run FormulaGrid.machineFiles env arguments
  report.errors.forM fun line => IO.eprintln line
  IO.print report.output
  return report.code.toUInt32
