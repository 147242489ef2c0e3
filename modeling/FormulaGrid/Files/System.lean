/-!
# Files

The program reads and writes whole files. What it needs of a file system is a record of three
operations over any monad.
-/

set_option autoImplicit false

namespace FormulaGrid

inductive FileError where
  | notFound
  | isDirectory
  | notDirectory
  | denied
  | notText
  | other (text : String)
deriving DecidableEq, Repr

def FileError.message : FileError → String
  | .notFound => "No such file or directory (os error 2)"
  | .isDirectory => "Is a directory (os error 21)"
  | .notDirectory => "Not a directory (os error 20)"
  | .denied => "Permission denied (os error 13)"
  | .notText => "stream did not contain valid UTF-8"
  | .other text => text

structure FileSystem (m : Type → Type) where
  present : String → m Bool
  read : String → m (Except FileError ByteArray)
  write : String → ByteArray → m (Except FileError Unit)

namespace FileSystem

variable {m : Type → Type} [Monad m]

def readText (files : FileSystem m) (path : String) : m (Except FileError String) := do
  match ← files.read path with
  | .error e => return .error e
  | .ok bytes =>
    match String.fromUTF8? bytes with
    | some text => return .ok text
    | none => return .error .notText

def writeText (files : FileSystem m) (path text : String) : m (Except FileError Unit) :=
  files.write path text.toUTF8

end FileSystem
end FormulaGrid
