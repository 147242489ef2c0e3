/-!
# Paths

The parts of a path stand between slashes. Empty parts and single dots name nothing. A file name
has an extension when a dot stands in it after its first character; the extension follows the last
dot.
-/

set_option autoImplicit false

namespace FormulaGrid.Path

/-- The texts between the slashes of a path, empty ones included. -/
def parts : List Char → List (List Char)
  | [] => [[]]
  | c :: rest =>
    if c = '/' then [] :: parts rest
    else
      match parts rest with
      | part :: more => (c :: part) :: more
      | [] => [[c]]

/-- The last part that names something, unless it goes up. -/
def fileName? (path : List Char) : Option (List Char) :=
  ((parts path).filter fun part => part ≠ [] ∧ part ≠ ['.']).getLast?.filter (· ≠ ['.', '.'])

def extension? (path : List Char) : Option (List Char) := do
  let reversed := (← fileName? path).reverse
  match reversed.dropWhile (· ≠ '.') with
  | _ :: _ :: _ => return (reversed.takeWhile (· ≠ '.')).reverse
  | _ => none

def join (directory name : String) : String :=
  if directory.isEmpty ∨ directory.toList.getLast? = some '/' then directory ++ name
  else directory ++ "/" ++ name

def isAbsolute (path : String) : Bool := path.toList.head? = some '/'

end FormulaGrid.Path
