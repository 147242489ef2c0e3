import FormulaGrid.Document.Display

/-!
# Writing rows of fields

A field that another program could take for a formula gets an apostrophe in front. A field with a
comma, a quote or a line break is put in quotes, with its own quotes doubled.
-/

set_option autoImplicit false

namespace FormulaGrid.Csv

/-- The first character after spaces and tabs starts a formula in some program. -/
def isRisky (field : List Char) : Bool :=
  match field.dropWhile fun c => c == ' ' || c == '\t' with
  | c :: _ => c == '=' || c == '+' || c == '@'
  | [] => false

def guarded (field : List Char) : List Char :=
  if isRisky field then '\'' :: field else field

def needsQuotes (field : List Char) : Bool :=
  field.any fun c => c == ',' || c == '"' || c == '\n' || c == '\r'

def doubleQuotes (field : List Char) : List Char :=
  field.flatMap fun c => if c = '"' then ['"', '"'] else [c]

def writeField (field : List Char) : List Char :=
  let text := guarded field
  if needsQuotes text then '"' :: doubleQuotes text ++ ['"'] else text

def writeRow (row : List String) : List Char :=
  List.intercalate [','] (row.map fun field => writeField field.toList) ++ ['\n']

def render (doc : Document) : String :=
  String.ofList (doc.displayGrid.flatMap writeRow)

end FormulaGrid.Csv
