import FormulaGrid.Document.Error
import FormulaGrid.Text.Blank
import FormulaGrid.Text.Lines

/-!
# Reading rows of fields

Each line is a row, and commas part its fields. A double quote opens and closes a quoted stretch
anywhere in a field; inside, a comma is text and two quotes are one. A field with a quoted stretch
is taken as it is, any other loses the blanks at its ends. A stretch may not go past its line.
-/

set_option autoImplicit false

namespace FormulaGrid.Csv

/-- A field under way: its characters in reverse, and whether a quote was met. -/
structure Field where
  text : List Char
  quoted : Bool

namespace Field

def start : Field := ⟨[], false⟩

def push (field : Field) (c : Char) : Field := { field with text := c :: field.text }

def finish (field : Field) : String :=
  String.ofList (if field.quoted then field.text.reverse else Text.trim field.text.reverse)

end Field

def fieldsAfter (field : Field) : Bool → List Char → Option (List String)
  | true, [] => none
  | true, '"' :: '"' :: rest => fieldsAfter (field.push '"') true rest
  | true, '"' :: rest => fieldsAfter field false rest
  | true, c :: rest => fieldsAfter (field.push c) true rest
  | false, [] => some [field.finish]
  | false, '"' :: rest => fieldsAfter { field with quoted := true } true rest
  | false, ',' :: rest => (fieldsAfter .start false rest).map (field.finish :: ·)
  | false, c :: rest => fieldsAfter (field.push c) false rest

def fields? (line : List Char) : Option (List String) :=
  fieldsAfter .start false line

def rowsFrom (number : Nat) : List (List Char) → Except DocumentError (List (List String))
  | [] => .ok []
  | line :: rest =>
    match fields? line with
    | some fields => return fields :: (← rowsFrom (number + 1) rest)
    | none => .error (.unclosedQuote number)

def rows (text : String) : Except DocumentError (List (List String)) :=
  rowsFrom 1 (Text.lines text.toList)

end FormulaGrid.Csv
