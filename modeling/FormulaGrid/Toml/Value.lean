/-!
# TOML values

A table remembers how it came to be, since that decides whether later lines may add to it: a table
named by a header is complete with its own lines, one that lies on the way to a header may still get
a header, dotted keys extend only what dotted keys made, and an inline table is closed.
-/

set_option autoImplicit false

namespace FormulaGrid.Toml

inductive Origin where
  | header
  /-- On the way to a table with a header. -/
  | implied
  /-- On the way to a dotted key. -/
  | dotted
  | inline
deriving DecidableEq, Repr

inductive Value where
  | string (s : String)
  | integer (n : Int)
  | float (x : Float)
  | boolean (b : Bool)
  | moment (text : String)
  | array (items : List Value)
  | table (origin : Origin) (entries : List (String × Value))
  /-- The tables under headers in double brackets, in order. -/
  | tables (items : List (List (String × Value)))

abbrev Table := List (String × Value)

namespace Table

def put (key : String) (value : Value) : Table → Table
  | [] => [(key, value)]
  | (other, old) :: rest =>
    if other = key then (key, value) :: rest else (other, old) :: put key value rest

/-- Adds a value under a dotted key. Dotted keys must have made the table that gets the value. On
the way to it the key may also pass tables without a header of their own and, of tables under
headers in double brackets, the last. -/
def assign (value : Value) : List String → Table → Option Table
  | [], _ => none
  | [key], table => if (table.lookup key).isSome then none else some (table.put key value)
  | key :: rest, table =>
    match table.lookup key with
    | none => (assign value rest []).map fun child => table.put key (.table .dotted child)
    | some (.table origin child) =>
      if origin = .dotted ∨ (origin = .implied ∧ 1 < rest.length) then
        (assign value rest child).map fun child => table.put key (.table origin child)
      else none
    | some (.tables items) =>
      if 1 < rest.length then do
        let last ← assign value rest (← items.getLast?)
        return table.put key (.tables (items.dropLast ++ [last]))
      else none
    | some _ => none

/-- Changes the table at a path of headers; under double brackets that is the last one. -/
def modifyAt (change : Table → Option Table) : List String → Table → Option Table
  | [], table => change table
  | key :: rest, table =>
    match table.lookup key with
    | none => (modifyAt change rest []).map fun child => table.put key (.table .implied child)
    | some (.table origin child) =>
      if origin = .inline then none
      else (modifyAt change rest child).map fun child => table.put key (.table origin child)
    | some (.tables items) => do
      let last ← modifyAt change rest (← items.getLast?)
      return table.put key (.tables (items.dropLast ++ [last]))
    | some _ => none

def openTable (path : List String) (table : Table) : Option Table := do
  let key ← path.getLast?
  modifyAt (fun parent =>
    match parent.lookup key with
    | none => some (parent.put key (.table .header []))
    | some (.table .implied entries) => some (parent.put key (.table .header entries))
    | some _ => none) path.dropLast table

def openItem (path : List String) (table : Table) : Option Table := do
  let key ← path.getLast?
  modifyAt (fun parent =>
    match parent.lookup key with
    | none => some (parent.put key (.tables [[]]))
    | some (.tables items) => some (parent.put key (.tables (items ++ [[]])))
    | some _ => none) path.dropLast table

end Table
end FormulaGrid.Toml
