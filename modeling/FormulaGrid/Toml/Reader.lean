import FormulaGrid.Toml.Scalar

/-!
# Reading TOML

A text is lines, each with a header, a pair of a key and a value, or nothing, and each may end in a
comment. Each reader gives what it read and what follows.
-/

set_option autoImplicit false

namespace FormulaGrid.Toml

/-- How deep values nest, and how many parts a key may have. -/
def nestingLimit : Nat := 79

def skipBlanks (text : List Char) : List Char :=
  text.dropWhile fun c => c = ' ' || c = '\t'

/-- Goes on after the end of a line, before which only blanks and a comment may stand. -/
def endLine? (text : List Char) : Option (List Char) :=
  let rest := match skipBlanks text with
    | '#' :: comment => comment.dropWhile isPlain
    | rest => rest
  match rest with
  | [] => some []
  | '\n' :: rest => some rest
  | '\r' :: '\n' :: rest => some rest
  | _ => none

def skipGaps (inComment : Bool) : List Char → List Char
  | [] => []
  | '\n' :: rest => skipGaps false rest
  | '\r' :: '\n' :: rest => skipGaps false rest
  | c :: rest =>
    if inComment then if isPlain c then skipGaps true rest else c :: rest
    else if c = '#' then skipGaps true rest
    else if c = ' ' ∨ c = '\t' then skipGaps false rest
    else c :: rest

def isBare (c : Char) : Bool := c.isAlphanum || c = '-' || c = '_'

def readKey? : List Char → Option (String × List Char)
  | '"' :: rest => (readBasic rest).map fun (key, rest) => (String.ofList key, rest)
  | '\'' :: rest => (readLiteral rest).map fun (key, rest) => (String.ofList key, rest)
  | text =>
    match text.takeWhile isBare with
    | [] => none
    | key => some (String.ofList key, text.dropWhile isBare)

def readKeys : Nat → List Char → Option (List String × List Char)
  | 0, _ => none
  | parts + 1, text => do
    let (key, rest) ← readKey? (skipBlanks text)
    match skipBlanks rest with
    | '.' :: rest =>
      let (keys, rest) ← readKeys parts rest
      return (key :: keys, rest)
    | rest => return ([key], rest)

section
variable (readValue : List Char → Option (Value × List Char))

def readPair (text : List Char) : Option ((List String × Value) × List Char) := do
  match ← readKeys nestingLimit text with
  | (keys, '=' :: rest) =>
    let (value, rest) ← readValue (skipBlanks rest)
    return ((keys, value), rest)
  | _ => none

def readItems : Nat → List Char → Option (List Value × List Char)
  | 0, _ => none
  | fuel + 1, text =>
    match skipGaps false text with
    | ']' :: rest => some ([], rest)
    | text => do
      let (item, rest) ← readValue text
      match skipGaps false rest with
      | ']' :: rest => return ([item], rest)
      | ',' :: rest =>
        let (items, rest) ← readItems fuel rest
        return (item :: items, rest)
      | _ => none

def readEntries : Nat → Table → List Char → Option (Table × List Char)
  | 0, _, _ => none
  | fuel + 1, table, text => do
    let ((keys, value), rest) ← readPair readValue text
    let table ← table.assign value keys
    match skipBlanks rest with
    | '}' :: rest => return (table, rest)
    | ',' :: rest => readEntries fuel table rest
    | _ => none

end

def inWord (c : Char) : Bool :=
  c.isAlphanum || c = '+' || c = '-' || c = '_' || c = '.' || c = ':'

/-- Reads a word and its value. The time after a date may follow a blank. -/
def readScalar (text : List Char) : Option (Value × List Char) :=
  let word := text.takeWhile inWord
  let rest := text.dropWhile inWord
  let longer := word ++ ' ' :: (rest.drop 1).takeWhile inWord
  if rest.head? = some ' ' ∧ isMoment longer then
    (scalar? longer).map (·, (rest.drop 1).dropWhile inWord)
  else (scalar? word).map (·, rest)

def readValue : Nat → List Char → Option (Value × List Char)
  | levels + 1, '[' :: rest => do
    let (items, rest) ← readItems (readValue levels) (rest.length + 1) rest
    return (.array items, rest)
  | levels + 1, '{' :: rest => do
    match skipBlanks rest with
    | '}' :: rest => return (.table .inline [], rest)
    | rest =>
      let (entries, rest) ← readEntries (readValue levels) (rest.length + 1) [] rest
      return (.table .inline entries, rest)
  | _, text =>
    if text.head? = some '"' ∨ text.head? = some '\'' then
      (readString? text).map fun (content, rest) => (.string (String.ofList content), rest)
    else readScalar text

def readLines : Nat → List String → Table → List Char → Option Table
  | 0, _, _, _ => none
  | fuel + 1, path, root, text =>
    match skipBlanks text with
    | [] => some root
    | '[' :: '[' :: rest => do
      match ← readKeys nestingLimit rest with
      | (path, ']' :: ']' :: rest) => readLines fuel path (← root.openItem path) (← endLine? rest)
      | _ => none
    | '[' :: rest => do
      match ← readKeys nestingLimit rest with
      | (path, ']' :: rest) => readLines fuel path (← root.openTable path) (← endLine? rest)
      | _ => none
    | c :: rest =>
      if c = '#' ∨ c = '\n' ∨ c = '\r' then do readLines fuel path root (← endLine? (c :: rest))
      else do
        let ((keys, value), rest) ← readPair (readValue nestingLimit) (c :: rest)
        readLines fuel path (← root.modifyAt (Table.assign value keys) path) (← endLine? rest)

def read? (text : String) : Option Table :=
  let chars := match text.toList with
    | '\ufeff' :: rest => rest
    | chars => chars
  readLines (chars.length + 1) [] [] chars

end FormulaGrid.Toml
