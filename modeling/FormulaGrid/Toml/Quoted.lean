/-!
# Quoted TOML text

Strings in double quotes have escapes, strings in single quotes have none, and three quotes open a
string that may run over lines. Each reader starts after the opening quotes and gives the text and
what follows the closing ones.
-/

set_option autoImplicit false

namespace FormulaGrid.Toml

def isPlain (c : Char) : Bool := c = '\t' || (0x20 ≤ c.toNat && c.toNat ≠ 0x7f)

def hexValue? (c : Char) : Option Nat :=
  if c.isDigit then some (c.toNat - '0'.toNat)
  else if 'a' ≤ c ∧ c ≤ 'f' then some (c.toNat - 'a'.toNat + 10)
  else if 'A' ≤ c ∧ c ≤ 'F' then some (c.toNat - 'A'.toNat + 10)
  else none

/-- The character with a code of exactly `width` hexadecimal digits. -/
def charOfHex? (width : Nat) (text : List Char) : Option Char := do
  let digits ← (text.take width).mapM hexValue?
  let code := digits.foldl (fun n digit => 16 * n + digit) 0
  if digits.length = width ∧ code.isValidChar then some (Char.ofNat code) else none

/-- The character for an escape, and how many characters after its letter belong to it. -/
def escape? (letter : Char) (rest : List Char) : Option (Char × Nat) :=
  match letter with
  | 'b' => some ('\x08', 0)
  | 't' => some ('\t', 0)
  | 'n' => some ('\n', 0)
  | 'f' => some ('\x0c', 0)
  | 'r' => some ('\r', 0)
  | '"' => some ('"', 0)
  | '\\' => some ('\\', 0)
  | 'u' => (charOfHex? 4 rest).map (·, 4)
  | 'U' => (charOfHex? 8 rest).map (·, 8)
  | _ => none

def readBasic (text : List Char) : Option (List Char × List Char) :=
  match text with
  | [] => none
  | '"' :: rest => some ([], rest)
  | '\\' :: letter :: rest => do
    let (c, used) ← escape? letter rest
    let (content, rest) ← readBasic (rest.drop used)
    return (c :: content, rest)
  | c :: rest => do
    if c = '\\' ∨ !isPlain c then none
    let (content, rest) ← readBasic rest
    return (c :: content, rest)
termination_by text.length
decreasing_by all_goals simp only [List.length_cons, List.length_drop]; omega

def readLiteral : List Char → Option (List Char × List Char)
  | [] => none
  | '\'' :: rest => some ([], rest)
  | c :: rest => do
    if !isPlain c then none
    let (content, rest) ← readLiteral rest
    return (c :: content, rest)

def dropBreak : List Char → List Char
  | '\n' :: rest => rest
  | '\r' :: '\n' :: rest => rest
  | rest => rest

def dropBlankLines : List Char → List Char
  | ' ' :: rest => dropBlankLines rest
  | '\t' :: rest => dropBlankLines rest
  | '\n' :: rest => dropBlankLines rest
  | '\r' :: '\n' :: rest => dropBlankLines rest
  | rest => rest

theorem length_dropBlankLines_le (text : List Char) :
    (dropBlankLines text).length ≤ text.length := by
  fun_induction dropBlankLines text <;> simp <;> omega

/-- Up to two quotes may stand before the three that close a string over lines; the text begins
after the first three of them. -/
def readClosing (quote : Char) (text : List Char) : List Char × List Char :=
  let extra := (text.takeWhile (· = quote)).take 2
  (extra, text.drop extra.length)

def joinsLines (text : List Char) : Bool :=
  match text.dropWhile fun c => c = ' ' ∨ c = '\t' with
  | '\n' :: _ => true
  | '\r' :: '\n' :: _ => true
  | _ => false

def readBasicLines (text : List Char) : Option (List Char × List Char) :=
  match text with
  | [] => none
  | '"' :: '"' :: '"' :: rest => some (readClosing '"' rest)
  | '\r' :: '\n' :: rest => do
    let (content, rest) ← readBasicLines rest
    return ('\n' :: content, rest)
  | '\\' :: rest => do
    if joinsLines rest then readBasicLines (dropBlankLines rest)
    else
      match rest with
      | [] => none
      | letter :: rest => do
        let (c, used) ← escape? letter rest
        let (content, rest) ← readBasicLines (rest.drop used)
        return (c :: content, rest)
  | c :: rest => do
    if c ≠ '\n' ∧ !isPlain c then none
    let (content, rest) ← readBasicLines rest
    return (c :: content, rest)
termination_by text.length
decreasing_by
  · simp only [List.length_cons]; omega
  · have := length_dropBlankLines_le rest; simp only [List.length_cons]; omega
  · simp only [List.length_cons, List.length_drop]; omega
  · simp only [List.length_cons]; omega

def readLiteralLines : List Char → Option (List Char × List Char)
  | [] => none
  | '\'' :: '\'' :: '\'' :: rest => some (readClosing '\'' rest)
  | '\r' :: '\n' :: rest => do
    let (content, rest) ← readLiteralLines rest
    return ('\n' :: content, rest)
  | c :: rest => do
    if c ≠ '\n' ∧ !isPlain c then none
    let (content, rest) ← readLiteralLines rest
    return (c :: content, rest)

def readString? : List Char → Option (List Char × List Char)
  | '"' :: '"' :: '"' :: rest => readBasicLines (dropBreak rest)
  | '\'' :: '\'' :: '\'' :: rest => readLiteralLines (dropBreak rest)
  | '"' :: rest => readBasic rest
  | '\'' :: rest => readLiteral rest
  | _ => none

end FormulaGrid.Toml
