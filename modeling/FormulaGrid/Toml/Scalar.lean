import FormulaGrid.Number.Literal
import FormulaGrid.Toml.Quoted
import FormulaGrid.Toml.Value

/-!
# TOML numbers, truth values and moments

Each of these is one word. Underscores may stand between two digits, whole numbers have no leading
zeros and fit in sixty-four bits, and moments exist in the calendar.
-/

set_option autoImplicit false

namespace FormulaGrid.Toml

/-- The digits of a text in which single underscores may stand between digits. -/
def ungroup? (isDigit : Char → Bool) : List Char → Option (List Char)
  | [] => none
  | [c] => if isDigit c then some [c] else none
  | c :: '_' :: rest => if isDigit c then (ungroup? isDigit rest).map (c :: ·) else none
  | c :: rest => if isDigit c then (ungroup? isDigit rest).map (c :: ·) else none

def wholeDigits? (text : List Char) : Option (List Char) :=
  match ungroup? Char.isDigit text with
  | some ('0' :: _ :: _) => none
  | digits => digits

def fitting? (n : Int) : Option Int :=
  if -0x8000000000000000 ≤ n ∧ n < 0x8000000000000000 then some n else none

def radixInteger? (radix : Nat) (text : List Char) : Option Int := do
  let isDigit := fun c => (hexValue? c).any (· < radix)
  let digits ← (← ungroup? isDigit text).mapM hexValue?
  fitting? (digits.foldl (fun n digit => radix * n + digit) 0 : Nat)

def integer? : List Char → Option Int
  | '0' :: 'x' :: digits => radixInteger? 16 digits
  | '0' :: 'o' :: digits => radixInteger? 8 digits
  | '0' :: 'b' :: digits => radixInteger? 2 digits
  | text => do
    let (negative, digits) := Number.splitSign text
    fitting? (Number.signed negative (Number.ofDigits (← wholeDigits? digits)))

def exponentText? (text : List Char) : Option (List Char) :=
  match text with
  | '-' :: digits => (ungroup? Char.isDigit digits).map ('-' :: ·)
  | '+' :: digits => ungroup? Char.isDigit digits
  | digits => ungroup? Char.isDigit digits

def floatText? (unsigned : List Char) : Option (List Char) := do
  let inMantissa := fun c => c ≠ 'e' ∧ c ≠ 'E'
  let mantissa := unsigned.takeWhile inMantissa
  let whole ← wholeDigits? (mantissa.takeWhile (· ≠ '.'))
  let fraction ← match mantissa.dropWhile (· ≠ '.') with
    | [] => some []
    | _ :: digits => (ungroup? Char.isDigit digits).map ('.' :: ·)
  let exponent ← match unsigned.dropWhile inMantissa with
    | [] => some []
    | _ :: digits => (exponentText? digits).map ('e' :: ·)
  if fraction = [] ∧ exponent = [] then none else some (whole ++ fraction ++ exponent)

/-- The float that a word spells. A positive one must not exceed all finite floats. -/
def float? (text : List Char) : Option Float := do
  let (negative, unsigned) := Number.splitSign text
  if unsigned = ['i', 'n', 'f'] then return if negative then -1.0 / 0.0 else 1.0 / 0.0
  if unsigned = ['n', 'a', 'n'] then return 0.0 / 0.0
  let magnitude := (← Number.Literal.ofText? (← floatText? unsigned)).toFloat
  if negative then return -magnitude
  if magnitude.isFinite then return magnitude else none

def field? (width low high : Nat) (text : List Char) : Option Nat :=
  let n := Number.ofDigits text
  if text.length = width ∧ text.all Char.isDigit ∧ low ≤ n ∧ n ≤ high then some n else none

def daysInMonth (year month : Nat) : Nat :=
  if month = 2 then
    if year % 4 = 0 ∧ (year % 100 ≠ 0 ∨ year % 400 = 0) then 29 else 28
  else if month = 4 ∨ month = 6 ∨ month = 9 ∨ month = 11 then 30
  else 31

def isDate (text : List Char) : Bool :=
  match field? 4 0 9999 (text.take 4), field? 2 1 12 ((text.drop 5).take 2) with
  | some year, some month =>
    text.length = 10 && text[4]? = some '-' && text[7]? = some '-' &&
      (field? 2 1 (daysInMonth year month) (text.drop 8)).isSome
  | _, _ => false

def isClock (text : List Char) : Bool :=
  text.length = 5 && text[2]? = some ':' && (field? 2 0 23 (text.take 2)).isSome &&
    (field? 2 0 59 (text.drop 3)).isSome

def isTime (text : List Char) : Bool :=
  isClock (text.take 5) && text[5]? = some ':' && (field? 2 0 60 ((text.drop 6).take 2)).isSome &&
    match text.drop 8 with
    | [] => true
    | '.' :: digits => digits ≠ [] && digits.all Char.isDigit
    | _ => false

def isOffset : List Char → Bool
  | [] => true
  | ['Z'] => true
  | ['z'] => true
  | '+' :: clock => isClock clock
  | '-' :: clock => isClock clock
  | _ => false

def inTime (c : Char) : Bool := c.isDigit || c = ':' || c = '.'

/-- A date, a time, or both with a letter or a blank between and an offset at the end. -/
def isMoment (text : List Char) : Bool :=
  isDate text || isTime text ||
    (isDate (text.take 10) && (text[10]?).any (fun c => c = 'T' || c = 't' || c = ' ') &&
      isTime ((text.drop 11).takeWhile inTime) && isOffset ((text.drop 11).dropWhile inTime))

def scalar? (word : List Char) : Option Value :=
  if word = "true".toList then some (.boolean true)
  else if word = "false".toList then some (.boolean false)
  else if isMoment word then some (.moment (String.ofList word))
  else
    match integer? word with
    | some n => some (.integer n)
    | none => (float? word).map .float

end FormulaGrid.Toml
