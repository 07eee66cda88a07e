import BucketQuery.Double.Reading
import BucketQuery.Json.Document
import BucketQuery.Text.Digit

/-!
The scalars of TOML that are not strings: switches, whole numbers in four bases, decimal numbers, dates
and times. Underscores may stand between digits, and a number does not start with zeros. Dates and
times are only recognized, since nothing here takes one. -/
namespace BucketQuery.Toml

/-- Digits with single underscores between them. -/
def separated (isDigit : Char → Bool) : List Char → Bool
  | [] => false
  | [c] => isDigit c
  | c :: '_' :: rest => isDigit c && separated isDigit rest
  | c :: rest => isDigit c && separated isDigit rest

def isWhole (cs : List Char) : Bool :=
  separated Char.isDigit cs && (cs.length == 1 || cs.head? != some '0')

/-- The number that separated digits write. -/
def inBase? (base : Nat) (cs : List Char) : Option Nat :=
  if separated (fun c => (Text.digit? base c).isSome) cs then Text.number? base (cs.filter (· != '_'))
  else none

/-- Whole numbers have 64 bits, one of them for the sign. -/
def fits? (n : Int) : Option Document :=
  if -0x8000000000000000 ≤ n ∧ n < 0x8000000000000000 then some (.number (.int n)) else none

def integer? (cs : List Char) : Option Document :=
  match cs with
  | '0' :: 'x' :: ds => (inBase? 16 ds).bind fun n => fits? n
  | '0' :: 'o' :: ds => (inBase? 8 ds).bind fun n => fits? n
  | '0' :: 'b' :: ds => (inBase? 2 ds).bind fun n => fits? n
  | cs =>
    if isWhole (Text.unsign cs) then
      (inBase? 10 (Text.unsign cs)).bind fun n => fits? (if cs.head? = some '-' then -n else n)
    else none

def isExponent (cs : List Char) : Bool := separated Char.isDigit (Text.unsign cs)

/-- A part after the point, an exponent, or both. -/
def isFloatTail : List Char → Bool
  | '.' :: cs =>
    let (part, rest) := cs.span fun c => c.isDigit || c == '_'
    separated Char.isDigit part && match rest with
      | [] => true
      | c :: rest => (c == 'e' || c == 'E') && isExponent rest
  | c :: cs => (c == 'e' || c == 'E') && isExponent cs
  | [] => false

/-- A decimal number. One too large to be held is none. -/
def float? (cs : List Char) : Option Document :=
  let (whole, tail) := (Text.unsign cs).span fun c => c.isDigit || c == '_'
  let named := Text.unsign cs == ['i', 'n', 'f'] || Text.unsign cs == ['n', 'a', 'n']
  if named || (isWhole whole && isFloatTail tail) then
    match Double.ofText? Double.binary64 (String.ofList (cs.filter (· != '_'))) with
    | some x => if x == .infinite false && !named then none else some (.number (.float x))
    | none => none
  else none

/-! ### Dates and times -/

/-- The number that `width` digits write, and what follows. -/
def figure? (width : Nat) (cs : List Char) : Option (Nat × List Char) :=
  let ds := cs.take width
  if ds.length = width then (Text.number? 10 ds).map (·, cs.drop width) else none

def mark? (c : Char) : List Char → Option (List Char)
  | d :: rest => if c = d then some rest else none
  | [] => none

def daysInMonth (year month : Nat) : Nat :=
  if month = 2 then if year % 4 = 0 ∧ (year % 100 ≠ 0 ∨ year % 400 = 0) then 29 else 28
  else if month = 4 ∨ month = 6 ∨ month = 9 ∨ month = 11 then 30
  else 31

/-- What follows a date. -/
def date? (cs : List Char) : Option (List Char) := do
  let (year, cs) ← figure? 4 cs
  let cs ← mark? '-' cs
  let (month, cs) ← figure? 2 cs
  let cs ← mark? '-' cs
  let (day, cs) ← figure? 2 cs
  if 1 ≤ month ∧ month ≤ 12 ∧ 1 ≤ day ∧ day ≤ daysInMonth year month then some cs else none

/-- What follows a time of day. -/
def time? (cs : List Char) : Option (List Char) := do
  let (hour, cs) ← figure? 2 cs
  let cs ← mark? ':' cs
  let (minute, cs) ← figure? 2 cs
  let cs ← mark? ':' cs
  let (second, cs) ← figure? 2 cs
  if hour ≤ 23 ∧ minute ≤ 59 ∧ second ≤ 60 then
    match cs with
    | '.' :: cs =>
      match cs.span Char.isDigit with
      | ([], _) => none
      | (_, cs) => some cs
    | cs => some cs
  else none

def isOffset (cs : List Char) : Bool :=
  match cs with
  | [] => true
  | ['Z'] => true
  | ['z'] => true
  | c :: cs => (c == '+' || c == '-') && (do
      let (hour, cs) ← figure? 2 cs
      let cs ← mark? ':' cs
      let (minute, cs) ← figure? 2 cs
      if hour ≤ 23 ∧ minute ≤ 59 ∧ cs.isEmpty then some () else none).isSome

def isDateTime (cs : List Char) : Bool :=
  match date? cs with
  | some [] => true
  | some (c :: cs) => (c == 'T' || c == 't' || c == ' ') && (time? cs).any isOffset
  | none => time? cs == some []

/-- A date or time as a document: a mapping with one field, which no record has. -/
def dateTime (cs : List Char) : Document :=
  .mapping [("$datetime", .string (String.ofList cs))] none

/-! ### Words -/

def isWordChar (c : Char) : Bool :=
  c.isAlphanum || c == '+' || c == '-' || c == '.' || c == '_' || c == ':'

def word? (cs : List Char) : Option Document :=
  if cs == ['t', 'r', 'u', 'e'] then some (.bool true)
  else if cs == ['f', 'a', 'l', 's', 'e'] then some (.bool false)
  else if isDateTime cs then some (dateTime cs)
  else (integer? cs).or (float? cs)

/-- A scalar, which ends where no further character could belong to it. A date may be followed by a
time after one blank. -/
def scalar? (cs : List Char) : Option (Document × List Char) :=
  let (word, rest) := cs.span isWordChar
  match rest with
  | ' ' :: c :: more =>
    if c.isDigit && date? word == some [] then
      let (time, rest) := (c :: more).span isWordChar
      (word? (word ++ ' ' :: time)).map (·, rest)
    else (word? word).map (·, rest)
  | rest => (word? word).map (·, rest)

end BucketQuery.Toml
