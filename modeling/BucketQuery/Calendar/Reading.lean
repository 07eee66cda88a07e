import BucketQuery.Calendar.Instant
import BucketQuery.Text.Blank

/-!
Reading instants. A text is tried as a timestamp with an offset, whose figures have fixed widths and
which is moved to UTC; then as one of five looser forms without an offset; then as a bare date,
which means its midnight. -/
namespace BucketQuery.Calendar

def takeDigits : Nat → List Char → List Char × List Char
  | limit + 1, c :: cs =>
    if c.isDigit then let (ds, rest) := takeDigits limit cs; (c :: ds, rest) else ([], c :: cs)
  | _, cs => ([], cs)

def digitsToNat (ds : List Char) : Nat := ds.foldl (fun n d => 10 * n + (d.toNat - 48)) 0

/-- From one to `limit` digits. -/
def upTo? (limit : Nat) (cs : List Char) : Option (Nat × List Char) :=
  match takeDigits limit cs with
  | ([], _) => none
  | (ds, rest) => some (digitsToNat ds, rest)

/-- `width` digits and no fewer. -/
def exactly? (width : Nat) (cs : List Char) : Option (Nat × List Char) :=
  let (ds, rest) := takeDigits width cs
  if ds.length = width then some (digitsToNat ds, rest) else none

def char? (c : Char) : List Char → Option (List Char)
  | d :: rest => if c = d then some rest else none
  | [] => none

/-- Digits after a decimal point, in billionths; those beyond the ninth do not count. -/
def fraction? (cs : List Char) : Option (Nat × List Char) :=
  let (ds, rest) := cs.span Char.isDigit
  if ds.isEmpty then none
  else
    let kept := ds.take 9
    some (digitsToNat kept * Nat.pow 10 (9 - kept.length), rest)

/-- A decimal point and digits, or nothing at all. -/
def pointFraction? : List Char → Option (Nat × List Char)
  | '.' :: cs => fraction? cs
  | cs => some (0, cs)

/-! ### With an offset -/

/-- Seconds east of UTC: `Z`, or a sign, an hour up to 23 and a minute up to 59. -/
def offset? : List Char → Option (Int × List Char)
  | 'Z' :: cs => some (0, cs)
  | 'z' :: cs => some (0, cs)
  | c :: cs => do
    let west ← if c = '+' then some false else if c = '-' ∨ c = '\u2212' then some true else none
    let (hours, cs) ← exactly? 2 cs
    let cs ← char? ':' cs
    let (minutes, cs) ← exactly? 2 cs
    if hours < 24 ∧ minutes < 60 then
      let seconds : Int := 3600 * hours + 60 * minutes
      some (if west then -seconds else seconds, cs)
    else none
  | [] => none

def withOffset? (cs : List Char) : Option Instant := do
  let (year, cs) ← exactly? 4 cs
  let cs ← char? '-' cs
  let (month, cs) ← exactly? 2 cs
  let cs ← char? '-' cs
  let (day, cs) ← exactly? 2 cs
  let cs ← match cs with
    | 'T' :: cs => some cs
    | 't' :: cs => some cs
    | ' ' :: cs => some cs
    | _ => none
  let (hour, cs) ← exactly? 2 cs
  let cs ← char? ':' cs
  let (minute, cs) ← exactly? 2 cs
  let cs ← char? ':' cs
  let (second, cs) ← exactly? 2 cs
  let (nano, cs) ← pointFraction? cs
  let (east, cs) ← offset? cs
  if cs.isEmpty then
    let date ← Date.of? year month day
    let t ← Instant.ofClock? date hour minute second nano
    t.earlier? east
  else none

/-! ### Without an offset -/

inductive Figure where
  | year | month | day | hour | minute | second

/-- What a form is made of. A space stands for any blank space or none. -/
inductive Part where
  | figure (f : Figure)
  | mark (c : Char)
  | space
  | fraction

structure Figures where
  year : Int := 0
  month : Nat := 1
  day : Nat := 1
  hour : Nat := 0
  minute : Nat := 0
  second : Nat := 0
  nano : Nat := 0

def Figures.set (fs : Figures) (n : Nat) : Figure → Figures
  | .year => {fs with year := n}
  | .month => {fs with month := n}
  | .day => {fs with day := n}
  | .hour => {fs with hour := n}
  | .minute => {fs with minute := n}
  | .second => {fs with second := n}

/-- A year has up to four digits, or a sign and any number of them. -/
def signedYear? : List Char → Option (Int × List Char)
  | '-' :: cs => (upTo? cs.length cs).map fun (n, rest) => (-n, rest)
  | '+' :: cs => (upTo? cs.length cs).map fun (n, rest) => ((n : Int), rest)
  | cs => (upTo? 4 cs).map fun (n, rest) => ((n : Int), rest)

def Figures.read? (fs : Figures) : List Part → List Char → Option Figures
  | [], cs => if cs.isEmpty then some fs else none
  | .figure .year :: parts, cs => do
    let (n, cs) ← signedYear? (Text.trimStart cs)
    {fs with year := n}.read? parts cs
  | .figure f :: parts, cs => do
    let (n, cs) ← upTo? 2 (Text.trimStart cs)
    (fs.set n f).read? parts cs
  | .mark c :: parts, cs => do
    let cs ← char? c cs
    fs.read? parts cs
  | .space :: parts, cs => fs.read? parts (Text.trimStart cs)
  | .fraction :: parts, cs => do
    let (n, cs) ← pointFraction? cs
    {fs with nano := n}.read? parts cs

def Figures.instant? (fs : Figures) : Option Instant := do
  let date ← Date.of? fs.year fs.month fs.day
  Instant.ofClock? date fs.hour fs.minute fs.second fs.nano

namespace Form

def date : List Part :=
  [.figure .year, .mark '-', .figure .month, .mark '-', .figure .day]
def minutes : List Part := [.figure .hour, .mark ':', .figure .minute]
def seconds : List Part := minutes ++ [.mark ':', .figure .second]

/-- In the order they are tried. -/
def all : List (List Part) :=
  [date ++ .space :: seconds, date ++ .mark 'T' :: seconds,
    date ++ .mark 'T' :: (seconds ++ [.fraction]), date ++ .space :: minutes,
    date ++ .mark 'T' :: minutes, date]

end Form

def withoutOffset? (cs : List Char) : Option Instant :=
  Form.all.findSome? fun form => (({} : Figures).read? form cs).bind Figures.instant?

/-- The instant a text names, blank space around it aside. -/
def Instant.ofText? (s : String) : Option Instant :=
  let cs := (Text.trim s).toList
  (withOffset? cs).or (withoutOffset? cs)

end BucketQuery.Calendar
