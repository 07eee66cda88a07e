import BucketQuery.Double.Reading
import BucketQuery.Json.Document
import BucketQuery.Text.Digit

/-!
Reading JSON text. A string or a number is looked at twice, once for what it says and once only to
find its end, because a document that is skipped need not make sense: half a pair of escapes, a
number out of range and a container below the deepest level are faults only for whoever reads them.
After such a place the text goes on; after any other fault it is not read further. -/
namespace BucketQuery.Json.Reading

/-- How many containers may enclose one another. -/
def deepest : Nat := 127

def isSpace (c : Char) : Bool := c == ' ' || c == '\n' || c == '\t' || c == '\r'

def skipSpace (cs : List Char) : List Char := cs.dropWhile isSpace

/-! ### Strings -/

def unit? (a b c d : Char) : Option Nat := Text.number? 16 [a, b, c, d]

/-- Four bytes are looked at for an escape by number; only where there are fewer has the text ended. -/
def badUnit (cs : List Char) : Fault :=
  if (String.ofList cs).utf8ByteSize < 4 then .endOfText else .malformed

def short? : Char → Option Char
  | '"' => some '"'
  | '\\' => some '\\'
  | '/' => some '/'
  | 'b' => some '\x08'
  | 'f' => some '\x0c'
  | 'n' => some '\n'
  | 'r' => some '\r'
  | 't' => some '\t'
  | _ => none

/-- What follows a string whose opening quote is off. -/
def skipString : List Char → Except Fault (List Char)
  | [] => .error .endOfText
  | '"' :: rest => .ok rest
  | '\\' :: 'u' :: a :: b :: c :: d :: rest =>
    if (unit? a b c d).isSome then skipString rest else .error (badUnit (a :: b :: c :: d :: rest))
  | '\\' :: 'u' :: rest => .error (badUnit rest)
  | '\\' :: e :: rest => if (short? e).isSome then skipString rest else .error .malformed
  | '\\' :: [] => .error .endOfText
  | c :: rest => if c.toNat < 0x20 then .error .malformed else skipString rest

def isHigh (u : Nat) : Bool := 0xd800 ≤ u && u ≤ 0xdbff
def isLow (u : Nat) : Bool := 0xdc00 ≤ u && u ≤ 0xdfff

/-- What a string says whose opening quote is off. -/
def stringChars : List Char → Except Fault (List Char)
  | [] => .error .endOfText
  | '"' :: _ => .ok []
  | '\\' :: 'u' :: a :: b :: c :: d :: rest =>
    match unit? a b c d with
    | none => .error (badUnit (a :: b :: c :: d :: rest))
    | some u =>
      if isLow u then .error .malformed
      else if isHigh u then
        match rest with
        | '\\' :: 'u' :: e :: f :: g :: h :: rest =>
          match unit? e f g h with
          | none => .error (badUnit (e :: f :: g :: h :: rest))
          | some l =>
            if isLow l then do
              return Char.ofNat (0x10000 + (u - 0xd800) * 0x400 + (l - 0xdc00)) :: (← stringChars rest)
            else .error .malformed
        | '\\' :: 'u' :: rest => .error (badUnit rest)
        | ['\\'] => .error .endOfText
        | [] => .error .endOfText
        | _ => .error .malformed
      else do return Char.ofNat u :: (← stringChars rest)
  | '\\' :: 'u' :: rest => .error (badUnit rest)
  | '\\' :: e :: rest =>
    match short? e with
    | some c => do return c :: (← stringChars rest)
    | none => .error .malformed
  | '\\' :: [] => .error .endOfText
  | c :: rest => if c.toNat < 0x20 then .error .malformed else do return c :: (← stringChars rest)

/-! ### Numbers -/

/-- A number as it is written. -/
structure Numeral where
  negative : Bool
  whole : List Char
  part : Option (List Char)
  exponent : Option (Bool × List Char)

/-- The fault of a numeral that lacks a digit before `cs`. Skipping never asks whether more might
have come. -/
def lacking (skipping : Bool) (cs : List Char) : Fault :=
  if cs.isEmpty && !skipping then .endOfText else .malformed

def wholeDigits (skipping : Bool) (cs : List Char) : Except Fault (List Char × List Char) :=
  match cs.span Char.isDigit with
  | ([], rest) => .error (lacking skipping rest)
  | ('0' :: _ :: _, _) => .error .malformed
  | r => .ok r

def partDigits (skipping : Bool) : List Char → Except Fault (Option (List Char) × List Char)
  | '.' :: cs =>
    match cs.span Char.isDigit with
    | ([], rest) => .error (lacking skipping rest)
    | (ds, rest) => .ok (some ds, rest)
  | cs => .ok (none, cs)

def exponentDigits (skipping : Bool) : List Char → Except Fault (Option (Bool × List Char) × List Char)
  | c :: cs =>
    if c == 'e' || c == 'E' then
      let (negative, cs) := match cs with
        | '-' :: cs => (true, cs)
        | '+' :: cs => (false, cs)
        | cs => (false, cs)
      match cs.span Char.isDigit with
      | ([], rest) => .error (lacking skipping rest)
      | (ds, rest) => .ok (some (negative, ds), rest)
    else .ok (none, c :: cs)
  | [] => .ok (none, [])

def numeral (skipping : Bool) (cs : List Char) : Except Fault (Numeral × List Char) := do
  let (negative, cs) := match cs with
    | '-' :: cs => (true, cs)
    | cs => (false, cs)
  let (whole, cs) ← wholeDigits skipping cs
  let (part, cs) ← partDigits skipping cs
  let (exponent, cs) ← exponentDigits skipping cs
  return (⟨negative, whole, part, exponent⟩, cs)

/-- The largest significand that is kept. -/
def largest : Nat := 0xffffffffffffffff

/-- Takes digits into a significand until one no longer fits, and counts the digits taken and left. -/
def intoSignificand (significand : Nat) : List Char → Nat × Nat × Nat
  | [] => (significand, 0, 0)
  | d :: ds =>
    let next := 10 * significand + (d.toNat - 48)
    if largest < next then (significand, 0, ds.length + 1)
    else let (s, taken, left) := intoSignificand next ds; (s, taken + 1, left)

/-- The number a numeral stands for; none if it is out of range. Zero with a sign is not whole. -/
def Numeral.number? (n : Numeral) : Option Number :=
  let (whole, _, left) := intoSignificand 0 n.whole
  match n.part, n.exponent with
  | none, none =>
    if 0 < left then (Double.ofScaled? n.negative whole left).map .float
    else if !n.negative then some (.int whole)
    else if whole = 0 ∨ 0x8000000000000000 < whole then
      some (.float (Double.nearest Double.binary64 true whole 1))
    else some (.int (-whole))
  | part, exponent =>
    let (significand, taken, _) := intoSignificand whole (part.getD [])
    let start : Int := (left : Int) - taken
    let by' : Int := match exponent with
      | none => 0
      | some (false, ds) => Double.digitsValue ds
      | some (true, ds) => -Double.digitsValue ds
    (Double.ofScaled? n.negative significand (start + by')).map .float

/-! ### Documents -/

/-- A document and the text behind it, or no text if it cannot be read on. -/
abbrev Read := Document × Option (List Char)

def stringAt (cs : List Char) : Read :=
  match stringChars cs, skipString cs with
  | .ok s, .ok rest => (.string (String.ofList s), some rest)
  | .error f, .ok rest => (.broken ⟨f, none⟩, some rest)
  | .error f, .error g => (.broken ⟨f, some g⟩, none)
  | .ok _, .error g => (.broken (.final g), none)

def numberAt (cs : List Char) : Read :=
  match numeral true cs with
  | .error g => (.broken ⟨match numeral false cs with | .error f => f | .ok _ => g, some g⟩, none)
  | .ok (n, rest) =>
    match n.number? with
    | some v => (.number v, some rest)
    | none => (.broken ⟨.malformed, none⟩, some rest)

def wordAt (word : List Char) (meaning : Document) : List Char → Read
  | cs =>
    match word, cs with
    | [], cs => (meaning, some cs)
    | _ :: _, [] => (.broken (.final .endOfText), none)
    | w :: ws, c :: cs => if w = c then wordAt ws meaning cs else (.broken (.final .malformed), none)

def ended (cs : List Char) : Break := .final (if cs.isEmpty then .endOfText else .malformed)

/-- A container at `depth`, which is too deep to be read if it lies below the deepest level. -/
def atDepth (depth : Nat) (r : Read) : Read :=
  if depth < deepest then r else (.broken ⟨.malformed, r.1.skip⟩, r.2)

mutual

/-- The next value. `fuel` bounds the steps; the length of the text is enough. -/
def valueAt (depth : Nat) : (fuel : Nat) → List Char → Read
  | 0, _ => (.broken (.final .malformed), none)
  | fuel + 1, cs =>
    match skipSpace cs with
    | [] => (.broken (.final .endOfText), none)
    | '"' :: cs => stringAt cs
    | '[' :: cs =>
      match skipSpace cs with
      | ']' :: cs => atDepth depth (.sequence [] none, some cs)
      | [] => atDepth depth (.sequence [] (some (.final .endOfText)), none)
      | cs => atDepth depth
        (let (items, stop, rest) := itemsAt (depth + 1) fuel cs; (.sequence items stop, rest))
    | '{' :: cs =>
      match skipSpace cs with
      | '}' :: cs => atDepth depth (.mapping [] none, some cs)
      | cs => atDepth depth
        (let (fields, stop, rest) := fieldsAt (depth + 1) fuel cs; (.mapping fields stop, rest))
    | 't' :: cs => wordAt ['r', 'u', 'e'] (.bool true) cs
    | 'f' :: cs => wordAt ['a', 'l', 's', 'e'] (.bool false) cs
    | 'n' :: cs => wordAt ['u', 'l', 'l'] .null cs
    | c :: cs =>
      if c == '-' || c.isDigit then numberAt (c :: cs) else (.broken (.final .malformed), none)

/-- Items up to the closing bracket, at least one. -/
def itemsAt (depth : Nat) : (fuel : Nat) → List Char → List Document × Option Break × Option (List Char)
  | 0, _ => ([], some (.final .malformed), none)
  | fuel + 1, cs =>
    match valueAt depth fuel cs with
    | (item, none) => ([item], none, none)
    | (item, some rest) =>
      match skipSpace rest with
      | ']' :: rest => ([item], none, some rest)
      | ',' :: rest =>
        let (items, stop, rest) := itemsAt depth fuel rest
        (item :: items, stop, rest)
      | rest => ([item], some (ended rest), none)

/-- Fields up to the closing brace, at least one. A name that cannot be read ends them for a reader,
while the fields behind it count only for being skipped. -/
def fieldsAt (depth : Nat) :
    (fuel : Nat) → List Char → List (String × Document) × Option Break × Option (List Char)
  | 0, _ => ([], some (.final .malformed), none)
  | fuel + 1, cs =>
    match skipSpace cs with
    | '"' :: cs =>
      match stringAt cs with
      | (.broken b, none) => ([], some b, none)
      | (name, rest) =>
        match skipSpace (rest.getD []) with
        | ':' :: cs =>
          let (value, rest) := valueAt depth fuel cs
          let (later, stop, rest) : List (String × Document) × Option Break × Option (List Char) :=
            match rest with
            | none => ([], none, none)
            | some rest =>
              match skipSpace rest with
              | '}' :: rest => ([], none, some rest)
              | ',' :: rest => fieldsAt depth fuel rest
              | rest => ([], some (ended rest), none)
          match name with
          | .string name => ((name, value) :: later, stop, rest)
          | .broken b =>
            let skipped := value.skip.or ((Document.skipFields later).or (stop.bind Break.skipped))
            ([], some ⟨b.read, skipped⟩, rest)
          | _ => ([], stop, rest)
        | rest =>
          match name with
          | .broken b => ([], some ⟨b.read, (ended rest).skipped⟩, none)
          | _ => ([], some (ended rest), none)
    | cs => ([], some (ended cs), none)

end

end BucketQuery.Json.Reading

namespace BucketQuery.Json

/-- A text as a document, and the fault of what follows it. -/
def document (text : String) : Document × Option Fault :=
  let cs := text.toList
  match Reading.valueAt 0 (2 * cs.length + 2) cs with
  | (d, some rest) => (d, if (Reading.skipSpace rest).isEmpty then none else some .malformed)
  | (d, none) => (d, none)

/-- The value of a text. -/
def ofText (text : String) : Except Fault Json :=
  match document text with
  | (d, after) => do
    let v ← d.toJson .json
    match after with
    | some f => .error f
    | none => .ok v

end BucketQuery.Json
