import BucketQuery.Double.Reading
import BucketQuery.Json.Document
import BucketQuery.Text.Digit

/-!
What a plain word means: null, a switch, a number, or itself. A number is written in one of four bases or
as a decimal; digits after a leading zero are not a number. -/
namespace BucketQuery.Yaml

def isNullWord (w : String) : Bool := ["null", "Null", "NULL", "~"].contains w

def switch? (w : String) : Option Bool :=
  if ["true", "True", "TRUE"].contains w then some true
  else if ["false", "False", "FALSE"].contains w then some false
  else none

/-- The base that the first characters of a number name, and the digits behind them. -/
def basedDigits : List Char → Nat × List Char
  | '0' :: 'x' :: ds => (16, ds)
  | '0' :: 'o' :: ds => (8, ds)
  | '0' :: 'b' :: ds => (2, ds)
  | ds => (10, ds)

/-- Digits after a leading zero. -/
def isPadded (cs : List Char) : Bool :=
  match Text.unsign cs with
  | '0' :: d :: ds => (d :: ds).all Char.isDigit
  | _ => false

def whole? (cs : List Char) : Option Int :=
  if isPadded cs then none
  else
    let (base, ds) := basedDigits (Text.unsign cs)
    if ds.isEmpty then none
    else (Text.number? base ds).map fun n => if cs.head? = some '-' then -n else n

def infinite? (cs : List Char) : Option Double :=
  if [".inf", ".Inf", ".INF"].contains (String.ofList (Text.unsign cs)) then
    some (.infinite (cs.head? == some '-'))
  else none

/-- A decimal number, or a word for what is not finite. A decimal too large to be held is none. -/
def decimal? (cs : List Char) : Option Double :=
  if (infinite? cs).isSome then infinite? cs
  else if [".nan", ".NaN", ".NAN"].contains (String.ofList cs) then some .nan
  else (Double.ofText? Double.binary64 (String.ofList cs)).filter Double.isFinite

/-- A whole number of 64 bits. One of up to 128 bits is still a whole number, which no value holds;
beyond that it is read as a decimal. -/
def number? (cs : List Char) : Option Document :=
  match whole? cs with
  | some n =>
    if -0x8000000000000000 ≤ n ∧ n < 0x10000000000000000 then some (.number (.int n))
    else if -0x80000000000000000000000000000000 ≤ n ∧
        n < 0x100000000000000000000000000000000 then some (.broken ⟨.malformed, none⟩)
    else (decimal? cs).map fun x => .number (.float x)
  | none => if isPadded cs then none else (decimal? cs).map fun x => .number (.float x)

def meaning (w : String) : Document :=
  if w.isEmpty || isNullWord w then .null
  else match switch? w with
    | some b => .bool b
    | none => (number? w.toList).getD (.string w)

/-- What a scalar with a tag means. A tag that is none of the known ones makes a string of it, and one of
the text's own says nothing that could be used. -/
def taggedMeaning (tag w : String) : Document :=
  let unfit : Document := .broken ⟨.malformed, none⟩
  if tag.startsWith "!" then unfit
  else if tag == "tag:yaml.org,2002:null" then if isNullWord w then .null else unfit
  else if tag == "tag:yaml.org,2002:bool" then ((switch? w).map Document.bool).getD unfit
  else if tag == "tag:yaml.org,2002:int" then
    match number? w.toList with
    | some (.number (.int n)) => .number (.int n)
    | _ => unfit
  else if tag == "tag:yaml.org,2002:float" then
    ((decimal? w.toList).map fun x => Document.number (.float x)).getD unfit
  else .string w

end BucketQuery.Yaml
