import BucketQuery.Double.Basic

/-!
Reading decimals. `ofText?` takes the usual spellings and rounds once, to nearest. `ofScaled?` is
the quick way JSON texts are read: the significand is rounded first and then moved by powers of ten
that are rounded themselves, so long decimals may end a unit away from the nearest number. -/
namespace BucketQuery.Double

/-- The digits at the front of a text, and what follows them. -/
def spanDigits (cs : List Char) : List Char × List Char := cs.span Char.isDigit

def digitsValue (ds : List Char) : Nat := ds.foldl (fun n d => 10 * n + (d.toNat - 48)) 0

/-- `digits * 10 ^ exponent` rounded once. Far outside the format's range the answer is known from
the place of the leading digit alone. -/
def ofDecimal (f : Format) (negative : Bool) (digits : Nat) (exponent : Int) : Double :=
  let place := (Nat.toDigits 10 digits).length + exponent
  if digits = 0 || place < -400 then nearest f negative 0 1
  else if 400 < place then .infinite negative
  else nearest f negative (digits * Nat.pow 10 exponent.toNat) (Nat.pow 10 (-exponent).toNat)

/-- An exponent part, `e` already taken off: an optional sign and at least one digit. -/
def exponent? (cs : List Char) : Option Int :=
  let (negative, ds) := match cs with
    | '-' :: ds => (true, ds)
    | '+' :: ds => (false, ds)
    | ds => (false, ds)
  if ds.isEmpty || !ds.all Char.isDigit then none
  else some (if negative then -digitsValue ds else digitsValue ds)

/-- A text without its sign. -/
def unsigned? (f : Format) (negative : Bool) (cs : List Char) : Option Double :=
  match String.ofList (cs.map Char.toLower) with
  | "inf" | "infinity" => some (.infinite negative)
  | "nan" => some .nan
  | _ =>
    let (whole, rest) := spanDigits cs
    let (part, rest) := match rest with
      | '.' :: rest => spanDigits rest
      | rest => ([], rest)
    if whole.isEmpty && part.isEmpty then none
    else
      let number (e : Int) := ofDecimal f negative (digitsValue (whole ++ part)) (e - part.length)
      match rest with
      | [] => some (number 0)
      | c :: rest => if c == 'e' || c == 'E' then (exponent? rest).map number else none

def ofText? (f : Format) (s : String) : Option Double :=
  match s.toList with
  | '-' :: cs => unsigned? f true cs
  | '+' :: cs => unsigned? f false cs
  | cs => unsigned? f false cs

def tenTo (k : Nat) : Double := nearest binary64 false (Nat.pow 10 k) 1

/-- Divides by `10 ^ k`, in steps no power of which overflows. -/
def shrink (x : Double) (k : Nat) : Double :=
  if k ≤ 308 then x.dividedBy (tenTo k)
  else if x.isZero then x
  else shrink (x.dividedBy (tenTo 308)) (k - 308)
termination_by k

/-- `significand * 10 ^ exponent` in rounded steps; nothing if it is out of range. -/
def ofScaled? (negative : Bool) (significand : Nat) (exponent : Int) : Option Double :=
  let x := nearest binary64 negative significand 1
  if exponent < 0 then some (shrink x exponent.natAbs)
  else if x.isZero then some x
  else if 308 < exponent then none
  else
    let y := x.times (tenTo exponent.toNat)
    if y.isFinite then some y else none

end BucketQuery.Double
