import BucketQuery.Double.Shortest

/-!
How a number is written. Both layouts use the shortest digits. JSON text keeps a fraction on whole
numbers and turns to powers of ten outside `0.00001` to `10 ^ 16`; a literal never shows an exponent
and shows a fraction only where there is one. -/
namespace BucketQuery.Double

structure Layout where
  tie : Tie
  /-- Whether a whole number still shows a fraction. -/
  keepsPoint : Bool
  /-- The places of the leading digit that are written without an exponent; none means all. -/
  positional : Option (Int × Int)

def Layout.json : Layout := ⟨.even, true, some (-5, 15)⟩
def Layout.literal : Layout := ⟨.up, false, none⟩

def zeros (n : Nat) : List Char := List.replicate n '0'

/-- `digits * 10 ^ exponent` without an exponent. -/
def positionally (keepsPoint : Bool) (digits : List Char) (exponent : Int) : List Char :=
  if 0 ≤ exponent then
    digits ++ zeros exponent.toNat ++ if keepsPoint then ['.', '0'] else []
  else
    let places := (-exponent).toNat
    if places < digits.length then
      digits.take (digits.length - places) ++ '.' :: digits.drop (digits.length - places)
    else '0' :: '.' :: (zeros (places - digits.length) ++ digits)

/-- `d.ddd` times ten to the power `place`. -/
def scientifically (digits : List Char) (place : Int) : List Char :=
  digits.take 1 ++ (if digits.length ≤ 1 then [] else '.' :: digits.drop 1) ++
    'e' :: (if place < 0 then '-' else '+') :: Nat.toDigits 10 place.natAbs

def magnitude (l : Layout) (m : Nat) (e : Int) : List Char :=
  if m = 0 then if l.keepsPoint then ['0', '.', '0'] else ['0']
  else
    let d := shortest l.tie m e
    let digits := Nat.toDigits 10 d.digits
    let place := d.exponent + digits.length - 1
    match l.positional with
    | none => positionally l.keepsPoint digits d.exponent
    | some (low, high) =>
      if low ≤ place && place ≤ high then positionally l.keepsPoint digits d.exponent
      else scientifically digits place

def finiteText (l : Layout) (negative : Bool) (m : Nat) (e : Int) : String :=
  String.ofList ((if negative then ['-'] else []) ++ magnitude l m e)

/-- JSON has no text for a number that is not finite. -/
def jsonText? : Double → Option String
  | finite s m e => some (finiteText .json s m e)
  | _ => none

/-- A literal exists for finite numbers only. -/
def literal? : Double → Option String
  | finite s m e => some (finiteText .literal s m e)
  | _ => none

/-- The literal layout, with names for the numbers that have no digits. -/
def displayed : Double → String
  | finite s m e => finiteText .literal s m e
  | infinite false => "inf"
  | infinite true => "-inf"
  | nan => "NaN"

end BucketQuery.Double
