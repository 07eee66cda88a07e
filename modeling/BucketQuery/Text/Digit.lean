/-!
Digits of numbers in bases up to sixteen, where letters of either case stand for the digits from ten
on. -/
namespace BucketQuery.Text

def digit? (base : Nat) (c : Char) : Option Nat :=
  let n :=
    if c.isDigit then some (c.toNat - 48)
    else if 'a' ≤ c && c ≤ 'f' then some (c.toNat - 87)
    else if 'A' ≤ c && c ≤ 'F' then some (c.toNat - 55)
    else none
  n.filter (· < base)

/-- The number that digits write; no digits write zero. -/
def number? (base : Nat) (cs : List Char) : Option Nat :=
  cs.foldlM (fun n c => (digit? base c).map (base * n + ·)) 0

/-- A number without its sign. -/
def unsign : List Char → List Char
  | '+' :: cs => cs
  | '-' :: cs => cs
  | cs => cs

end BucketQuery.Text
