/-!
Binary64 numbers, held unpacked: a finite one is a mantissa times a power of two. Everything is exact
arithmetic on naturals, so a number is what its fields say and rounding happens in one place,
`Double.nearest`. -/
namespace BucketQuery

inductive Double where
  | finite (negative : Bool) (mantissa : Nat) (exponent : Int)
  | infinite (negative : Bool)
  | nan
deriving DecidableEq, Repr

namespace Double

/-- A binary format: how many binary digits a mantissa has, and the exponents of its smallest and
largest unit. -/
structure Format where
  precision : Nat
  least : Int
  most : Int

def binary64 : Format := ⟨53, -1074, 971⟩
def binary32 : Format := ⟨24, -149, 104⟩

/-- The whole number nearest to `num / den`; a half goes to the even neighbour. -/
def roundDiv (num den : Nat) : Nat :=
  let q := num / den
  let r := num % den
  if 2 * r < den then q else if den < 2 * r then q + 1 else q + q % 2

/-- `num / den` divided by `2 ^ e`, as a fraction again. -/
def scaled (num den : Nat) : Int → Nat × Nat
  | .ofNat k => (num, den * Nat.pow 2 k)
  | .negSucc k => (num * Nat.pow 2 (k + 1), den)

/-- The place of the leading binary digit of `num / den`. -/
def leading (num den : Nat) : Int :=
  let k := (num.log2 : Int) - den.log2
  let (n, d) := scaled num den k
  if n < d then k - 1 else k

/-- The number of the format that is nearest to `num / den`. -/
def nearest (f : Format) (negative : Bool) (num den : Nat) : Double :=
  if num = 0 then .finite negative 0 f.least
  else
    let e := max (leading num den - (f.precision - 1)) f.least
    let (n, d) := scaled num den e
    let m := roundDiv n d
    let (m, e) := if m = Nat.pow 2 f.precision then (Nat.pow 2 (f.precision - 1), e + 1) else (m, e)
    if f.most < e then .infinite negative else .finite negative m e

def ofNat (n : Nat) : Double := nearest binary64 false n 1

def isZero : Double → Bool
  | finite _ m _ => m == 0
  | _ => false

def isFinite : Double → Bool
  | finite .. => true
  | _ => false

/-- `m * 2 ^ e` as a fraction. -/
def fraction (m : Nat) : Int → Nat × Nat
  | .ofNat k => (m * Nat.pow 2 k, 1)
  | .negSucc k => (m, Nat.pow 2 (k + 1))

/-- A number of a narrower format, as one of this. -/
def widen : Double → Double
  | finite s m e => let (n, d) := fraction m e; nearest binary64 s n d
  | x => x

/-- The product of two finite numbers, rounded once. -/
def times : Double → Double → Double
  | finite s m e, finite t n f => let (a, b) := fraction (m * n) (e + f); nearest binary64 (s != t) a b
  | _, _ => nan

/-- The quotient of two finite numbers, the divisor not zero, rounded once. -/
def dividedBy : Double → Double → Double
  | finite s m e, finite t n f => let (a, b) := fraction m (e - f); nearest binary64 (s != t) a (b * n)
  | _, _ => nan

end BucketQuery.Double
