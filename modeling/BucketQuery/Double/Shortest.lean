import BucketQuery.Double.Basic

/-!
The shortest decimal of a number: of all decimals that read back as the number, one with the fewest
digits, and of those the nearest. The search goes down the powers of ten; on each grid only the
number's two neighbours can be the one. -/
namespace BucketQuery.Double

/-- Which way a number goes that lies exactly between two shortest decimals. -/
inductive Tie where
  | even
  | up

/-- The decimal `digits * 10 ^ exponent`. -/
structure Decimal where
  digits : Nat
  exponent : Int

/-- `2 ^ (e - 2)` and `10 ^ p` in a common unit. -/
def commonUnit (e p : Int) : Nat × Nat :=
  (Nat.pow 2 (e - 2).toNat * Nat.pow 10 (-p).toNat, Nat.pow 10 p.toNat * Nat.pow 2 (2 - e).toNat)

/-- The multiple of `10 ^ p` nearest to `m * 2 ^ e` that reads back as it, if one does. What reads
back is an interval around the number, narrower below a power of two; its ends belong to it when
the mantissa is even. -/
def onGrid (tie : Tie) (m : Nat) (e p : Int) : Option Nat :=
  let (two, ten) := commonUnit e p
  let v := 4 * m * two
  let low := (4 * m - if m == Nat.pow 2 52 && e != binary64.least then 1 else 2) * two
  let high := (4 * m + 2) * two
  let reads (x : Nat) : Bool := if m % 2 == 0 then low ≤ x && x ≤ high else low < x && x < high
  let c := v / ten
  let r := v % ten
  match reads (c * ten), reads ((c + 1) * ten) with
  | false, false => none
  | true, false => some c
  | false, true => some (c + 1)
  | true, true =>
    if 2 * r < ten then some c
    else if ten < 2 * r then some (c + 1)
    else match tie with
      | .up => some (c + 1)
      | .even => some (c + c % 2)

/-- Tries `steps` grids downwards from `10 ^ p`. -/
def shortestFrom (tie : Tie) (m : Nat) (e : Int) : Nat → Int → Decimal
  | 0, p => ⟨0, p⟩
  | steps + 1, p =>
    match onGrid tie m e p with
    | some c => ⟨c, p⟩
    | none => shortestFrom tie m e steps (p - 1)

/-- The shortest decimal of `m * 2 ^ e`, for `m` not zero. Seventeen digits always suffice; the
search starts at a power of ten above the number. -/
def shortest (tie : Tie) (m : Nat) (e : Int) : Decimal :=
  shortestFrom tie m e 20 ((m.log2 + e + 1) * 30103 / 100000 + 1)

end BucketQuery.Double
