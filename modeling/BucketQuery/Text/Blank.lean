/-!
Blank space is the Unicode property `White_Space`: tabs and line ends, the plain and the no-break
space, and the typographic spaces of every width. `trim` takes blank space off both ends. -/
namespace BucketQuery.Text

def isBlank (c : Char) : Bool :=
  let n := c.toNat
  (0x9 ≤ n && n ≤ 0xd) || n == 0x20 || n == 0x85 || n == 0xa0 || n == 0x1680 ||
    (0x2000 ≤ n && n ≤ 0x200a) || n == 0x2028 || n == 0x2029 || n == 0x202f || n == 0x205f ||
    n == 0x3000

def trimStart (cs : List Char) : List Char := cs.dropWhile isBlank

def trimEnd (cs : List Char) : List Char := (cs.reverse.dropWhile isBlank).reverse

def trim (s : String) : String := String.ofList (trimEnd (trimStart s.toList))

/-- Nothing but blank space, or nothing at all. -/
def allBlank (s : String) : Bool := s.toList.all isBlank

/-- Equality of two texts when the case of ASCII letters does not count. -/
def sameLetters (a b : String) : Bool := a.toLower == b.toLower

end BucketQuery.Text
