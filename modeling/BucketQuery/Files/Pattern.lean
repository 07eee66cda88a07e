/-!
Patterns of names: `*` stands for any text, `?` for any character, brackets for one of some characters or,
with `!`, for any other, and a name that is `**` for folders at any depth. A text that is not a
pattern is refused with the place of the fault. -/
namespace BucketQuery.Files

inductive Wild where
  | char (c : Char)
  | anyChar
  | anyText
  | oneOf (ranges : List (Char × Char))
  | noneOf (ranges : List (Char × Char))
  /-- Folders at any depth. -/
  | deep
deriving DecidableEq, Repr

abbrev Pattern := List Wild

inductive PatternFault where
  | stars
  | deepWithinName
  | badRange
deriving DecidableEq, Repr

def PatternFault.message : PatternFault → String
  | .stars => "wildcards are either regular `*` or recursive `**`"
  | .deepWithinName => "recursive wildcards must form a single path component"
  | .badRange => "invalid range pattern"

namespace Pattern

/-- The characters between brackets: single ones, and ranges with a dash in between. -/
def ranges : List Char → List (Char × Char)
  | a :: '-' :: b :: rest => (a, b) :: ranges rest
  | a :: rest => (a, a) :: ranges rest
  | [] => []

/-- Characters up to the closing bracket, which cannot be the first of them, and how many there are. -/
def bracket? : List Char → Option (List Char × List Char)
  | c :: rest =>
    match rest.span (· != ']') with
    | (more, _ :: rest) => some (c :: more, rest)
    | (_, []) => none
  | [] => none

/-- Reads a pattern from place `i` on; `before` is the character before it. Two stars stand for a whole
name, between slashes. -/
def read (before : Option Char) (i : Nat) :
    (fuel : Nat) → List Char → Except (Nat × PatternFault) Pattern
  | 0, _ => .ok []
  | fuel + 1, cs =>
    match cs with
    | [] => .ok []
    | '?' :: rest => return .anyChar :: (← read (some '?') (i + 1) fuel rest)
    | '*' :: '*' :: '*' :: _ => .error (i + 2, .stars)
    | '*' :: '*' :: rest =>
      if before.any (· != '/') then .error (i - 1, .deepWithinName)
      else match rest with
        | [] => .ok [.deep]
        | '/' :: rest => return .deep :: (← read (some '/') (i + 3) fuel rest)
        | _ => .error (i + 2, .deepWithinName)
    | '*' :: rest => return .anyText :: (← read (some '*') (i + 1) fuel rest)
    | '[' :: '!' :: rest =>
      match bracket? rest with
      | some (within, left) =>
        return .noneOf (ranges within) :: (← read (some ']') (i + within.length + 3) fuel left)
      | none => .error (i, .badRange)
    | '[' :: rest =>
      match bracket? rest with
      | some (within, left) =>
        return .oneOf (ranges within) :: (← read (some ']') (i + within.length + 2) fuel left)
      | none => .error (i, .badRange)
    | c :: rest => return .char c :: (← read (some c) (i + 1) fuel rest)

def ofText (text : String) : Except (Nat × PatternFault) Pattern :=
  read none 0 text.length text.toList

/-- The only name that a pattern without wildcards matches. -/
def literal? : Pattern → Option (List Char)
  | [] => some []
  | .char c :: rest => (literal? rest).map (c :: ·)
  | _ => none

def inRanges (rs : List (Char × Char)) (c : Char) : Bool := rs.any fun r => r.1 ≤ c && c ≤ r.2

def suffixes : List Char → List (List Char)
  | [] => [[]]
  | c :: rest => (c :: rest) :: suffixes rest

/-- Whether a pattern matches a name. -/
def admits : Pattern → List Char → Bool
  | [], cs => cs.isEmpty
  | .anyText :: ps, cs => (suffixes cs).any fun rest => admits ps rest
  | .deep :: ps, cs => (suffixes cs).any fun rest => admits ps rest
  | .char d :: ps, c :: cs => c == d && admits ps cs
  | .anyChar :: ps, _ :: cs => admits ps cs
  | .oneOf rs :: ps, c :: cs => inRanges rs c && admits ps cs
  | .noneOf rs :: ps, c :: cs => !inRanges rs c && admits ps cs
  | _ :: _, [] => false

end Pattern

end BucketQuery.Files
