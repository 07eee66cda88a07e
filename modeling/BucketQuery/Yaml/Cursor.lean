/-!
A place in a YAML text: what is still to be read, and the line and column it stands in. Indentation
is part of YAML, so columns count. -/
namespace BucketQuery.Yaml

/-- A character that ends a line. -/
def isBreak (c : Char) : Bool :=
  c == '\n' || c == '\r' || c == '\u0085' || c == '\u2028' || c == '\u2029'

def isBlank (c : Char) : Bool := c == ' ' || c == '\t'

/-- A character of a name: of an anchor, a directive or the handle of a tag. -/
def isNameChar (c : Char) : Bool := c.isAlphanum || c == '_' || c == '-'

/-- Whether no word goes on here: a blank, a line break, or the end of the text. -/
def wordEnds (cs : List Char) : Bool := cs.head?.all fun c => isBlank c || isBreak c

/-- A character that may stand in a text at all. -/
def isAllowed (c : Char) : Bool :=
  let n := c.toNat
  n == 0x09 || n == 0x0a || n == 0x0d || (0x20 ≤ n && n ≤ 0x7e) || n == 0x85 ||
    (0xa0 ≤ n && n ≤ 0xd7ff) || (0xe000 ≤ n && n ≤ 0xfffd) || 0x10000 ≤ n

structure Cursor where
  rest : List Char
  index : Nat := 0
  line : Nat := 0
  column : Nat := 0

namespace Cursor

def atEnd (c : Cursor) : Bool := c.rest.isEmpty

def isAt (c : Cursor) (char : Char) : Bool := c.rest.head? == some char

/-- Goes over characters none of which is a line break. -/
def skip (n : Nat) (c : Cursor) : Cursor :=
  {c with rest := c.rest.drop n, index := c.index + n, column := c.column + n}

/-- The characters up to the first that does not satisfy `p`. No line break may satisfy it. -/
def span (p : Char → Bool) (c : Cursor) : List Char × Cursor :=
  let cs := c.rest.takeWhile p
  (cs, c.skip cs.length)

def skipWhile (p : Char → Bool) (c : Cursor) : Cursor := (c.span p).2

/-- A line break as it counts in a text, and the start of the next line. -/
def lineBreak? (c : Cursor) : Option (Char × Cursor) :=
  let next (n : Nat) : Cursor :=
    {rest := c.rest.drop n, index := c.index + n, line := c.line + 1, column := 0}
  match c.rest with
  | '\r' :: '\n' :: _ => some ('\n', next 2)
  | '\u2028' :: _ => some ('\u2028', next 1)
  | '\u2029' :: _ => some ('\u2029', next 1)
  | b :: _ => if isBreak b then some ('\n', next 1) else none
  | [] => none

/-- Whether three of a character stand by themselves at the start of a line. -/
def marks (c : Cursor) (char : Char) : Bool :=
  c.column == 0 && c.rest.take 3 == [char, char, char] && wordEnds (c.rest.drop 3)

/-- Where one document ends or another begins. -/
def atDocumentMark (c : Cursor) : Bool := c.marks '-' || c.marks '.'

/-- Goes over the rest of a line that holds nothing, or only a comment. -/
def restOfLine? (c : Cursor) : Option Cursor :=
  let c := c.skipWhile isBlank
  let c := if c.isAt '#' then c.skipWhile (!isBreak ·) else c
  if c.atEnd then some c else c.lineBreak?.map Prod.snd

end Cursor

end BucketQuery.Yaml
