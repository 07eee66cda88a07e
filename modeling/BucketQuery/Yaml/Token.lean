import BucketQuery.Yaml.Scalar

/-!
The tokens of a YAML text. Indentation becomes tokens of its own: a block collection starts where a
line is indented beyond what encloses it and ends where a line is indented less. A key is known for
one only at its colon, so places where one may have begun are remembered, and the tokens for it are
put there afterwards. -/
namespace BucketQuery.Yaml

inductive Token where
  | version (major minor : Nat)
  /-- A handle, and what it stands for at the start of a tag. -/
  | handle (name lead : String)
  | documentStart
  | documentEnd
  | blockSequence
  | blockMapping
  | blockEnd
  | flowSequence
  | flowSequenceEnd
  | flowMapping
  | flowMappingEnd
  | blockEntry
  | flowEntry
  | key
  | value
  | alias (name : String)
  | anchor (name : String)
  /-- A tag with its handle, or with none if it is written in full. -/
  | tag (handle suffix : String)
  | scalar (plain : Bool) (text : String)
  | textEnd
deriving DecidableEq

/-! ### Tags and directives -/

def isOneOf (marks : String) (c : Char) : Bool := marks.toList.contains c

def isUriChar (full : Bool) (c : Char) : Bool :=
  isNameChar c || isOneOf ";/?:@&=+$.!~*'()" c || (full && isOneOf ",[]" c)

/-- A byte that is written as a percent sign and two digits. -/
def octet? : List Char → Option (Nat × List Char)
  | '%' :: a :: b :: rest => do return (← Text.number? 16 [a, b], rest)
  | _ => none

/-- The bytes that go on with a character. -/
def continued? : (count : Nat) → (n : Nat) → List Char → Option (Nat × List Char)
  | 0, n, cs => some (n, cs)
  | count + 1, n, cs => do
    let (b, rest) ← octet? cs
    if b / 64 = 2 then continued? count (64 * n + b % 64) rest else none

/-- A character that is written as its bytes. -/
def escapedChar? (cs : List Char) : Option (Char × List Char) := do
  let (b, rest) ← octet? cs
  let (n, rest) ←
    if b < 0x80 then some (b, rest)
    else if b / 32 = 6 then continued? 1 (b % 32) rest
    else if b / 16 = 14 then continued? 2 (b % 16) rest
    else if b / 8 = 30 then continued? 3 (b % 8) rest
    else none
  return (Char.ofNat n, rest)

/-- The characters of a tag from here on, and how many of the text they take. -/
def uri? (full : Bool) : (fuel : Nat) → List Char → Option (List Char × Nat)
  | 0, _ => some ([], 0)
  | fuel + 1, cs =>
    match cs with
    | '%' :: _ => do
      let (c, rest) ← escapedChar? cs
      let (more, n) ← uri? full fuel rest
      return (c :: more, n + (cs.length - rest.length))
    | c :: rest =>
      if isUriChar full c then (uri? full fuel rest).map fun (more, n) => (c :: more, n + 1)
      else some ([], 0)
    | [] => some ([], 0)

/-- The handle that a text begins with, its first mark on; the second mark may be missing. -/
def tagHandle (c : Cursor) : List Char × Cursor :=
  let (name, next) := (c.skip 1).span isNameChar
  if next.isAt '!' then ('!' :: name ++ ['!'], next.skip 1) else ('!' :: name, next)

/-- A tag at its first mark. -/
def tag? (flow : Bool) (c : Cursor) : Option (Token × Cursor) := do
  let (token, c) ←
    if (c.skip 1).isAt '<' then do
      let c := c.skip 2
      let (uri, n) ← uri? true c.rest.length c.rest
      let c := c.skip n
      if uri.isEmpty || !c.isAt '>' then none
      else some (Token.tag "" (String.ofList uri), c.skip 1)
    else do
      let (handle, c) := tagHandle c
      let (uri, n) ← uri? false c.rest.length c.rest
      let c := c.skip n
      if handle.length > 1 && handle.getLast? == some '!' then
        if uri.isEmpty then none else some (Token.tag (String.ofList handle) (String.ofList uri), c)
      else
        match handle.drop 1 ++ uri with
        | [] => some (Token.tag "" "!", c)
        | suffix => some (Token.tag "!" (String.ofList suffix), c)
  if wordEnds c.rest || (flow && c.isAt ',') then some (token, c) else none

/-- A name after `&` or `*`. -/
def name? (c : Cursor) : Option (String × Cursor) :=
  let (name, c) := c.span isNameChar
  if !name.isEmpty && (wordEnds c.rest || c.rest.head?.any (isOneOf "?:,]\x7d%@`")) then
    some (String.ofList name, c)
  else none

/-- A number of at most nine digits. -/
def figure? (c : Cursor) : Option (Nat × Cursor) :=
  let (ds, c) := c.span Char.isDigit
  if ds.isEmpty || 9 < ds.length then none
  else some (ds.foldl (fun n d => 10 * n + (d.toNat - 48)) 0, c)

def version? (c : Cursor) : Option (Token × Cursor) := do
  let (major, c) ← figure? (c.skipWhile isBlank)
  if c.isAt '.' then
    let (minor, c) ← figure? (c.skip 1)
    return (.version major minor, c)
  else none

def handle? (c : Cursor) : Option (Token × Cursor) := do
  let c := c.skipWhile isBlank
  if !c.isAt '!' then none
  else
    let (handle, c) := tagHandle c
    if handle.getLast? != some '!' || !c.rest.head?.any isBlank then none
    else
      let c := c.skipWhile isBlank
      let (uri, n) ← uri? true c.rest.length c.rest
      let c := c.skip n
      if uri.isEmpty || !wordEnds c.rest then none
      else some (.handle (String.ofList handle) (String.ofList uri), c)

/-- A directive, its percent sign off, with the rest of its line. -/
def directive? (c : Cursor) : Option (Token × Cursor) := do
  let (name, c) := c.span isNameChar
  if !wordEnds c.rest then none
  else
    let (token, c) ←
      if name == ['Y', 'A', 'M', 'L'] then version? c
      else if name == ['T', 'A', 'G'] then handle? c
      else none
    return (token, ← c.restOfLine?)

/-! ### Reading on -/

/-- A place where a key may have begun. -/
structure Candidate where
  /-- Nothing but a key may stand here. -/
  required : Bool
  /-- How many tokens there are before it. -/
  token : Nat
  start : Cursor

/-- A key lies on one line and is not too long. -/
def Candidate.isPast (k : Candidate) (c : Cursor) : Bool :=
  k.start.line < c.line || k.start.index + 1024 < c.index

structure Scan where
  cursor : Cursor
  tokens : Array Token := #[]
  /-- The column of the innermost block collection, and of those around it. -/
  indent : Int := -1
  indents : List Int := []
  /-- Whether a key may begin here. -/
  keyAllowed : Bool := true
  candidate : Option Candidate := none
  /-- The candidates outside each flow collection around, the innermost first. -/
  outside : List (Option Candidate) := []

namespace Scan

def inFlow (s : Scan) : Bool := !s.outside.isEmpty

def push (t : Token) (s : Scan) : Scan := {s with tokens := s.tokens.push t}

def skip (n : Nat) (s : Scan) : Scan := {s with cursor := s.cursor.skip n}

def allow (keyAllowed : Bool) (s : Scan) : Scan := {s with keyAllowed}

/-- Gives up the candidate, if it does not have to be a key. -/
def dropCandidate? (s : Scan) : Option Scan :=
  if s.candidate.any Candidate.required then none else some {s with candidate := none}

/-- Gives up the candidates that lie too far back. -/
def dropPast? (s : Scan) : Option Scan :=
  let past (k : Option Candidate) : Bool := k.any fun k => k.isPast s.cursor
  let stale (k : Option Candidate) : Bool := past k && k.any Candidate.required
  let kept (k : Option Candidate) : Option Candidate := if past k then none else k
  if stale s.candidate || s.outside.any stale then none
  else some {s with candidate := kept s.candidate, outside := s.outside.map kept}

/-- Notes that a key may begin here. -/
def noteCandidate? (s : Scan) : Option Scan :=
  if !s.keyAllowed then some s
  else do
    let s ← s.dropCandidate?
    let required := !s.inFlow && s.indent == s.cursor.column
    return {s with candidate := some ⟨required, s.tokens.size, s.cursor⟩}

/-- Begins a block collection at `column`, unless it goes on there already. -/
def indentTo (column place : Nat) (t : Token) (s : Scan) : Scan :=
  if s.inFlow || (column : Int) ≤ s.indent then s
  else {s with
    indent := column, indents := s.indent :: s.indents, tokens := s.tokens.insertIdxIfInBounds place t}

/-- Ends the block collections indented beyond `column`. -/
def unindentTo (column : Int) (s : Scan) : Scan :=
  if s.inFlow then s
  else
    let all := s.indent :: s.indents
    let closed := all.takeWhile (column < ·)
    let left := all.dropWhile (column < ·)
    {s with
      indent := left.headD (-1), indents := left.tail,
      tokens := s.tokens ++ Array.replicate closed.length .blockEnd}

/-- Goes over blanks, comments and line breaks to the next token. At the start of a line of block
collections, tabs are not blanks. -/
def toToken : (fuel : Nat) → Scan → Scan
  | 0, s => s
  | fuel + 1, s =>
    let c := if s.cursor.index = 0 && s.cursor.isAt '\ufeff' then s.cursor.skip 1 else s.cursor
    let c := c.skipWhile fun d => d == ' ' || (d == '\t' && (s.inFlow || !s.keyAllowed))
    let c := if c.isAt '#' then c.skipWhile (!isBreak ·) else c
    match c.lineBreak? with
    | some (_, c) => toToken fuel {s with cursor := c, keyAllowed := s.keyAllowed || !s.inFlow}
    | none => {s with cursor := c}

/-! ### The tokens one by one -/

/-- A directive or the mark of a document ends all that is open. -/
def atDocumentLevel? (s : Scan) : Option Scan := (s.unindentTo (-1)).dropCandidate?.map (allow false)

def openFlow? (t : Token) (s : Scan) : Option Scan := do
  let s ← s.noteCandidate?
  return ({s with candidate := none, outside := s.candidate :: s.outside}.allow true).skip 1 |>.push t

def closeFlow? (t : Token) (s : Scan) : Option Scan := do
  let s ← s.dropCandidate?
  let s := match s.outside with
    | k :: outside => {s with candidate := k, outside}
    | [] => s
  return (s.allow false).skip 1 |>.push t

def flowEntry? (s : Scan) : Option Scan := do
  let s ← s.dropCandidate?
  return (s.allow true).skip 1 |>.push .flowEntry

/-- Begins a block collection for a mark that stands at the start of its entry. -/
def blockMark? (start : Token) (s : Scan) : Option Scan :=
  if s.inFlow then some s
  else if !s.keyAllowed then none
  else some (s.indentTo s.cursor.column s.tokens.size start)

def blockEntry? (s : Scan) : Option Scan := do
  let s ← (← s.blockMark? .blockSequence).dropCandidate?
  return (s.allow true).skip 1 |>.push .blockEntry

def key? (s : Scan) : Option Scan := do
  let s ← (← s.blockMark? .blockMapping).dropCandidate?
  return (s.allow !s.inFlow).skip 1 |>.push .key

/-- A colon makes a key of the candidate; without one it belongs to a key that was marked as such. -/
def value? (s : Scan) : Option Scan := do
  let s ← match s.candidate with
    | some k =>
      let s := {s with candidate := none, tokens := s.tokens.insertIdxIfInBounds k.token .key}
      pure ((s.indentTo k.start.column k.token .blockMapping).allow false)
    | none => do
      let s ← s.blockMark? .blockMapping
      pure (s.allow !s.inFlow)
  return s.skip 1 |>.push .value

/-- A token that may be the start of a key. -/
def within? (s : Scan) (read : Cursor → Option (Token × Cursor)) : Option Scan := do
  let s ← s.noteCandidate?
  let (t, cursor) ← read s.cursor
  return {s with cursor, keyAllowed := false}.push t

def plain? (s : Scan) : Option Scan := do
  let s ← s.noteCandidate?
  let (text, ended, cursor) ← Yaml.plain? s.inFlow (s.indent + 1).toNat s.cursor
  return {s with cursor, keyAllowed := ended}.push (.scalar true text)

def block? (fold : Bool) (s : Scan) : Option Scan := do
  let s ← s.dropCandidate?
  let (text, cursor) ← Yaml.block? fold s.indent (s.cursor.skip 1)
  return {s with cursor, keyAllowed := true}.push (.scalar false text)

def quotedToken? (quote : Char) (c : Cursor) : Option (Token × Cursor) :=
  (quoted? quote (c.rest.length + 1) (c.skip 1)).map fun (text, c) =>
    (.scalar false (String.ofList text), c)

def named (token : String → Token) (c : Cursor) : Option (Token × Cursor) :=
  (name? (c.skip 1)).map fun (n, c) => (token n, c)

/-- Whether a plain scalar may begin here. Some marks may begin one if no blank follows. -/
def plainStarts (flow : Bool) (first : Char) (rest : List Char) : Bool :=
  if first == '-' then !rest.head?.any isBlank
  else if first == '?' || first == ':' then !flow && !wordEnds rest
  else !isOneOf ",[]\x7b\x7d#&*!|>'\"%@`\t" first

/-- The next token, at which the cursor stands. -/
def token? (s : Scan) : Option Scan :=
  let c := s.cursor
  match c.rest with
  | [] => none
  | first :: rest =>
    let mark := s.inFlow || wordEnds rest
    if c.column = 0 && first == '%' then do
      let s ← s.atDocumentLevel?
      let (t, cursor) ← directive? (c.skip 1)
      return {s with cursor}.push t
    else if c.marks '-' then s.atDocumentLevel?.map fun s => (s.skip 3).push .documentStart
    else if c.marks '.' then s.atDocumentLevel?.map fun s => (s.skip 3).push .documentEnd
    else if first == '[' then s.openFlow? .flowSequence
    else if first == '\x7b' then s.openFlow? .flowMapping
    else if first == ']' then s.closeFlow? .flowSequenceEnd
    else if first == '\x7d' then s.closeFlow? .flowMappingEnd
    else if first == ',' then s.flowEntry?
    else if first == '-' && wordEnds rest then s.blockEntry?
    else if first == '?' && mark then s.key?
    else if first == ':' && mark then s.value?
    else if first == '*' then s.within? (named .alias)
    else if first == '&' then s.within? (named .anchor)
    else if first == '!' then s.within? (tag? s.inFlow)
    else if first == '|' && !s.inFlow then s.block? false
    else if first == '>' && !s.inFlow then s.block? true
    else if first == '\'' || first == '"' then s.within? (quotedToken? first)
    else if plainStarts s.inFlow first rest then s.plain?
    else none

def finish? (s : Scan) : Option (List Token) := do
  let s ← (s.unindentTo (-1)).dropCandidate?
  return (s.push .textEnd).tokens.toList

/-- All tokens from here on. -/
def tokens? : (fuel : Nat) → Scan → Option (List Token)
  | 0, _ => none
  | fuel + 1, s => do
    let s ← (s.toToken (s.cursor.rest.length + 1)).dropPast?
    if s.cursor.atEnd then s.finish?
    else tokens? fuel (← (s.unindentTo s.cursor.column).token?)

end Scan

/-- The tokens of a text; none if it is not YAML. -/
def tokens? (text : String) : Option (List Token) :=
  let cs := text.toList
  if cs.all isAllowed then Scan.tokens? (cs.length + 1) {cursor := {rest := cs}} else none

end BucketQuery.Yaml
