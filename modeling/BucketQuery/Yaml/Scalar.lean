import BucketQuery.Text.Digit
import BucketQuery.Yaml.Cursor

/-!
The text of scalars. Plain and quoted ones may go over several lines, which are folded: a line break
between two parts of the text counts as a blank, and of several the first does not count. Block
scalars keep their lines, or fold those that do not begin with a blank. -/
namespace BucketQuery.Yaml

/-- What line breaks between two parts of a text leave of themselves. -/
def folded : List Char → List Char
  | ['\n'] => [' ']
  | '\n' :: more => more
  | breaks => breaks

/-- Line breaks with the blanks before, between and behind them. No tab may stand before the column
`margin` of a line. -/
def breaks? (margin : Nat) : (fuel : Nat) → Cursor → Option (List Char × Cursor)
  | 0, c => some ([], c)
  | fuel + 1, c =>
    let (blanks, after) := c.span isBlank
    if (blanks.take (margin - c.column)).contains '\t' then none
    else match after.lineBreak? with
      | some (b, next) => (breaks? margin fuel next).map fun (bs, c) => (b :: bs, c)
      | none => some ([], after)

/-- What lies between two parts of a text, as it counts, and whether it goes over a line. -/
def gap? (margin : Nat) (c : Cursor) : Option (List Char × Bool × Cursor) :=
  let (blanks, after) := c.span isBlank
  match after.lineBreak? with
  | none => some (blanks, false, after)
  | some (b, next) =>
    (breaks? margin next.rest.length next).map fun (bs, c) => (folded (b :: bs), true, c)

/-! ### Plain scalars -/

def isFlowMark (c : Char) : Bool := c == ',' || c == '[' || c == ']' || c == '\x7b' || c == '\x7d'

/-- A run of plain text up to a blank, a line break or a mark that ends it. Inside a flow collection no
mark may follow a colon. -/
def plainRun? (flow : Bool) : List Char → Option (List Char)
  | [] => some []
  | c :: rest =>
    if isBlank c || isBreak c then some []
    else if flow && c == ':' && rest.head?.any fun d => isFlowMark d || d == '?' then none
    else if (c == ':' && wordEnds rest) || (flow && isFlowMark c) then some []
    else (plainRun? flow rest).map (c :: ·)

/-- What follows the first run of a plain scalar, and whether the scalar ended at the start of a line.
The text goes on for as long as lines are indented up to `margin` and no comment begins. -/
def plainMore? (flow : Bool) (margin : Nat) :
    (fuel : Nat) → Cursor → Option (List Char × Bool × Cursor)
  | 0, c => some ([], false, c)
  | fuel + 1, c =>
    if c.atEnd || !wordEnds c.rest then some ([], false, c)
    else do
      let (between, crossed, next) ← gap? margin c
      if (!flow && next.column < margin) || next.atDocumentMark || next.isAt '#' then
        return ([], crossed, next)
      let run ← plainRun? flow next.rest
      if run.isEmpty then return ([], crossed, next)
      let (more, ended, last) ← plainMore? flow margin fuel (next.skip run.length)
      return (between ++ run ++ more, ended, last)

def plain? (flow : Bool) (margin : Nat) (c : Cursor) : Option (String × Bool × Cursor) := do
  let run ← plainRun? flow c.rest
  let (more, ended, c) ← plainMore? flow margin c.rest.length (c.skip run.length)
  return (String.ofList (run ++ more), ended, c)

/-! ### Quoted scalars -/

/-- The character that an escape stands for, from what follows its backslash, and how much of that
belongs to it. -/
def escape? (cs : List Char) : Option (Char × Nat) :=
  let byNumber (width : Nat) (ds : List Char) : Option (Char × Nat) := do
    let n ← Text.number? 16 (ds.take width)
    if width ≤ ds.length ∧ n.isValidChar then some (Char.ofNat n, width + 1) else none
  match cs with
  | '0' :: _ => some ('\x00', 1)
  | 'a' :: _ => some ('\x07', 1)
  | 'b' :: _ => some ('\x08', 1)
  | 't' :: _ => some ('\t', 1)
  | '\t' :: _ => some ('\t', 1)
  | 'n' :: _ => some ('\n', 1)
  | 'v' :: _ => some ('\x0b', 1)
  | 'f' :: _ => some ('\x0c', 1)
  | 'r' :: _ => some ('\r', 1)
  | 'e' :: _ => some ('\x1b', 1)
  | ' ' :: _ => some (' ', 1)
  | '"' :: _ => some ('"', 1)
  | '/' :: _ => some ('/', 1)
  | '\\' :: _ => some ('\\', 1)
  | 'N' :: _ => some ('\u0085', 1)
  | '_' :: _ => some ('\u00a0', 1)
  | 'L' :: _ => some ('\u2028', 1)
  | 'P' :: _ => some ('\u2029', 1)
  | 'x' :: ds => byNumber 2 ds
  | 'u' :: ds => byNumber 4 ds
  | 'U' :: ds => byNumber 8 ds
  | _ => none

/-- A quoted scalar, its opening quote off. Between single quotes the quote is written twice; between
double quotes there are escapes, and a line break may be escaped too. -/
def quoted? (quote : Char) : (fuel : Nat) → Cursor → Option (List Char × Cursor)
  | 0, _ => none
  | fuel + 1, c =>
    if c.atDocumentMark then none
    else match c.rest with
      | [] => none
      | d :: rest =>
        if isBlank d || isBreak d then do
          let (between, _, next) ← gap? 0 c
          let (more, last) ← quoted? quote fuel next
          return (between ++ more, last)
        else if d == quote then
          if quote == '\'' && rest.head? == some '\'' then do
            let (more, last) ← quoted? quote fuel (c.skip 2)
            return ('\'' :: more, last)
          else some ([], c.skip 1)
        else if d == '\\' && quote == '"' then
          match (c.skip 1).lineBreak? with
          | some (_, next) => do
            let (bs, next) ← breaks? 0 next.rest.length next
            let (more, last) ← quoted? quote fuel next
            return (bs ++ more, last)
          | none => do
            let (e, n) ← escape? rest
            let (more, last) ← quoted? quote fuel (c.skip (n + 1))
            return (e :: more, last)
        else do
          let (more, last) ← quoted? quote fuel (c.skip 1)
          return (d :: more, last)

/-! ### Block scalars -/

/-- What becomes of the line breaks at the end of a block scalar. -/
inductive Chomping where
  | strip
  /-- One is kept. -/
  | clip
  | keep
deriving DecidableEq

structure BlockHeader where
  chomping : Chomping := .clip
  /-- How far the lines are indented beyond what encloses them, if that is written. -/
  increment : Option Nat := none

def chomping? (c : Cursor) : Option (Chomping × Cursor) :=
  match c.rest with
  | '+' :: _ => some (.keep, c.skip 1)
  | '-' :: _ => some (.strip, c.skip 1)
  | _ => none

/-- A digit from one to nine; without any there is no increment. -/
def increment? (c : Cursor) : Option (Option Nat × Cursor) :=
  match c.rest with
  | d :: _ =>
    if d == '0' then none
    else if d.isDigit then some (some (d.toNat - 48), c.skip 1)
    else some (none, c)
  | [] => some (none, c)

/-- The rest of the line that a block scalar begins in. -/
def blockHeader? (c : Cursor) : Option (BlockHeader × Cursor) := do
  let (header, c) ← match chomping? c with
    | some (chomping, c) => do
      let (increment, c) ← increment? c
      pure (BlockHeader.mk chomping increment, c)
    | none => do
      let (increment, c) ← increment? c
      match increment, chomping? c with
      | some _, some (chomping, c) => pure (BlockHeader.mk chomping increment, c)
      | _, _ => pure (BlockHeader.mk .clip increment, c)
  return (header, ← c.restOfLine?)

/-- The empty lines before a line with text, and the widest indentation seen. An `indent` of zero is
not known yet. -/
def emptyLines? (indent : Nat) :
    (fuel : Nat) → (widest : Nat) → Cursor → Option (List Char × Nat × Cursor)
  | 0, widest, c => some ([], widest, c)
  | fuel + 1, widest, c =>
    let spaces := (c.rest.takeWhile (· == ' ')).length
    let c := c.skip (if indent = 0 then spaces else min spaces (indent - c.column))
    let widest := max widest c.column
    if (indent = 0 || c.column < indent) && c.isAt '\t' then none
    else match c.lineBreak? with
      | some (b, next) =>
        (emptyLines? indent fuel widest next).map fun (bs, w, c) => (b :: bs, w, c)
      | none => some ([], widest, c)

/-- The lines of a block scalar from one with text on. `lead` is the line break before it, `empty` the
empty lines in between, and `blank` says whether the line before began with a blank. -/
def blockLines? (fold : Bool) (chomping : Chomping) (indent : Nat) :
    (fuel : Nat) → (lead empty : List Char) → (blank : Bool) → Cursor → Option (List Char × Cursor)
  | 0, _, _, _, c => some ([], c)
  | fuel + 1, lead, empty, blank, c =>
    if c.column = indent && !c.atEnd then do
      let blankNow := c.rest.head?.any isBlank
      let lead :=
        if fold && lead == ['\n'] && !blank && !blankNow then if empty.isEmpty then [' '] else []
        else lead
      let (text, c) := c.span (!isBreak ·)
      let (nextLead, c) := match c.lineBreak? with
        | some (b, c) => ([b], c)
        | none => ([], c)
      let (nextEmpty, _, c) ← emptyLines? indent (c.rest.length + 1) 0 c
      let (more, c) ← blockLines? fold chomping indent fuel nextLead nextEmpty blankNow c
      return (lead ++ empty ++ text ++ more, c)
    else
      let lead := if chomping = .strip then [] else lead
      let empty := if chomping = .keep then empty else []
      some (lead ++ empty, c)

/-- A block scalar, its indicator off, in a collection whose column is `parent`. -/
def block? (fold : Bool) (parent : Int) (c : Cursor) : Option (String × Cursor) := do
  let (header, c) ← blockHeader? c
  let known := match header.increment with
    | some n => (max parent 0).toNat + n
    | none => 0
  let (empty, widest, c) ← emptyLines? known (c.rest.length + 1) 0 c
  let indent := if known = 0 then max widest (max (parent + 1).toNat 1) else known
  let (text, c) ← blockLines? fold header.chomping indent (c.rest.length + 1) [] empty false c
  return (String.ofList text, c)

end BucketQuery.Yaml
