import BucketQuery.Text.Digit

/-!
The words of TOML: keys and strings. A key is bare or a string on one line; a string lets escapes
stand or takes every character as it is, and with three quotes it may go over several lines. -/
namespace BucketQuery.Toml

def isSpace (c : Char) : Bool := c == ' ' || c == '\t'

def skipSpace (cs : List Char) : List Char := cs.dropWhile isSpace

/-- A character that may stand in a comment or a string; line ends and controls may not. -/
def isPlain (c : Char) : Bool := c == '\t' || (0x20 ≤ c.toNat && c.toNat ≠ 0x7f)

def newline? : List Char → Option (List Char)
  | '\n' :: rest => some rest
  | '\r' :: '\n' :: rest => some rest
  | _ => none

/-- The end of a line: blanks, perhaps a comment, and a line end or the end of the text. -/
def lineEnd? (cs : List Char) : Option (List Char) :=
  let cs := match skipSpace cs with
    | '#' :: rest => rest.dropWhile isPlain
    | cs => cs
  if cs.isEmpty then some [] else newline? cs

/-- Blanks, comments and line ends, as many as there are. -/
def skipLines : (fuel : Nat) → List Char → List Char
  | 0, cs => cs
  | fuel + 1, cs =>
    match skipSpace cs with
    | [] => []
    | cs =>
      match lineEnd? cs with
      | some rest => skipLines fuel rest
      | none => cs

/-- Blanks and line ends, as many as there are. -/
def skipBlankLines : (fuel : Nat) → List Char → List Char
  | 0, cs => cs
  | fuel + 1, cs =>
    match newline? (skipSpace cs) with
    | some rest => skipBlankLines fuel rest
    | none => skipSpace cs

/-! ### Strings -/

def hexChar? (ds : List Char) : Option Char := do
  let n ← Text.number? 16 ds
  if n.isValidChar then some (Char.ofNat n) else none

/-- An escape whose backslash is off. -/
def escape? : List Char → Option (Char × List Char)
  | 'b' :: rest => some ('\x08', rest)
  | 't' :: rest => some ('\t', rest)
  | 'n' :: rest => some ('\n', rest)
  | 'f' :: rest => some ('\x0c', rest)
  | 'r' :: rest => some ('\r', rest)
  | '"' :: rest => some ('"', rest)
  | '\\' :: rest => some ('\\', rest)
  | 'u' :: rest => if rest.length < 4 then none else (hexChar? (rest.take 4)).map (·, rest.drop 4)
  | 'U' :: rest => if rest.length < 8 then none else (hexChar? (rest.take 8)).map (·, rest.drop 8)
  | _ => none

/-- Puts a character in front of those that were read. -/
def cons (c : Char) : Option (List Char × List Char) → Option (List Char × List Char) :=
  Option.map fun (cs, rest) => (c :: cs, rest)

/-- A string on one line, its opening quote off. -/
def basic? : (fuel : Nat) → List Char → Option (List Char × List Char)
  | 0, _ => none
  | fuel + 1, cs =>
    match cs with
    | [] => none
    | '"' :: rest => some ([], rest)
    | '\\' :: rest => do
      let (c, rest) ← escape? rest
      cons c (basic? fuel rest)
    | c :: rest => if isPlain c then cons c (basic? fuel rest) else none

/-- Quotes that close a string over several lines; up to two more of them belong to the string. -/
def closing? (quote : Char) (cs : List Char) : Option (List Char × List Char) :=
  let quotes := cs.takeWhile (· == quote)
  if quotes.length < 3 then none
  else some (quotes.take (min (quotes.length - 3) 2), cs.drop (min quotes.length 5))

/-- A string over several lines, its opening quotes off. A backslash at the end of a line takes the
blanks and line ends that follow with it. -/
def multiline? (quote : Char) : (fuel : Nat) → List Char → Option (List Char × List Char)
  | 0, _ => none
  | fuel + 1, cs =>
    match closing? quote cs with
    | some r => some r
    | none =>
      match cs with
      | [] => none
      | '\\' :: rest =>
        if quote = '\'' then cons '\\' (multiline? quote fuel rest)
        else match newline? (skipSpace rest) with
          | some rest =>
            multiline? quote fuel (skipBlankLines rest.length rest)
          | none => do
            let (c, rest) ← escape? rest
            cons c (multiline? quote fuel rest)
      | c :: rest =>
        match newline? (c :: rest) with
        | some rest => cons '\n' (multiline? quote fuel rest)
        | none => if isPlain c then cons c (multiline? quote fuel rest) else none

/-- A string whose characters all stand for themselves, its opening quote off. -/
def verbatim? (cs : List Char) : Option (List Char × List Char) :=
  match cs.span fun c => isPlain c && c != '\'' with
  | (s, '\'' :: rest) => some (s, rest)
  | _ => none

/-- A line end right after the opening quotes does not count. -/
def afterOpening (cs : List Char) : List Char := (newline? cs).getD cs

def string? (cs : List Char) : Option (String × List Char) :=
  let r := match cs with
    | '"' :: '"' :: '"' :: rest => multiline? '"' (rest.length + 1) (afterOpening rest)
    | '\'' :: '\'' :: '\'' :: rest => multiline? '\'' (rest.length + 1) (afterOpening rest)
    | '"' :: rest => basic? (rest.length + 1) rest
    | '\'' :: rest => verbatim? rest
    | _ => none
  r.map fun (s, rest) => (String.ofList s, rest)

/-! ### Keys -/

def isKeyChar (c : Char) : Bool := c.isAlphanum || c == '_' || c == '-'

def simpleKey? (cs : List Char) : Option (String × List Char) :=
  match cs with
  | '"' :: rest => (basic? (rest.length + 1) rest).map fun (s, rest) => (String.ofList s, rest)
  | '\'' :: rest => (verbatim? rest).map fun (s, rest) => (String.ofList s, rest)
  | cs =>
    match cs.span isKeyChar with
    | ([], _) => none
    | (name, rest) => some (String.ofList name, rest)

/-- Names with dots between them, and the blanks after the last. -/
def key? : (fuel : Nat) → List Char → Option (List String × List Char)
  | 0, _ => none
  | fuel + 1, cs => do
    let (name, rest) ← simpleKey? (skipSpace cs)
    match skipSpace rest with
    | '.' :: rest =>
      let (names, rest) ← key? fuel rest
      return (name :: names, rest)
    | rest => return ([name], rest)

end BucketQuery.Toml
