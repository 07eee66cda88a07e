import BucketQuery.Text.WordChar

/-!
What condition text may not contain: the keywords of statements, as whole words, and the marks of
comments. Words are compared letter by letter without regard to case, where the long s counts as an
s and the kelvin sign as a k. -/
namespace BucketQuery.Sql.Forbidden

def keywords : List String := [
  "DROP", "DELETE", "UPDATE", "INSERT", "ALTER", "CREATE", "TRUNCATE", "UNION", "EXEC", "EXECUTE",
  "TRANSACTION", "COMMIT", "ROLLBACK", "SAVEPOINT", "GRANT", "REVOKE"]

/-- The capital that a letter counts as. -/
def fold (c : Char) : Char :=
  if c == '\u017f' then 'S' else if c == '\u212a' then 'K' else c.toUpper

def isKeyword (word : List Char) : Bool :=
  keywords.contains (String.ofList (word.map fold))

def isCommentMark (c d : Char) : Bool :=
  c == '-' && d == '-' || c == '/' && d == '*' || c == '*' && d == '/'

/-- The forbidden token that starts first. `inWord` says whether the character before is part of a
word, so that only whole words are looked at. -/
def find (inWord : Bool) : List Char → Option (List Char)
  | [] => none
  | c :: rest =>
    let word := (c :: rest).takeWhile Text.isWordChar
    if !inWord && isKeyword word then some word
    else if isCommentMark c (rest.headD ' ') then some (c :: rest.take 1)
    else find (Text.isWordChar c) rest

end BucketQuery.Sql.Forbidden

namespace BucketQuery.Sql

/-- The first forbidden token of a text, as it stands there. -/
def forbidden? (text : String) : Option String :=
  (Forbidden.find false text.toList).map String.ofList

end BucketQuery.Sql
