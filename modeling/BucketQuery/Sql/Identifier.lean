/-!
Identifiers, the only names that reach the text of a statement: ASCII letters, digits, underscores
and dots, at least one of them. Quoted names are not identifiers. -/
namespace BucketQuery.Sql

def isIdentifierChar (c : Char) : Bool := c.isAlphanum || c == '_' || c == '.'

def isIdentifier (name : String) : Bool :=
  !name.toList.isEmpty && name.toList.all isIdentifierChar

end BucketQuery.Sql
