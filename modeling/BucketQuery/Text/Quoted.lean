import BucketQuery.Text.Hidden

/-!
Quoted text, as messages show it: between double quotes, with a backslash before quotes and
backslashes, short escapes for the common controls, and any other hidden character by its number in
hexadecimal. What is left between the quotes is one visible line. -/
namespace BucketQuery.Text.Quoted

def hexDigits (n : Nat) : List Char := Nat.toDigits 16 n

def escape (c : Char) : List Char :=
  match c with
  | '"' => ['\\', '"']
  | '\\' => ['\\', '\\']
  | '\n' => ['\\', 'n']
  | '\r' => ['\\', 'r']
  | '\t' => ['\\', 't']
  | '\x00' => ['\\', '0']
  | c => if isHidden c then ['\\', 'u', '{'] ++ hexDigits c.toNat ++ ['}'] else [c]

end BucketQuery.Text.Quoted

namespace BucketQuery.Text

def quoted (s : String) : String :=
  String.ofList ('"' :: (s.toList.flatMap Quoted.escape ++ ['"']))

end BucketQuery.Text
