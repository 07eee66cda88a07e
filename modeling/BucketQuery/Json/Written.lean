import BucketQuery.Json.Value
import BucketQuery.Double.Written

/-!
JSON text in its compact form: no blank space, fields in the order the object has them. Only quotes,
backslashes and controls are escaped. A number without digits is written as null. -/
namespace BucketQuery.Json

def escape (c : Char) : List Char :=
  match c with
  | '"' => ['\\', '"']
  | '\\' => ['\\', '\\']
  | '\x08' => ['\\', 'b']
  | '\t' => ['\\', 't']
  | '\n' => ['\\', 'n']
  | '\x0c' => ['\\', 'f']
  | '\r' => ['\\', 'r']
  | c =>
    if c.toNat < 0x20 then
      ['\\', 'u', '0', '0', Nat.digitChar (c.toNat / 16), Nat.digitChar (c.toNat % 16)]
    else [c]

def stringText (s : String) : String := String.ofList ('"' :: (s.toList.flatMap escape ++ ['"']))

def Number.text : Number → String
  | .int n => toString n
  | .float x => x.jsonText?.getD "null"

mutual

def text : Json → String
  | .null => "null"
  | .bool true => "true"
  | .bool false => "false"
  | .number n => n.text
  | .string s => stringText s
  | .array items => "[" ++ itemsText items ++ "]"
  | .object fields => "\x7b" ++ fieldsText fields ++ "\x7d"

def itemsText : List Json → String
  | [] => ""
  | [v] => v.text
  | v :: rest => v.text ++ "," ++ itemsText rest

def fieldsText : List (String × Json) → String
  | [] => ""
  | [(n, v)] => stringText n ++ ":" ++ v.text
  | (n, v) :: rest => stringText n ++ ":" ++ v.text ++ "," ++ fieldsText rest

end

end BucketQuery.Json
