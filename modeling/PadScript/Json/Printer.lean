import PadScript.Json.Basic
import PadScript.Number.Shortest

/-!
# Writing JSON texts

`Json.compact` writes a value without white space. Only the quote, the backslash and the control
characters are escaped in strings, and doubles show that they are doubles.
-/

namespace PadScript.Json

/-- A digit of the base sixteen. -/
def hexDigit (n : Nat) : Char := Nat.digitChar n

/-- A character inside a string. -/
def escapeChar (c : Char) : Text :=
  match c with
  | '"' => "\\\"".toList
  | '\\' => "\\\\".toList
  | '\n' => "\\n".toList
  | '\r' => "\\r".toList
  | '\t' => "\\t".toList
  | '\x08' => "\\b".toList
  | '\x0c' => "\\f".toList
  | c =>
    if c.toNat < 0x20 then "\\u00".toList ++ [hexDigit (c.toNat / 16), hexDigit (c.toNat % 16)]
    else [c]

/-- A string between quotes. -/
def quote (t : Text) : Text := '"' :: t.flatMap escapeChar ++ ['"']

/-- A number. -/
def Number.text : Number → Text
  | .int n => Number.intText n
  | .float x => Number.scientific x

mutual

/-- A value without white space. -/
def compact : Json → Text
  | .null => "null".toList
  | .bool b => (if b then "true" else "false").toList
  | .number n => n.text
  | .str t => quote t
  | .arr items => '[' :: compactItems items ++ [']']
  | .obj members => '\x7b' :: compactMembers members ++ ['\x7d']

/-- The items of an array, with commas between them. -/
def compactItems : List Json → Text
  | [] => []
  | [v] => compact v
  | v :: w :: rest => compact v ++ ',' :: compactItems (w :: rest)

/-- The members of an object, with commas between them. -/
def compactMembers : List (Text × Json) → Text
  | [] => []
  | [(name, v)] => quote name ++ ':' :: compact v
  | (name, v) :: m :: rest => quote name ++ ':' :: compact v ++ ',' :: compactMembers (m :: rest)

end

end PadScript.Json
