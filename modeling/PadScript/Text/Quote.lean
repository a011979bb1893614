import PadScript.Text.Shapeless

/-!
# Texts between quotes

`Text.quoted` writes a text between quotes so that every character can be seen: quotes, backslashes
and line ends behind a backslash, and characters that have no shape of their own by their number.
-/

namespace PadScript.Text

/-- A character as it stands between quotes. -/
def escape (c : Char) : Text :=
  if c = '"' ∨ c = '\\' then ['\\', c]
  else if c = '\t' then "\\t".toList
  else if c = '\n' then "\\n".toList
  else if c = '\r' then "\\r".toList
  else if c.toNat = 0 then "\\0".toList
  else if isShapeless c then "\\u\x7b".toList ++ Nat.toDigits 16 c.toNat ++ ['\x7d']
  else [c]

/-- The text between quotes. -/
def quoted (t : Text) : Text := '"' :: t.flatMap escape ++ ['"']

end PadScript.Text
