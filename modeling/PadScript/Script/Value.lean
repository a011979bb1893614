import Std.Data.TreeMap
import PadScript.Number.Decimal
import PadScript.Number.Shortest

/-!
# Values and bindings

A `Value` is what a parameter holds and an expression computes: a truth value, a double or a text.
`Value.ofLiteral` reads one from plain text, the way a default or an override is written, and
`Value.display` writes it. `Bindings` are the values bound to names.
-/

namespace PadScript

/-- A value of a parameter or an expression. -/
inductive Value where
  /-- A truth value. -/
  | bool (b : Bool)
  /-- A number. -/
  | number (x : Float)
  /-- A text. -/
  | str (t : Text)

/-- The values bound to names, sorted by name. -/
abbrev Bindings := Std.TreeMap Text Value

namespace Value

/-- The value that plain text stands for: `true` and `false` in letters of any case are truth
values, a numeral is a number, and all else is itself. -/
def ofLiteral (t : Text) : Value :=
  if Text.eqIgnoreCase t "true".toList then .bool true
  else if Text.eqIgnoreCase t "false".toList then .bool false
  else
    match Number.readFloat? t with
    | some x => .number x
    | none => .str t

/-- The value counts as true: all but `false`, zero and the empty text do. -/
def truth : Value → Bool
  | .bool b => b
  | .number x => x != 0.0
  | .str t => !t.isEmpty

/-- The value as a number, where truth values count as one and zero. -/
def number? : Value → Option Float
  | .bool b => some (if b then 1.0 else 0.0)
  | .number x => some x
  | .str _ => none

/-- The value as text. -/
def display : Value → Text
  | .bool b => (if b then "true" else "false").toList
  | .number x => Number.positional x
  | .str t => t

end Value

end PadScript
