import PadScript.Script.Statement
import PadScript.Json.Printer

/-!
# Parameters of a run

`Params` are the values a script reads while it runs: the defaults it declares, with the caller's
overrides laid over them, and whatever its `EXEC>` rows bind. Faults are swallowed: a condition that
has no value is false, and a count that has none is the given default.
-/

namespace PadScript

/-- Overrides as a command carries them. -/
abbrev Overrides := Members Json

/-- The parameters of one run. -/
structure Params where
  /-- What is bound now. -/
  bindings : Bindings

namespace Params

/-- The value that an override stands for: `null` is none, a string is read like plain text, and
arrays and objects are kept as their JSON text. -/
def ofOverride? : Json → Option Value
  | .null => none
  | .bool b => some (.bool b)
  | .number n => some (.number n.toFloat)
  | .str t => some (.ofLiteral t)
  | .arr items => some (.str (Json.arr items).compact)
  | .obj members => some (.str (Json.obj members).compact)

/-- The value is the empty text, which leaves a default in place. -/
def isEmptyText : Value → Bool
  | .str [] => true
  | _ => false

/-- Lays values over defaults, in order. -/
def overlay (defaults : Bindings) (values : List (Text × Value)) : Params where
  bindings :=
    values.foldl (fun b (name, v) => if isEmptyText v then b else b.insert name v) defaults

/-- Lays the overrides of a command over defaults. -/
def ofOverrides (defaults : Bindings) (overrides : Overrides) : Params :=
  overlay defaults (overrides.filterMap fun (name, v) => (ofOverride? v).map (name, ·))

/-- The value of a condition. -/
def holds (p : Params) (source : Text) : Bool :=
  match evaluate source p.bindings with
  | .ok v => v.truth
  | .error _ => false

/-- A double rounded to the nearest 64-bit number, halves away from zero. -/
def round (x : Float) : Int :=
  let whole := Number.truncateInt64 x
  let fraction := x - .ofInt whole
  if 0.5 ≤ fraction then min (whole + 1) Int64.maxValue.toInt
  else if fraction ≤ -0.5 then max (whole - 1) Int64.minValue.toInt
  else whole

/-- The value as a number; a text counts as the numeral it spells. -/
def countOf? : Value → Option Float
  | .str t => Number.readFloat? t
  | v => v.number?

/-- The value of a count, or the default where there is none. -/
def countOr (p : Params) (source : Text) (default : Int) : Int :=
  match evaluate source p.bindings with
  | .error _ => default
  | .ok v =>
    match countOf? v with
    | none => default
    | some x => if x.isFinite then round x else default

/-- The value of a count, or zero. -/
def count (p : Params) (source : Text) : Int := p.countOr source 0

/-- Runs statements; a fault ends them. -/
def exec (p : Params) (source : Text) : Params := ⟨(execute source p.bindings).1⟩

/-- The value bound to a name. -/
def get? (p : Params) (name : Text) : Option Value := p.bindings[name]?

end Params

end PadScript
