import PadScript.Text.Basic

/-!
# JSON values

`Json` is a value as it is kept after reading. The members of an object are sorted by name and each
name occurs once; `Members.insert` keeps it so, and a name written again takes the later value.
-/

namespace PadScript

/-- A number of a JSON text. -/
inductive Json.Number where
  /-- A whole number that fits 64 bits, with or without a sign. -/
  | int (n : Int)
  /-- Any other number, as the double it is read as. -/
  | float (x : Float)

/-- A JSON value. -/
inductive Json where
  /-- The value `null`. -/
  | null
  /-- A truth value. -/
  | bool (b : Bool)
  /-- A number. -/
  | number (n : Json.Number)
  /-- A string. -/
  | str (t : Text)
  /-- An array. -/
  | arr (items : List Json)
  /-- An object, its members sorted by name. -/
  | obj (members : List (Text × Json))

/-- The double nearest to a number. -/
def Json.Number.toFloat : Json.Number → Float
  | .int n => .ofInt n
  | .float x => x

/-- Named values, sorted by name. -/
abbrev Members (α : Type) := List (Text × α)

namespace Members

variable {α : Type}

/-- Adds a value under a name, in place of one that is there already. -/
def insert (name : Text) (value : α) : Members α → Members α
  | [] => [(name, value)]
  | (n, v) :: rest =>
    match compare name n with
    | .lt => (name, value) :: (n, v) :: rest
    | .eq => (name, value) :: rest
    | .gt => (n, v) :: insert name value rest

/-- The value under a name. -/
def get? (name : Text) : Members α → Option α
  | [] => none
  | (n, v) :: rest => if n = name then some v else get? name rest

/-- The members of a list of names and values; a later value replaces an earlier one. -/
def ofList (members : List (Text × α)) : Members α :=
  members.foldl (fun m (name, value) => m.insert name value) []

end Members

end PadScript
