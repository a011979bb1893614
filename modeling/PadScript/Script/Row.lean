import PadScript.Script.Value

/-!
# Rows of a script file

A script file is read row by row. `cleanRow?` drops comments and blanks, `qualify` puts the tag of
the file before a jump label that has no dot, and `marked?` and `declaration?` recognise the rows
that are no action lines. `scanBlock` reads a row inside a block between braces.
-/

namespace PadScript.Row

/-- A row without blanks; none if it is empty or a comment. -/
def clean? (row : Text) : Option Text :=
  let row := Text.trim row
  if row.isEmpty || "--".toList.isPrefixOf row || "#".toList.isPrefixOf row then none
  else some (row.filter fun c => c != ' ' && c != '\t')

/-- The label that a jump begins with, without its bracket. -/
def label (rest : Text) : Text := rest.takeWhile (· != ']')

/-- The row with the tag before its jump label, if it is a jump whose label has no dot. -/
def qualify (tag row : Text) : Text :=
  match row with
  | '[' :: rest => if (label rest).contains '.' then row else '[' :: tag ++ rest
  | row => row

/-- A row that does not begin with a bracket is left as it is. -/
theorem qualify_eq_self {row : Text} (h : row.head? ≠ some '[') (tag : Text) :
    qualify tag row = row := by
  unfold qualify
  split
  · simp at h
  · rfl

/-- The tag stands behind the first sign. -/
theorem head?_qualify (tag row : Text) : (qualify tag row).head? = row.head? := by
  unfold qualify
  split
  · split <;> rfl
  · rfl

/-- The text between the angle brackets of a marker row. -/
def marked? (row : Text) : Option Text :=
  match row with
  | '<' :: rest => Text.before? ['>'] rest
  | _ => none

/-- The word that declares a default. -/
def defaultWord : Text := "DEFAULT>".toList

/-- The text between two quotes. -/
def unquote? (quote : Char) (t : Text) : Option Text :=
  (Text.after? [quote] t).bind (Text.before? [quote])

/-- The value that a default declares: a text between quotes, and else what the text spells. -/
def declaredValue (t : Text) : Value :=
  match unquote? '\'' t, unquote? '"' t with
  | some s, _ => .str s
  | none, some s => .str s
  | none, none => .ofLiteral t

/-- The name and the value of a row that declares a default. -/
def declaration? (row : Text) : Option (Text × Value) :=
  match (Text.after? defaultWord row).bind (Text.cut? '=') with
  | some (key, value) => if key.isEmpty then none else some (key, declaredValue value)
  | none => none

/-- What a row adds to an open block. -/
structure Scan where
  /-- The part of the row inside the block. -/
  inner : Text
  /-- The number of braces left open inside the block. -/
  depth : Nat
  /-- The text behind the brace that closes the block, if it is closed. -/
  suffix? : Option Text
deriving DecidableEq, Repr

/-- Reads a row inside a block in which `depth` braces are open. -/
def scanBlock : (depth : Nat) → Text → Scan
  | depth, [] => ⟨[], depth, none⟩
  | 0, '}' :: rest => ⟨[], 0, some rest⟩
  | depth, c :: rest =>
    let s := scanBlock (if c = '}' then depth - 1 else if c = '{' then depth + 1 else depth) rest
    { s with inner := c :: s.inner }

/-- Nothing is read twice: what goes into the block and what stands behind it are in the row. -/
theorem length_scanBlock (depth : Nat) (row : Text) :
    (scanBlock depth row).inner.length ≤ row.length := by
  induction row generalizing depth with
  | nil => simp [scanBlock]
  | cons c rest ih =>
    unfold scanBlock
    split
    · simp
    · simp
    · simp_all

end PadScript.Row
