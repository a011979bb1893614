import PadScript.Json.Basic

/-!
# Reading JSON texts

A `Reader` takes characters from the front of a `Source`, which counts the rows it has passed, and
stops at the first fault. A fault of the grammar carries its row at once. A fault of the meaning (a
member of the wrong kind, a member given twice) is first `unplaced`; the reader of the enclosing
value places it at the row it has reached by then (`Reader.place`).
-/

namespace PadScript.Json

/-- What is left of a text, and the row reached. -/
structure Source where
  /-- The characters not yet taken. -/
  rest : Text
  /-- The row of the next character, counted from one. -/
  row : Nat

/-- Why a text was refused. -/
inductive Fault where
  /-- A fault that knows its row. -/
  | at (row : Nat)
  /-- A fault of the meaning, not yet placed. -/
  | unplaced
deriving DecidableEq, Repr

/-- A reader of the front of a text. The source it leaves behind counts after a fault as well. -/
abbrev Reader := ExceptT Fault (StateM Source)

namespace Source

/-- The source after its first character. -/
def next (s : Source) : Source :=
  match s.rest with
  | [] => s
  | c :: rest => ⟨rest, if c = '\n' then s.row + 1 else s.row⟩

/-- The row after the next character. -/
def nextRow (s : Source) : Nat := s.next.row

/-- The source without the white space at its front. -/
def skipSpace (s : Source) : Source :=
  let space := s.rest.takeWhile fun c => c = ' ' ∨ c = '\n' ∨ c = '\t' ∨ c = '\r'
  ⟨s.rest.drop space.length, s.row + space.count '\n'⟩

/-- The source after the characters that begin within the first `bytes` bytes. -/
def skipBytes (bytes : Nat) (s : Source) : Source :=
  go bytes s.row s.rest
where
  /-- Goes over the characters, counting rows. -/
  go (bytes row : Nat) : Text → Source
    | [] => ⟨[], row⟩
    | c :: rest =>
      if bytes = 0 then ⟨c :: rest, row⟩
      else go (bytes - c.utf8Size) (if c = '\n' then row + 1 else row) rest

/-- The length of the rest in bytes. -/
def byteSize (s : Source) : Nat := s.rest.foldr (fun c n => c.utf8Size + n) 0

end Source

namespace Reader

/-- The next character, left in place. -/
def peek : Reader (Option Char) := return (← get).rest.head?

/-- Takes the next character. -/
def skip : Reader Unit := modify Source.next

/-- Takes and gives the next character. -/
def next : Reader (Option Char) := do
  let c ← peek
  skip
  return c

/-- Refuses the text at the row reached. -/
def failHere {α : Type} : Reader α := do throw (.at (← get).row)

/-- Refuses the text because of the next character. -/
def failNext {α : Type} : Reader α := do throw (.at (← get).nextRow)

/-- Refuses the text for what it means. -/
def failUnplaced {α : Type} : Reader α := throw .unplaced

/-- Passes over white space and gives the character after it. -/
def peekPastSpace : Reader (Option Char) := do
  modify Source.skipSpace
  peek

/-- Places an unplaced fault of `r` at the row reached. -/
def place {α : Type} (r : Reader α) : Reader α :=
  tryCatch r fun
    | .at row => throw (.at row)
    | .unplaced => failHere

/-- Runs `r` and then `close`, also after a fault of `r`, which is the one that is reported. -/
def closing {α : Type} (r : Reader α) (close : Reader Unit) : Reader α := fun s =>
  match r s with
  | (.ok a, s) =>
    match close s with
    | (.ok (), s) => (.ok a, s)
    | (.error e, s) => (.error e, s)
  | (.error e, s) => (.error e, (close s).2)

/-- One more than the characters left: a bound for every loop that takes some in each round. -/
def fuel : Reader Nat := return (← get).rest.length + 1

/-- Takes the letters of a word. -/
def word : Text → Reader Unit
  | [] => return
  | c :: letters => do
    match ← next with
    | none => failHere
    | some d => if c = d then word letters else failHere

/-- Runs `r` on a whole text. -/
def run {α : Type} (r : Reader α) (t : Text) : Except Fault α :=
  let whole : Reader α := do
    let a ← r
    match ← peekPastSpace with
    | some _ => failNext
    | none => return a
  match whole ⟨t, 1⟩ with
  | (result, _) => result

end Reader

end PadScript.Json
