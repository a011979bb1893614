import PadScript.Script.Cursor.Potential

/-!
# The lines that a cursor gives

`Cursor.nextLine` steps until a row is an action line; `Cursor.drain` takes one action line after
another.
-/

namespace PadScript

namespace Cursor

/-- The next action line, if there is one. -/
def nextLine (c : Cursor) : Option Text × Cursor :=
  match _h : c.step with
  | (.finished, next) => (none, next)
  | (.silent, next) => nextLine next
  | (.emit line, next) => (some line, next)
termination_by c.potential
decreasing_by
  have := potential_step_lt (c := c)
  simp_all

/-- The action lines of at most `limit` calls of `nextLine`. -/
def drain : (limit : Nat) → Cursor → List Text × Cursor
  | 0, c => ([], c)
  | limit + 1, c =>
    match c.nextLine with
    | (none, c) => ([], c)
    | (some line, c) =>
      let (lines, c) := drain limit c
      (line :: lines, c)

variable {c d : Cursor} {line : Text}

theorem nextLine_of_finished (h : c.step = (.finished, d)) : c.nextLine = (none, d) := by
  rw [nextLine]
  split <;> simp_all

theorem drain_of_none (h : c.nextLine = (none, d)) (limit : Nat) :
    c.drain (limit + 1) = ([], d) := by
  simp [drain, h]

theorem drain_of_some (h : c.nextLine = (some line, d)) (limit : Nat) :
    c.drain (limit + 1) = (line :: (d.drain limit).1, (d.drain limit).2) := by
  simp [drain, h]

end Cursor

end PadScript
