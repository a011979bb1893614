import PadScript.Script.Directive
import PadScript.Script.Position

/-!
# The cursor

A `Cursor` is a run of one macro: its position, its parameters, and the position that the next cycle
starts from. `Cursor.step` reads one row.
-/

namespace PadScript

/-- A run of one macro. -/
structure Cursor where
  /-- Where labels lead. -/
  library : Library
  /-- The start of the macro. -/
  head : Place
  /-- The parameters. -/
  params : Params
  /-- The position. -/
  position : Position
  /-- The position that the next cycle starts from. -/
  body : Position

/-- What a step of a cursor does. -/
inductive Move where
  /-- There is nothing left. -/
  | finished
  /-- A row that is not played. -/
  | silent
  /-- A row that is played. -/
  | emit (line : Text)
deriving DecidableEq, Repr

namespace Cursor

/-- A run of a track. -/
def ofTrack (library : Library) (owner : Owner) (t : Track) (params : Params) : Cursor where
  library := library
  head := t.headOf owner
  params := params
  position := .atHead (t.headOf owner)
  body := .atHead (t.headOf owner)

/-- A run of a macro, with overrides laid over its defaults. -/
def start? (library : Library) (name : Text) (overrides : Overrides) : Option Cursor :=
  (library.get? name).map fun script =>
    ofTrack library .root script.track (.ofOverrides script.defaults overrides)

/-- Nothing is left. -/
def isFinished (c : Cursor) : Bool := c.position.current.isFinished

/-- The number of open frames. -/
def depth (c : Cursor) : Nat := c.position.frames.length

/-- The reset for the next cycle: goes back to the position that was saved behind the last row
`body:`, or to the start of the macro if none was. The parameters stay. -/
def startCycle (c : Cursor) : Cursor := { c with position := c.body }

/-- The full reset: goes back to the start of the macro, with no frame open. The parameters stay,
and so does the position that the next cycle starts from. -/
def rewind (c : Cursor) : Cursor := { c with position := .atHead c.head }

/-- Runs statements on the parameters. -/
def exec (c : Cursor) (source : Text) : Cursor := { c with params := c.params.exec source }

/-- Goes behind a row that marks the start of a cycle. The end of the macro is no such start. -/
def markBody (c : Cursor) : Cursor :=
  let next := c.position.advance
  { c with position := next, body := if next.current.isFinished then c.body else next }

/-- Reads one row. -/
def step (c : Cursor) : Move × Cursor :=
  match c.position.current.action? with
  | none => (.finished, c)
  | some line =>
    match Directive.ofLine line with
    | .jump label suffix =>
      (.silent,
        { c with position := c.position.jump c.library label (Directive.times c.params suffix) })
    | .body => (.silent, c.markBody)
    | .exec source => (.silent, { c.exec source with position := c.position.advance })
    | .action line => (.emit line, { c with position := c.position.advance })

section Step

variable {c : Cursor} {line : Text}

theorem step_of_none (h : c.position.current.action? = none) : c.step = (.finished, c) := by
  rw [step, h]

theorem step_of_jump (h : c.position.current.action? = some line) {label suffix : Text}
    (hd : Directive.ofLine line = .jump label suffix) :
    c.step = (.silent,
      { c with
        position := c.position.jump c.library label (Directive.times c.params suffix) }) := by
  simp [step, h, hd]

theorem step_of_body (h : c.position.current.action? = some line)
    (hd : Directive.ofLine line = .body) : c.step = (.silent, c.markBody) := by
  simp [step, h, hd]

theorem step_of_exec (h : c.position.current.action? = some line) {source : Text}
    (hd : Directive.ofLine line = .exec source) :
    c.step = (.silent, { c.exec source with position := c.position.advance }) := by
  simp [step, h, hd]

theorem step_of_action (h : c.position.current.action? = some line) {given : Text}
    (hd : Directive.ofLine line = .action given) :
    c.step = (.emit given, { c with position := c.position.advance }) := by
  simp [step, h, hd]

end Step

end Cursor

end PadScript
