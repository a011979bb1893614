import PadScript.Script.Library

/-!
# Positions of a run

A `Position` is a place in a track together with how often the track is still to be played, and the
`Frame`s of the tracks that were left by a jump. `Position.jump` enters a track. A track that is open
is not entered again, and a label that leads nowhere is passed over. `Position.advance` goes to the
next row; at the end of a track it begins the track again or returns behind the jump.
-/

namespace PadScript

/-- Where to go on when a track has been left. -/
structure Frame where
  /-- The position behind the jump. -/
  returnTo : Place
  /-- How often the track of that position is still to be played, this time included. -/
  loopRemaining : Nat
  /-- The label that was jumped to. -/
  entered : Text
deriving DecidableEq, Repr

/-- A position of a run. -/
structure Position where
  /-- The current row. -/
  current : Place
  /-- How often the current track is still to be played, this time included. -/
  loopRemaining : Nat
  /-- The frames, the innermost first. -/
  frames : List Frame
deriving DecidableEq, Repr

namespace Position

/-- The start of a track. -/
def atHead (head : Place) : Position := ⟨head, 1, []⟩

/-- The position that follows when the end of a track may have been reached: the start of the same
track while it is to be played again, and else the position that the innermost frame returns to. -/
def leave : Place → Nat → List Frame → Position
  | current, loopRemaining, frames =>
    if !current.isFinished then ⟨current, loopRemaining, frames⟩
    else if 1 < loopRemaining then ⟨current.head, loopRemaining - 1, frames⟩
    else
      match frames with
      | [] => ⟨current, loopRemaining, []⟩
      | f :: rest => leave f.returnTo f.loopRemaining rest
termination_by structural _ _ frames => frames

/-- The position behind the current row. -/
def advance (p : Position) : Position := leave p.current.next p.loopRemaining p.frames

/-- The track of a label is open. -/
def hasOpen (p : Position) (label : Text) : Bool := p.frames.any (·.entered = label)

/-- The start of a track that is to be played some number of times. -/
def enter (p : Position) (label : Text) (t : Track) (times : Nat) : Position where
  current := t.headOf (.stored label)
  loopRemaining := times
  frames := ⟨p.current.next, p.loopRemaining, label⟩ :: p.frames

/-- The most often that a jump can play a track. -/
def mostTimes : Nat := UInt32.size - 1

theorem mostTimes_pos : 0 < mostTimes := by decide

/-- The position that a jump leads to. -/
def jump (library : Library) (p : Position) (label : Text) (times : Int) : Position :=
  match library.track? label with
  | some t =>
    if !t.isEmpty && 1 ≤ times && !p.hasOpen label then
      p.enter label t (min times.toNat mostTimes)
    else p.advance
  | none => p.advance

end Position

end PadScript
