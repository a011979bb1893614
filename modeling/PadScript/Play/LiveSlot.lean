import PadScript.Text.Basic

/-!
# The live line

A `LiveSlot` holds the line that is shown at the moment, and whether realtime mode is on. In
realtime mode a line that is not set again in time decays to `idleLine`, once. A change of the line
is told once, by `LiveSlot.takeChange`; `LiveSlot.look` only reads the line.
-/

namespace PadScript

/-- The line and the state of realtime mode. -/
structure LiveSlot where
  /-- The line that was set last. -/
  line : Text
  /-- When it was set. -/
  setAt : Option Nat
  /-- Realtime mode is on. -/
  active : Bool
  /-- The line shown has changed, and nobody has been told yet. -/
  dirty : Bool
  /-- The line has decayed. -/
  decayed : Bool
  /-- Realtime mode was begun, and nobody has been told yet. -/
  started : Bool
deriving DecidableEq, Repr

namespace LiveSlot

/-- The line that is shown when a line has decayed; it holds nothing. -/
def idleLine : Text := "clear".toList

/-- The slot in the beginning. -/
def fresh : LiveSlot := ⟨[], none, false, false, false, false⟩

/-- Begins realtime mode, with nothing held. -/
def start (now : Nat) (_ : LiveSlot) : LiveSlot := ⟨[], some now, true, true, false, true⟩

/-- Ends realtime mode. -/
def stop (s : LiveSlot) : LiveSlot := { s with active := false }

/-- Sets the line. -/
def set (line : Text) (now : Nat) (s : LiveSlot) : LiveSlot :=
  let line := Text.trim line
  { s with
    line := line
    setAt := some now
    dirty := s.dirty || s.decayed || s.line != line
    decayed := false }

/-- The line has been set too long ago. -/
def isStale (now idle : Nat) (s : LiveSlot) : Bool :=
  match s.setAt with
  | some t => idle < now - t
  | none => false

/-- Lets the line decay if it is time. -/
def decay (now idle : Nat) (s : LiveSlot) : LiveSlot :=
  if s.active && !s.decayed && s.isStale now idle then { s with decayed := true, dirty := true }
  else s

/-- The line that is shown. -/
def shown (s : LiveSlot) : Text := if s.decayed then idleLine else s.line

/-- The line that is shown, if it has changed since this was last asked. -/
def takeChange (now idle : Nat) (s : LiveSlot) : Option Text × LiveSlot :=
  let s := s.decay now idle
  if s.dirty then (some s.shown, { s with dirty := false }) else (none, s)

/-- The line that is shown. -/
def look (now idle : Nat) (s : LiveSlot) : Text × LiveSlot :=
  let s := s.decay now idle
  (s.shown, s)

/-- Whether realtime mode was begun since this was last asked. -/
def takeStarted (s : LiveSlot) : Bool × LiveSlot := (s.started, { s with started := false })

end LiveSlot

end PadScript
