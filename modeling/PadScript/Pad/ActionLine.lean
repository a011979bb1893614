import PadScript.Pad.Input
import PadScript.Number.Decimal
import PadScript.Number.Binary

/-!
# Action lines

An action line is a list of tokens between bars, in letters of either case:

```
A|ZR|UP|LSTICK@100,-50
```

A token is a button, a direction or a stick with its offsets. Pieces that are no tokens say nothing,
so an empty line is the neutral state. A direction that follows itself lets the cross go.
-/

namespace PadScript

/-- A token of an action line. -/
inductive PadToken where
  /-- A button. -/
  | button (b : Buttons)
  /-- A direction. -/
  | direction (d : Dpad)
  /-- The left stick. -/
  | leftStick (s : Stick)
  /-- The right stick. -/
  | rightStick (s : Stick)
deriving DecidableEq, Repr

namespace PadToken

/-- The tokens that are words. -/
def words : List (Text × PadToken) := [
  ("A".toList, .button .a),
  ("B".toList, .button .b),
  ("X".toList, .button .x),
  ("Y".toList, .button .y),
  ("L".toList, .button .l),
  ("R".toList, .button .r),
  ("ZL".toList, .button .zl),
  ("ZR".toList, .button .zr),
  ("PLUS".toList, .button .plus),
  ("START".toList, .button .plus),
  ("MINUS".toList, .button .minus),
  ("SELECT".toList, .button .minus),
  ("HOME".toList, .button .home),
  ("CAPTURE".toList, .button .capture),
  ("LCLICK".toList, .button .leftClick),
  ("LS".toList, .button .leftClick),
  ("RCLICK".toList, .button .rightClick),
  ("RS".toList, .button .rightClick),
  ("UP".toList, .direction .up),
  ("DOWN".toList, .direction .down),
  ("LEFT".toList, .direction .left),
  ("RIGHT".toList, .direction .right)]

/-- The offset that a numeral spells: cut off to a whole number, and to the reach of a stick. -/
def axis? (t : Text) : Option Int8 :=
  match Number.Numeral.read? (Text.trim t) with
  | some n =>
    let x := n.toFloat32
    if x.isFinite then some (.ofInt (Number.truncate (-128) 127 x.toFloat)) else none
  | none => none

/-- The offsets of a stick, between a comma. -/
def stick? (t : Text) : Option Stick :=
  match Text.cut? ',' t with
  | some (x, y) =>
    match axis? x, axis? y with
    | some x, some y => some ⟨x, y⟩
    | _, _ => none
  | none => none

/-- The token that a stick's name and its offsets spell. -/
def ofStick? (name : Text) (s : Stick) : Option PadToken :=
  if Text.eqIgnoreCase name "LSTICK".toList then some (.leftStick s)
  else if Text.eqIgnoreCase name "RSTICK".toList then some (.rightStick s)
  else none

/-- The token that a piece of a line spells. -/
def parse? (piece : Text) : Option PadToken :=
  let t := Text.trim piece
  match Text.cut? '@' t with
  | some (name, offsets) => (stick? offsets).bind (ofStick? name)
  | none => (words.find? fun w => Text.eqIgnoreCase w.1 t).map (·.2)

/-- The state after a token that follows the token or piece `previous`. -/
def apply (previous : Option PadToken) (s : PadState) : PadToken → PadState
  | .button b => { s with buttons := s.buttons.union b }
  | .direction d =>
    if previous = some (.direction d) then { s with dpad := .center }
    else { s with dpad := s.dpad.union d }
  | .leftStick stick => { s with leftStick := stick }
  | .rightStick stick => { s with rightStick := stick }

/-- The state after pieces that follow the token or piece `previous`; `none` is no token. -/
def applyAll (previous : Option PadToken) (s : PadState) : List (Option PadToken) → PadState
  | [] => s
  | none :: rest => applyAll none s rest
  | some t :: rest => applyAll (some t) (t.apply previous s) rest

end PadToken

/-- What an action line holds. -/
def PadState.ofLine (line : Text) : PadState :=
  PadToken.applyAll none .neutral ((Text.pieces '|' line).map PadToken.parse?)

end PadScript
