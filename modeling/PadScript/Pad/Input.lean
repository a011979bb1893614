/-!
# What is held on a pad

`PadState` is everything that can be held at one time: `Buttons`, the directions of the cross
(`Dpad`) and two sticks. `Dpad.axes` resolves directions that are held against each other.
-/

namespace PadScript

/-- A set of buttons, one bit each. The low byte and the high byte are those of the report of a
plain joystick. -/
structure Buttons where
  /-- The bits. -/
  raw : UInt16
deriving DecidableEq, Repr

namespace Buttons

/-- The set with only the button of a bit. -/
def bit (n : UInt16) : Buttons := ⟨1 <<< n⟩

/-- The button Y. -/
def y : Buttons := bit 0

/-- The button B. -/
def b : Buttons := bit 1

/-- The button A. -/
def a : Buttons := bit 2

/-- The button X. -/
def x : Buttons := bit 3

/-- The left shoulder. -/
def l : Buttons := bit 4

/-- The right shoulder. -/
def r : Buttons := bit 5

/-- The left trigger. -/
def zl : Buttons := bit 6

/-- The right trigger. -/
def zr : Buttons := bit 7

/-- The button minus. -/
def minus : Buttons := bit 8

/-- The button plus. -/
def plus : Buttons := bit 9

/-- The left stick, pressed. -/
def leftClick : Buttons := bit 10

/-- The right stick, pressed. -/
def rightClick : Buttons := bit 11

/-- The home button. -/
def home : Buttons := bit 12

/-- The capture button. -/
def capture : Buttons := bit 13

/-- No button. -/
def none : Buttons := ⟨0⟩

/-- The buttons of either set. -/
def union (s t : Buttons) : Buttons := ⟨s.raw ||| t.raw⟩

/-- The buttons of both sets. -/
def inter (s t : Buttons) : Buttons := ⟨s.raw &&& t.raw⟩

/-- The buttons that are not in the set. -/
def complement (s : Buttons) : Buttons := ⟨~~~s.raw⟩

/-- All buttons of `t` are in `s`. -/
def contains (s t : Buttons) : Bool := s.raw &&& t.raw == t.raw

/-- Presses or releases buttons. -/
def set (s t : Buttons) (pressed : Bool) : Buttons :=
  if pressed then s.union t else s.inter t.complement

/-- There is no button in the set. -/
def isEmpty (s : Buttons) : Bool := s.raw == 0

end Buttons

/-- A set of directions, one bit each. -/
structure Dpad where
  /-- The bits. -/
  raw : UInt8
deriving DecidableEq, Repr

namespace Dpad

/-- The direction up. -/
def up : Dpad := ⟨1⟩

/-- The direction down. -/
def down : Dpad := ⟨2⟩

/-- The direction left. -/
def left : Dpad := ⟨4⟩

/-- The direction right. -/
def right : Dpad := ⟨8⟩

/-- No direction. -/
def center : Dpad := ⟨0⟩

/-- The directions of either set. -/
def union (s t : Dpad) : Dpad := ⟨s.raw ||| t.raw⟩

/-- All directions of `t` are in `s`. -/
def contains (s t : Dpad) : Bool := s.raw &&& t.raw == t.raw

/-- The direction that is left on each axis when opposite ones cancel: first down (1) or up (-1),
then right (1) or left (-1). -/
def axes (s : Dpad) : Int × Int :=
  let one (t : Dpad) : Int := if s.contains t then 1 else 0
  (one down - one up, one right - one left)

/-- The position of a hat switch: 0 is up, and so on clockwise; 8 is the middle. -/
def hat (s : Dpad) : UInt8 :=
  match s.axes with
  | (-1, 0) => 0
  | (-1, 1) => 1
  | (0, 1) => 2
  | (1, 1) => 3
  | (1, 0) => 4
  | (1, -1) => 5
  | (0, -1) => 6
  | (-1, -1) => 7
  | _ => 8

end Dpad

/-- How far a stick is off its middle; `y` grows downwards. -/
structure Stick where
  /-- To the right. -/
  x : Int8
  /-- Downwards. -/
  y : Int8
deriving DecidableEq, Repr

/-- The stick in its middle. -/
def Stick.neutral : Stick := ⟨0, 0⟩

/-- What is held on a pad. -/
structure PadState where
  /-- The buttons. -/
  buttons : Buttons
  /-- The directions. -/
  dpad : Dpad
  /-- The left stick. -/
  leftStick : Stick
  /-- The right stick. -/
  rightStick : Stick
deriving DecidableEq, Repr

namespace PadState

/-- Nothing is held. -/
def neutral : PadState := ⟨.none, .center, .neutral, .neutral⟩

/-- Nothing is held. -/
def isNeutral (s : PadState) : Bool := s == neutral

end PadState

end PadScript
