import PadScript.Pad.Input

/-!
# Reports of what is held

`PadState.joystick` is the report of a plain joystick, 8 bytes:

| Byte | Content |
|------|---------|
| 0 | Y B A X L R ZL ZR, from bit 0 on |
| 1 | minus, plus, left click, right click, home, capture |
| 2 | the hat switch |
| 3-6 | the sticks, 128 in the middle |
| 7 | always 0 |

`PadState.proBlock` is the part of a report of the other pad that says what is held, 11 bytes:

| Byte | Content |
|------|---------|
| 0 | connection and battery |
| 1 | Y X B A, R ZR in the two highest bits |
| 2 | minus, plus, right click, left click, home, capture |
| 3 | down, up, right, left, L ZL in the two highest bits |
| 4-6, 7-9 | the sticks, two numbers of 12 bits each |
| 10 | always 0 |
-/

namespace PadScript

/-- The byte of an offset on a plain joystick. -/
def joystickAxis (v : Int8) : UInt8 := .ofNat (v.toInt + 128).toNat

/-- The report of a plain joystick. -/
def PadState.joystick (s : PadState) : List UInt8 := [
  s.buttons.raw.toUInt8,
  (s.buttons.raw >>> 8).toUInt8 &&& 0x3F,
  s.dpad.hat,
  joystickAxis s.leftStick.x,
  joystickAxis s.leftStick.y,
  joystickAxis s.rightStick.x,
  joystickAxis s.rightStick.y,
  0]

namespace ProBlock

/-- Battery full, powered by the host. -/
def connection : UInt8 := 0x91

/-- The bits of the buttons on the right. -/
def rightBits : List (Buttons × UInt8) :=
  [(.y, 0x01), (.x, 0x02), (.b, 0x04), (.a, 0x08), (.r, 0x40), (.zr, 0x80)]

/-- The bits of the buttons in the middle. -/
def sharedBits : List (Buttons × UInt8) :=
  [(.minus, 0x01), (.plus, 0x02), (.rightClick, 0x04), (.leftClick, 0x08), (.home, 0x10),
    (.capture, 0x20)]

/-- The bits of the buttons on the left. -/
def leftBits : List (Buttons × UInt8) := [(.l, 0x40), (.zl, 0x80)]

/-- The bits of those buttons of a table that are held. -/
def byteOf (s : Buttons) (table : List (Buttons × UInt8)) : UInt8 :=
  table.foldl (fun byte (button, bit) => if s.contains button then byte ||| bit else byte) 0

/-- The bits of the directions that are left when opposite ones cancel. -/
def dpadBits (d : Dpad) : UInt8 :=
  let (v, h) := d.axes
  (if 0 < v then 0x01 else if v < 0 then 0x02 else 0) |||
    (if 0 < h then 0x04 else if h < 0 then 0x08 else 0)

/-- The middle of an axis of 12 bits. -/
def stickCenter : Int := 2048

/-- The end of an axis of 12 bits. -/
def stickMax : Int := 4095

/-- The number of 12 bits for an offset. -/
def scale (v : Int) : UInt16 := .ofNat (max 0 (min stickMax (stickCenter + 16 * v))).toNat

/-- The numbers of a stick; here `y` grows upwards. -/
def stickValues (s : Stick) : UInt16 × UInt16 := (scale s.x.toInt, scale (-s.y.toInt))

/-- Two numbers of 12 bits in three bytes, the lowest bits first. -/
def packPair (x y : UInt16) : List UInt8 :=
  let shared := (x >>> 8 &&& (0x0F : UInt16)) ||| (y &&& (0x0F : UInt16)) <<< 4
  [x.toUInt8, shared.toUInt8, (y >>> 4).toUInt8]

/-- A stick in three bytes. -/
def stickBytes (s : Stick) : List UInt8 := packPair (stickValues s).1 (stickValues s).2

end ProBlock

open ProBlock in
/-- The part of a report that says what is held. -/
def PadState.proBlock (s : PadState) : List UInt8 :=
  [connection, byteOf s.buttons rightBits, byteOf s.buttons sharedBits,
    byteOf s.buttons leftBits ||| dpadBits s.dpad] ++
    stickBytes s.leftStick ++ stickBytes s.rightStick ++ [0]

end PadScript
