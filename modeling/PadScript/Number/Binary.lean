/-!
# Binary numbers taken apart

A finite double is a whole number times a power of two, up to its sign. `Dyadic` is such a number
and `parts` takes a double apart into one, so that truncation (`truncate`), the remainder of a
division (`remainder`) and the choice of digits work on whole numbers and are exact.
-/

namespace PadScript.Number

/-- The number `mantissa · 2 ^ exponent`, or its negative. -/
structure Dyadic where
  /-- The number is below zero, or is the zero below zero. -/
  negative : Bool
  /-- The whole factor. -/
  mantissa : Nat
  /-- The power of two. -/
  exponent : Int
deriving DecidableEq, Repr

/-- What a double stands for. -/
inductive Parts where
  /-- No number. -/
  | nan
  /-- An infinity. -/
  | infinite (negative : Bool)
  /-- A number. -/
  | finite (value : Dyadic)
deriving DecidableEq, Repr

/-- The exponent of the smallest doubles. -/
def leastExponent : Int := -1074

/-- The parts of a double: the sign bit, eleven bits of exponent and 52 bits of fraction. -/
def parts (x : Float) : Parts :=
  let bits := x.toBits.toNat
  let negative := decide (1 <<< 63 ≤ bits)
  let biased : Nat := (bits >>> 52) % 2048
  let fraction : Nat := bits % (1 <<< 52)
  if biased = 2047 then
    if fraction = 0 then .infinite negative else .nan
  else if biased = 0 then .finite ⟨negative, fraction, leastExponent⟩
  else .finite ⟨negative, (1 <<< 52) + fraction, leastExponent + biased - 1⟩

/-- The whole number next to a dyadic number on the side of zero. -/
def Dyadic.truncate (d : Dyadic) : Int :=
  let magnitude :=
    if 0 ≤ d.exponent then d.mantissa <<< d.exponent.toNat
    else d.mantissa >>> (-d.exponent).toNat
  if d.negative then -magnitude else magnitude

/-- A double cut off to a whole number within bounds. What lies outside goes to the nearer bound,
and what is no number goes to zero. -/
def truncate (least greatest : Int) (x : Float) : Int :=
  match parts x with
  | .nan => 0
  | .infinite true => least
  | .infinite false => greatest
  | .finite d => max least (min greatest d.truncate)

/-- A double cut off to a signed 64-bit number. -/
def truncateInt64 (x : Float) : Int := 
  truncate Int64.minValue.toInt Int64.maxValue.toInt x

/-- A double cut off to an unsigned 64-bit number. -/
def truncateUInt64 (x : Float) : Nat := (truncate 0 (UInt64.size - 1) x).toNat

/-- The double nearest to `mantissa · 2 ^ exponent`. -/
def Dyadic.toFloat (d : Dyadic) : Float :=
  let sign : Float.Model.UnpackedFloat.Sign := if d.negative then .negative else .positive
  .ofModel (.pack (.round .binary64 sign d.mantissa d.exponent))

/-- The remainder of the division cut off toward zero. It is exact, has the sign of `x` and is less
than `y` in magnitude. -/
def remainder (x y : Float) : Float :=
  match parts x, parts y with
  | .finite a, .finite b =>
    if b.mantissa = 0 then 0.0 / 0.0
    else
      let exponent := min a.exponent b.exponent
      let m := a.mantissa <<< (a.exponent - exponent).toNat
      let n := b.mantissa <<< (b.exponent - exponent).toNat
      Dyadic.toFloat ⟨a.negative, m % n, exponent⟩
  | .finite _, .infinite _ => x
  | _, _ => 0.0 / 0.0

end PadScript.Number
