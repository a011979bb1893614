import PadScript.Text.Basic
import PadScript.Number.Binary

/-!
# Decimal numerals

A numeral is an optional sign followed by `inf`, `infinity` or `nan` in letters of any case, or by
digits with at most one point and an optional exponent; at least one digit stands before or after
the point. `Numeral.read?` reads one from a whole text, `Numeral.toFloat` and `Numeral.toFloat32`
give the nearest double and the nearest single, ties to even.
-/

namespace PadScript.Number

/-- A decimal numeral. -/
inductive Numeral where
  /-- No number. -/
  | nan
  /-- An infinity. -/
  | infinite (negative : Bool)
  /-- The number `digits · 10 ^ exponent`, or its negative. -/
  | finite (negative : Bool) (digits : Nat) (exponent : Int)
deriving DecidableEq, Repr

/-- The digits `0` to `9`. -/
def isDigit (c : Char) : Bool := '0' ≤ c && c ≤ '9'

/-- The value of a digit. -/
def digitValue (c : Char) : Nat := c.toNat - '0'.toNat

/-- The value of a run of digits. -/
def digitsValue (digits : Text) : Nat :=
  digits.foldl (fun n c => 10 * n + digitValue c) 0

/-- Splits a leading sign off; true for minus. -/
def splitSign : Text → Bool × Text
  | '-' :: rest => (true, rest)
  | '+' :: rest => (false, rest)
  | rest => (false, rest)

namespace Numeral

/-- An exponent takes in no further digit once it has reached this size. -/
def exponentLimit : Nat := 65536

/-- The value of the digits of an exponent. -/
def exponentValue (digits : Text) : Nat :=
  digits.foldl (fun n c => if n < exponentLimit then 10 * n + digitValue c else n) 0

/-- Reads what follows the digits of a numeral: nothing, or an exponent. -/
def readExponent? : Text → Option Int
  | [] => some 0
  | c :: rest =>
    if c = 'e' ∨ c = 'E' then
      let (negative, digits) := splitSign rest
      if digits.isEmpty || !digits.all isDigit then none
      else
        let value : Int := exponentValue digits
        some (if negative then -value else value)
    else none

/-- Reads a numeral without its sign. -/
def readUnsigned? (negative : Bool) (t : Text) : Option Numeral :=
  let word := t.map Char.toLower
  if word = "nan".toList then some .nan
  else if word = "inf".toList ∨ word = "infinity".toList then some (.infinite negative)
  else
    let whole := t.takeWhile isDigit
    let (fraction, rest) :=
      match t.dropWhile isDigit with
      | '.' :: rest => (rest.takeWhile isDigit, rest.dropWhile isDigit)
      | rest => ([], rest)
    let digits := whole ++ fraction
    if digits.isEmpty then none
    else
      (readExponent? rest).map fun exponent =>
        .finite negative (digitsValue digits) (exponent - fraction.length)

/-- The numeral that makes up the whole text. -/
def read? (t : Text) : Option Numeral :=
  let (negative, rest) := splitSign t
  readUnsigned? negative rest

/-- The decimal exponent from which on a numeral is an infinity of either width. -/
def greatestScale : Int := 400

/-- The number of decimal digits. -/
def digitCount (n : Nat) : Nat := (Nat.toDigits 10 n).length

/-- The double nearest to the number. -/
def toFloat : Numeral → Float
  | .nan => 0.0 / 0.0
  | .infinite negative => if negative then -1.0 / 0.0 else 1.0 / 0.0
  | .finite negative digits exponent =>
    let scale := digitCount digits + exponent
    let magnitude : Float :=
      if digits = 0 ∨ scale < -greatestScale then 0.0
      else if greatestScale < scale then 1.0 / 0.0
      else .ofScientific digits (exponent < 0) exponent.natAbs
    if negative then -magnitude else magnitude

/-- The single nearest to the number. -/
def toFloat32 : Numeral → Float32
  | .nan => 0.0 / 0.0
  | .infinite negative => if negative then -1.0 / 0.0 else 1.0 / 0.0
  | .finite negative digits exponent =>
    let scale := digitCount digits + exponent
    let magnitude : Float32 :=
      if digits = 0 ∨ scale < -greatestScale then 0.0
      else if greatestScale < scale then 1.0 / 0.0
      else .ofScientific digits (exponent < 0) exponent.natAbs
    if negative then -magnitude else magnitude

end Numeral

/-- The double that a whole text spells. -/
def readFloat? (t : Text) : Option Float :=
  (Numeral.read? t).map Numeral.toFloat

end PadScript.Number
