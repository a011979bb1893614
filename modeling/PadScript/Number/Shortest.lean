import PadScript.Text.Basic
import PadScript.Number.Binary

/-!
# Shortest decimals

The shortest decimal of a double is the one with the fewest digits among those that read back as
the same double, and the nearest of these. `shortest` finds it in exact arithmetic: on the grids of
one, two, … seventeen digits only the two neighbours of the number can be nearest, and the first
grid with a neighbour that reads back wins.

`positional` writes a double with all its places and never an exponent; `scientific` writes a
double that marks itself as one, with a point or an exponent.
-/

namespace PadScript.Number

/-- Which neighbour wins when both are equally near. -/
inductive Tie where
  /-- The one away from zero. -/
  | away
  /-- The one with an even last digit. -/
  | toEven
deriving DecidableEq, Repr

/-- The decimal number `digits · 10 ^ exponent`. -/
structure Decimal where
  /-- The whole factor. -/
  digits : Nat
  /-- The power of ten. -/
  exponent : Int
deriving DecidableEq, Repr

/-- A fraction of whole numbers. -/
structure Ratio where
  /-- The number above the line. -/
  num : Nat
  /-- The number below the line. -/
  den : Nat
deriving DecidableEq, Repr

/-- The fraction `n · 2 ^ e`. -/
def Ratio.scaled (n : Nat) (e : Int) : Ratio :=
  if 0 ≤ e then ⟨n <<< e.toNat, 1⟩ else ⟨n, 1 <<< (-e).toNat⟩

/-- The reals that round to a double, in quarters of its last place. -/
structure Rounding where
  /-- The double itself. -/
  centre : Nat
  /-- The lower end. -/
  low : Nat
  /-- The upper end. -/
  high : Nat
  /-- The ends round to the double as well. -/
  closed : Bool
  /-- The power of two of a quarter of the last place. -/
  exponent : Int
deriving DecidableEq, Repr

/-- The reals that round to `mantissa · 2 ^ exponent`. Below a power of two the doubles lie twice as
close. -/
def Rounding.ofDyadic (mantissa : Nat) (exponent : Int) : Rounding where
  centre := 4 * mantissa
  low :=
    if mantissa = 1 <<< 52 ∧ leastExponent < exponent then 4 * mantissa - 1 else 4 * mantissa - 2
  high := 4 * mantissa + 2
  closed := mantissa % 2 = 0
  exponent := exponent - 2

/-- The whole number below `n · 2 ^ e / 10 ^ k`, with the fraction it leaves. -/
def Ratio.onGrid (r : Ratio) (k : Int) : Ratio :=
  if 0 ≤ k then ⟨r.num, r.den * Nat.pow 10 k.toNat⟩ else ⟨r.num * Nat.pow 10 (-k).toNat, r.den⟩

/-- The power of ten of the first digit of a positive fraction above `10 ^ -400`. -/
def Ratio.magnitude (r : Ratio) : Int :=
  ((Nat.toDigits 10 (r.num * Nat.pow 10 400 / r.den)).length : Int) - 401

/-- The point of the grid `10 ^ k` that is nearest to the double among those that read back. -/
def Rounding.onGrid? (tie : Tie) (r : Rounding) (k : Int) : Option Nat :=
  let centre := (Ratio.scaled r.centre r.exponent).onGrid k
  let low := (Ratio.scaled r.low r.exponent).onGrid k
  let high := (Ratio.scaled r.high r.exponent).onGrid k
  let below := centre.num / centre.den
  let above := below + 1
  let lowFits :=
    if r.closed then decide (low.num ≤ below * low.den) else decide (low.num < below * low.den)
  let highFits :=
    if r.closed then decide (above * high.den ≤ high.num) else decide (above * high.den < high.num)
  -- twice the way up from `below`, against the whole way between the neighbours
  let up := 2 * (centre.num - below * centre.den)
  let upper :=
    match compare up centre.den with
    | .gt => true
    | .lt => false
    | .eq => match tie with | .away => true | .toEven => below % 2 = 1
  match lowFits, highFits with
  | true, true => some (if upper then above else below)
  | true, false => some below
  | false, true => some above
  | false, false => none

/-- The most digits a double needs. -/
def greatestDigits : Nat := 17

/-- The shortest decimal of the positive double `mantissa · 2 ^ exponent`. -/
def shortest (tie : Tie) (mantissa : Nat) (exponent : Int) : Decimal :=
  let r := Rounding.ofDyadic mantissa exponent
  let first := (Ratio.scaled r.centre r.exponent).magnitude
  let grids := (List.range greatestDigits).map fun (n : Nat) => first - n
  let hit := grids.findSome? fun k => (r.onGrid? tie k).map fun digits => Decimal.mk digits k
  hit.getD ⟨0, 0⟩

/-- The decimal without its last zeros; at most `fuel` zeros are dropped. -/
def Decimal.trimZeros (d : Decimal) : (fuel : Nat) → Decimal
  | 0 => d
  | fuel + 1 =>
    if d.digits % 10 = 0 then Decimal.trimZeros ⟨d.digits / 10, d.exponent + 1⟩ fuel else d

/-! ### Writing -/

/-- `n` zeros. -/
def zeros (n : Nat) : Text := List.replicate n '0'

/-- A decimal with all its places; no point when there is nothing behind it. -/
def Decimal.positional (d : Decimal) : Text :=
  let digits := Nat.toDigits 10 d.digits
  if 0 ≤ d.exponent then digits ++ zeros d.exponent.toNat
  else
    let places := (-d.exponent).toNat
    if digits.length ≤ places then "0.".toList ++ zeros (places - digits.length) ++ digits
    else digits.take (digits.length - places) ++ '.' :: digits.drop (digits.length - places)

/-- The text of a sign. -/
def signText (negative : Bool) : Text := if negative then ['-'] else []

/-- A double with the fewest digits and all its places. The zero below zero keeps its sign. -/
def positional (x : Float) : Text :=
  match parts x with
  | .nan => "NaN".toList
  | .infinite negative => signText negative ++ "inf".toList
  | .finite d =>
    signText d.negative ++
      if d.mantissa = 0 then ['0']
      else ((shortest .away d.mantissa d.exponent).trimZeros greatestDigits).positional

/-- A whole number in decimal digits. -/
def intText (n : Int) : Text := signText (n < 0) ++ Nat.toDigits 10 n.natAbs

/-- A decimal that shows that it is no whole number: positional for exponents of the first digit
from `-5` to `15`, with `.0` behind a whole number, otherwise in scientific form. -/
def Decimal.marked (d : Decimal) : Text :=
  let digits := Nat.toDigits 10 d.digits
  let first : Int := digits.length + d.exponent
  if 0 ≤ d.exponent ∧ first ≤ 16 then d.positional ++ ".0".toList
  else if -5 < first ∧ first ≤ 16 then d.positional
  else
    let behind := digits.drop 1
    digits.take 1 ++ (if behind.isEmpty then [] else '.' :: behind) ++ 'e' :: intText (first - 1)

/-- A double with the fewest digits in a form that reads back as a double and never as a whole
number. -/
def scientific (x : Float) : Text :=
  match parts x with
  | .finite d =>
    signText d.negative ++
      if d.mantissa = 0 then "0.0".toList
      else ((shortest .toEven d.mantissa d.exponent).trimZeros greatestDigits).marked
  | _ => "null".toList

end PadScript.Number
