import PadScript.Json.Reader.Basic
import PadScript.Number.Decimal

/-!
# Reading JSON numbers

`Reader.number` takes a whole number of 64 bits as it is, and any other number as a double. The
double comes from at most 64 bits of the significand and one scaling by a power of ten, so it is not
always the nearest one.
-/

namespace PadScript.Json.Reader

/-- The next character, if it is a digit. -/
def peekDigit? : Reader (Option Nat) := do
  match ← peek with
  | some c => return if Number.isDigit c then some (Number.digitValue c) else none
  | none => return none

/-- Takes digits and gives their number. -/
def digitRun : Reader Text := do
  let s ← get
  let digits := s.rest.takeWhile Number.isDigit
  set { s with rest := s.rest.drop digits.length }
  return digits

/-- The powers of ten that are doubles of their own. -/
def greatestPower : Nat := 308

/-- Scales a double by a power of ten, by one multiplication or by divisions by at most
`10 ^ 308` each. It is `none` where the result is too large. -/
def scale? (x : Float) (exponent : Int) : (fuel : Nat) → Option Float
  | 0 => some x
  | fuel + 1 =>
    if exponent.natAbs ≤ greatestPower then
      let power := Float.ofScientific 1 false exponent.natAbs
      if 0 ≤ exponent then
        let y := x * power
        if y.isInf then none else some y
      else some (x / power)
    else if x == 0.0 then some x
    else if 0 ≤ exponent then none
    else scale? (x / Float.ofScientific 1 false greatestPower) (exponent + greatestPower) fuel

/-- The double for a significand and an exponent; what is too large is refused. -/
def float (negative : Bool) (significand : Nat) (exponent : Int) : Reader Float := do
  match scale? (.ofNat significand) exponent 4 with
  | some x => return if negative then -x else x
  | none => failHere

/-- The bounds of a 32-bit number with sign. -/
def clampInt32 (n : Int) : Int := 
  max Int32.minValue.toInt (min Int32.maxValue.toInt n)

/-- Takes an exponent from its letter on. Digits that would take it over 31 bits make the number
zero, or too large. -/
def exponentPart (negative : Bool) (significand : Nat) (start : Int) : Reader Float := do
  skip
  let down ← do
    match ← peek with
    | some '+' => skip; pure false
    | some '-' => skip; pure true
    | _ => pure false
  match ← next with
  | none => failHere
  | some c =>
    if !Number.isDigit c then failHere
    else
      let s ← get
      let digits := s.rest.takeWhile Number.isDigit
      let step (state : Nat × Nat) (c : Char) : Nat × Nat :=
        if Int32.maxValue.toInt < state.1 then state
        else (10 * state.1 + Number.digitValue c, state.2 + 1)
      let (value, taken) := digits.foldl step (Number.digitValue c, 0)
      if Int32.maxValue.toInt < value then
        set { s with rest := s.rest.drop taken }
        if significand ≠ 0 ∧ !down then failHere
        else
          discard digitRun
          return if negative then -0.0 else 0.0
      else
        set { s with rest := s.rest.drop taken }
        float negative significand (clampInt32 (if down then start - value else start + value))

/-- Takes what may follow the digits of a double. -/
def floatEnd (negative : Bool) (significand : Nat) (exponent : Int) : Reader Float := do
  match ← peek with
  | some 'e' => exponentPart negative significand exponent
  | some 'E' => exponentPart negative significand exponent
  | _ => float negative significand exponent

/-- The greatest significand. -/
def greatestSignificand : Nat := UInt64.size - 1

/-- The longest beginning of a run of digits that, put behind `start`, still fits 64 bits: its
value, and how many digits it has. -/
def fittingDigits (start : Nat) : Text → Nat × Nat
  | [] => (start, 0)
  | c :: digits =>
    let n := 10 * start + Number.digitValue c
    if greatestSignificand < n then (start, 0)
    else
      let (value, taken) := fittingDigits n digits
      (value, taken + 1)

/-- Takes the part of a double from its point on. Digits that no longer fit 64 bits are passed
over. -/
def pointPart (negative : Bool) (significand : Nat) (exponent : Int) : Reader Float := do
  skip
  let digits ← digitRun
  if digits.isEmpty then failNext
  else
    let (value, taken) := fittingDigits significand digits
    floatEnd negative value (exponent - taken)

/-- Takes a number after its sign. -/
def unsignedNumber (negative : Bool) : Reader Number := do
  match ← next with
  | none => failHere
  | some '0' =>
    if (← peekDigit?).isSome then failNext else numberEnd 0
  | some c =>
    if !Number.isDigit c then failHere
    else
      let digits ← digitRun
      let (value, taken) := fittingDigits (Number.digitValue c) digits
      if taken = digits.length then numberEnd value
      else
        let dropped : Int := digits.length - taken
        match ← peek with
        | some '.' => return .float (← pointPart negative value dropped)
        | _ => return .float (← floatEnd negative value dropped)
where
  /-- Takes what may follow the digits of a number that fits 64 bits. -/
  numberEnd (value : Nat) : Reader Number := do
    match ← peek with
    | some '.' => return .float (← pointPart negative value 0)
    | some 'e' => return .float (← exponentPart negative value 0)
    | some 'E' => return .float (← exponentPart negative value 0)
    | _ =>
      if !negative then return .int value
      -- a whole number that does not fit 64 bits with a sign, and the zero below zero, are doubles
      else if value = 0 ∨ -(value : Int) < Int64.minValue.toInt then return .float (-.ofNat value)
      else return .int (-value)

/-- Takes a number. -/
def number : Reader Number := do
  match ← peek with
  | some '-' =>
    skip
    unsignedNumber true
  | _ => unsignedNumber false

end PadScript.Json.Reader
