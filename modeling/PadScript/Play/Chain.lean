import PadScript.Number.Decimal
import PadScript.Number.Binary

/-!
# Chains

A line of a script is a chain of elements, `A:0.5->B->0.2->~`. An element is an action line and how
many seconds it is held; a number alone is a pause. `Chain.ofLine` gives the elements in order and
leaves out those with more than one colon.

Times are in microseconds.
-/

namespace PadScript

/-- An element of a chain. -/
structure ChainElement where
  /-- The action line. -/
  line : Text
  /-- How long it is held, where that is written out. -/
  hold? : Option Nat
deriving DecidableEq, Repr

namespace ChainElement

/-- How long an element is held if nothing is said. -/
def standardHold : Nat := 100000

/-- The longest hold, in seconds. -/
def longestSeconds : Float := 86400.0

/-- How long an element is held. -/
def hold (s : ChainElement) : Nat := s.hold?.getD standardHold

/-- A number of seconds within bounds; what is no number stays none. -/
def clampSeconds (x : Float) : Float :=
  if x < 0.0 then 0.0 else if longestSeconds < x then longestSeconds else x

/-- The time that a number of seconds spells. -/
def seconds? (t : Text) : Option Nat :=
  (Number.readFloat? (Text.trim t)).map fun x =>
    Number.truncateUInt64 (clampSeconds x * 1000000.0)

/-- The element that a text spells: none if it has more than one colon. -/
def parse? (element : Text) : Option ChainElement :=
  match Text.pieces ':' element with
  | [line] =>
    match seconds? line with
    | some pause => some ⟨[], some pause⟩
    | none => some ⟨line, none⟩
  | [line, seconds] => some ⟨line, some ((seconds? seconds).getD standardHold)⟩
  | _ => none

/-- The line that keeps what is held. -/
def holdLine : Text := ['~']

end ChainElement

/-- What stands between two elements. -/
def chainArrow : Text := "->".toList

/-- The elements of a chain. -/
def Chain.ofLine (line : Text) : List ChainElement :=
  (Text.piecesBy chainArrow line).filterMap ChainElement.parse?

end PadScript
