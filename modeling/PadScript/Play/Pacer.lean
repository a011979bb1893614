/-!
# Pacing

A `Pacer` keeps two sends apart by a least interval. `Wait` says how a wait for a time stands, and
that it can be cancelled.

Times are in microseconds since a fixed beginning.
-/

namespace PadScript

/-- The least interval and the last send. -/
structure Pacer where
  /-- The least time between two sends. -/
  interval : Nat
  /-- When the last send was. -/
  last? : Option Nat
deriving DecidableEq, Repr

namespace Pacer

/-- The least interval if nothing is said. -/
def standardInterval : Nat := 3000

/-- A pacer before the first send. -/
def idle (interval : Nat) : Pacer := ⟨interval, none⟩

/-- The earliest time of the next send: an interval after the last one, and not before
`notBefore`. -/
def deadline? (p : Pacer) (notBefore : Option Nat) : Option Nat :=
  match p.last?, notBefore with
  | some last, some t => some (max (last + p.interval) t)
  | some last, none => some (last + p.interval)
  | none, t => t

/-- The pacer after a send. -/
def record (p : Pacer) (now : Nat) : Pacer := { p with last? := some now }

end Pacer

/-- How a wait for a time stands. -/
inductive Wait where
  /-- The time has come. -/
  | over
  /-- The wait was given up. -/
  | cancelled
  /-- The time is still to come. -/
  | sleeping (deadline : Nat)
deriving DecidableEq, Repr

namespace Wait

/-- The beginning of a wait. One that is cancelled already is given up, whatever the time is. -/
def begin (now : Nat) (isCancelled : Bool) : (deadline? : Option Nat) → Wait
  | none => if isCancelled then .cancelled else .over
  | some deadline =>
    if isCancelled then .cancelled else if deadline ≤ now then .over else .sleeping deadline

/-- A further look at a wait. The time comes before a cancellation. -/
def look (now : Nat) (isCancelled : Bool) (deadline : Nat) : Wait :=
  if deadline ≤ now then .over else if isCancelled then .cancelled else .sleeping deadline

end Wait

end PadScript
