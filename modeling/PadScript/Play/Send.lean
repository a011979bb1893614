import PadScript.Play.Pad

/-!
# Sends

A `Send` shows an action line to the host: it waits until the pacer and the caller allow it, and
then the line takes effect. A cancellation ends the wait, but not a report that is being written.

On the profile `horipadS` the sink is held from the beginning of the wait until the report is
written. On `proController` the line only goes into the slot, so the sink is not needed.

A `Delivery` writes a report that is stamped already.
-/

namespace PadScript

/-- How far a send has got. -/
inductive SendPhase where
  /-- It asks for the sink, if it needs it. -/
  | asking
  /-- It waits for a time. -/
  | pacing (deadline : Nat)
  /-- It writes a report. -/
  | writing (w : Write)
deriving DecidableEq, Repr

/-- A send of an action line. -/
structure Send where
  /-- The line. -/
  line : Text
  /-- The earliest time for it. -/
  notBefore : Option Nat
  /-- How far it has got. -/
  phase : SendPhase
deriving DecidableEq, Repr

namespace Send

/-- A send from its beginning on. -/
def ofLine (line : Text) (notBefore : Option Nat) : Send := ⟨line, notBefore, .asking⟩

/-- The sink is let go. -/
def letGo (p : Pad) : Pad := { p with sinkHeld := false }

/-- What follows when the wait stands like this. -/
def proceed (now : Nat) (s : Send) (p : Pad) : Wait → Turn Pad Send (Except RunError Nat)
  | .cancelled =>
    match p.profile with
    | .horipadS => .done (letGo p) (.error .cancelled)
    | .proController => .done p (.error .cancelled)
  | .sleeping deadline => .go p { s with phase := .pacing deadline }
  | .over =>
    match p.profile with
    | .horipadS => .go p { s with phase := .writing (.ofReport (p.encode s.line)) }
    | .proController =>
      .done { p with slot := p.slot.set s.line now, pacer := p.pacer.record now } (.ok now)

/-- One step of a send. -/
def step (now : Nat) (isCancelled : Bool) (s : Send) (p : Pad) :
    Turn Pad Send (Except RunError Nat) :=
  match s.phase with
  | .asking =>
    let wait := Wait.begin now isCancelled (p.pacer.deadline? s.notBefore)
    match p.profile with
    | .horipadS =>
      if p.sinkHeld then .wait p s false else s.proceed now { p with sinkHeld := true } wait
    | .proController => s.proceed now p wait
  | .pacing deadline =>
    match Wait.look now isCancelled deadline with
    | .sleeping _ => .wait p s false
    | wait => s.proceed now p wait
  | .writing w =>
    ((w.step now p.sink).widen fun sink => { p with sink := sink }).within
      (fun w => { s with phase := .writing w })
      fun p result =>
        match result with
        | .ok () => .done (letGo { p with pacer := p.pacer.record now }) (.ok now)
        | .error e => .done (letGo p) (.error (.output e))

/-- The time that a send waits for. -/
def deadline? (s : Send) : Option Nat :=
  match s.phase with
  | .pacing deadline => some deadline
  | _ => none

end Send

/-- A stamped report on its way. -/
inductive Delivery where
  /-- It asks for the sink. -/
  | asking (report : InputReport)
  /-- It is being written. -/
  | writing (w : Write)
deriving DecidableEq, Repr

namespace Delivery

/-- One step of a delivery. -/
def step (now : Nat) (d : Delivery) (p : Pad) : Turn Pad Delivery (Except OutputError Unit) :=
  match d with
  | .asking report =>
    if p.sinkHeld then .wait p d false
    else .go { p with sinkHeld := true } (.writing (.ofReport report.bytes))
  | .writing w =>
    ((w.step now p.sink).widen fun sink => { p with sink := sink }).within .writing
      fun p result => .done { p with sinkHeld := false } result

end Delivery

end PadScript
