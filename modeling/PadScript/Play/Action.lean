import PadScript.Play.Chain
import PadScript.Play.Send

/-!
# Playing one line of a script

An `Action` plays the elements of a chain one after another. An element is sent when the one before
it has been held long enough, counted from the time at which that one took effect, and at the end
everything is let go. Where the pad can keep what is held, an element `~` keeps it: it makes the
hold longer, and at the end of a chain it stands in place of letting go.

A `KeyPress` sends a line, holds it, and lets everything go.
-/

namespace PadScript

/-- How far an action has got. -/
inductive ActionPhase where
  /-- It turns to the next element. -/
  | choosing
  /-- It sends an element that is to be held for some time. -/
  | sending (send : Send) (hold : Nat)
  /-- It holds the last element. -/
  | holding (deadline : Nat)
  /-- It lets everything go. -/
  | closing (send : Send)
deriving DecidableEq, Repr

/-- The state of an action. -/
structure Action where
  /-- The elements still to come. -/
  steps : List ChainElement
  /-- When the hold of the last element sent is over. -/
  releaseAt : Option Nat
  /-- The last element kept what is held. -/
  held : Bool
  /-- How far it has got. -/
  phase : ActionPhase
deriving DecidableEq, Repr

namespace Action

/-- The action of a line. -/
def ofLine (line : Text) : Action := ⟨Chain.ofLine line, none, false, .choosing⟩

/-- The end of an action. -/
def finish (r : Except RunError Nat) : Except RunError Unit :=
  match r with
  | .ok _ => .ok ()
  | .error e => .error e

/-- The turn to the next element. -/
def choose (now : Nat) (isCancelled : Bool) (a : Action) (p : Pad) :
    Turn Pad Action (Except RunError Unit) :=
  match a.steps with
  | [] =>
    if a.held then
      match Wait.begin now isCancelled a.releaseAt with
      | .over => .done p (.ok ())
      | .cancelled => .done p (.error .cancelled)
      | .sleeping deadline => .go p { a with phase := .holding deadline }
    else .go p { a with phase := .closing (.ofLine [] a.releaseAt) }
  | s :: rest =>
    if p.keepsHeld && s.line = ChainElement.holdLine then
      let releaseAt :=
        match a.releaseAt, s.hold? with
        | some t, some more => some (t + more)
        | t, _ => t
      .go p { a with steps := rest, releaseAt := releaseAt, held := true }
    else
      .go p { a with
        steps := rest
        held := false
        phase := .sending (.ofLine s.line a.releaseAt) s.hold }

/-- One step of an action. -/
def step (now : Nat) (isCancelled : Bool) (a : Action) (p : Pad) :
    Turn Pad Action (Except RunError Unit) :=
  match a.phase with
  | .choosing => a.choose now isCancelled p
  | .sending send hold =>
    (send.step now isCancelled p).within (fun send => { a with phase := .sending send hold })
      fun p result =>
        match result with
        | .ok sentAt => .go p { a with releaseAt := some (sentAt + hold), phase := .choosing }
        | .error e => .done p (.error e)
  | .holding deadline =>
    match Wait.look now isCancelled deadline with
    | .over => .done p (.ok ())
    | .cancelled => .done p (.error .cancelled)
    | .sleeping _ => .wait p a false
  | .closing send =>
    (send.step now isCancelled p).within (fun send => { a with phase := .closing send })
      fun p result => .done p (finish result)

/-- The time that an action waits for. -/
def deadline? (a : Action) : Option Nat :=
  match a.phase with
  | .choosing => none
  | .sending send _ => send.deadline?
  | .holding deadline => some deadline
  | .closing send => send.deadline?

end Action

/-- A line sent and held. -/
inductive KeyPress where
  /-- The line is sent, to be held for some time. -/
  | pressing (send : Send) (hold : Nat)
  /-- Everything is let go. -/
  | letting (send : Send)
deriving DecidableEq, Repr

namespace KeyPress

/-- The key press of a line. -/
def ofLine (line : Text) (hold : Nat) : KeyPress := .pressing (.ofLine line none) hold

/-- One step of a key press. -/
def step (now : Nat) (isCancelled : Bool) (k : KeyPress) (p : Pad) :
    Turn Pad KeyPress (Except RunError Nat) :=
  match k with
  | .pressing send hold =>
    (send.step now isCancelled p).within (.pressing · hold)
      fun p result =>
        match result with
        | .ok pressedAt => .go p (.letting (.ofLine [] (some (pressedAt + hold))))
        | .error e => .done p (.error e)
  | .letting send => (send.step now isCancelled p).within .letting .done

/-- The time that a key press waits for. -/
def deadline? : KeyPress → Option Nat
  | .pressing send _ => send.deadline?
  | .letting send => send.deadline?

end KeyPress

end PadScript
