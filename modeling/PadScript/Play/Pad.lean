import PadScript.Control.Config
import PadScript.Pad.ActionLine
import PadScript.Pad.Session
import PadScript.Play.LiveSlot
import PadScript.Play.Pacer
import PadScript.Play.Sink

/-!
# The pad that tasks share

A `Pad` is the state of the pad that is shown to the host. On the profile `horipadS` every change of
input is a report of its own; on `proController` a change only replaces the line in the slot, and
periodic reports show it. The sink is held by one task at a time.
-/

namespace PadScript

/-- Why a send or a run ended early. -/
inductive RunError where
  /-- It was cancelled. -/
  | cancelled
  /-- A report was not taken. -/
  | output (e : OutputError)
  /-- There is no macro of this name. -/
  | unknownMacro
deriving DecidableEq, Repr

/-- The wording of an error. -/
def RunError.message : RunError → String
  | .cancelled => "cancelled"
  | .output e => "output error: " ++ e.message
  | .unknownMacro => "unknown macro"

/-- The state of the pad. -/
structure Pad where
  /-- Which pad it is. -/
  profile : Profile
  /-- How time is kept. -/
  timing : Timing
  /-- The session with the host; a plain joystick has no use for it. -/
  session : Session
  /-- What keeps sends apart. -/
  pacer : Pacer
  /-- The live line. -/
  slot : LiveSlot
  /-- Where reports go. -/
  sink : Sink
  /-- A task holds the sink. -/
  sinkHeld : Bool

namespace Pad

/-- The pad that is switched on at a time. -/
def switchedOn (profile : Profile) (timing : Timing) (now : Nat) : Pad where
  profile := profile
  timing := timing
  session := .begin now
  pacer := .idle timing.minSendInterval
  slot := .fresh
  sink := .fresh
  sinkHeld := false

/-- An element `~` of a chain keeps what is held. -/
def keepsHeld (p : Pad) : Bool := p.profile = .proController

/-- The bytes that show an action line. -/
def encode (p : Pad) (line : Text) : List UInt8 :=
  match p.profile with
  | .proController => (PadState.ofLine line).proBlock
  | .horipadS => (PadState.ofLine line).joystick

/-- Begins realtime mode. -/
def startRealtime (now : Nat) (p : Pad) : Pad := { p with slot := p.slot.start now }

/-- Ends realtime mode. What was held is let go at once where the slot is what is shown. -/
def stopRealtime (now : Nat) (p : Pad) : Pad :=
  match p.profile with
  | .proController => { p with slot := p.slot.stop.set [] now }
  | .horipadS => { p with slot := p.slot.stop }

/-- Realtime mode is on. -/
def isRealtime (p : Pad) : Bool := p.slot.active

/-- Sets the live line; it can be set only in realtime mode. -/
def setRealtime (line : Text) (now : Nat) (p : Pad) : Except CommandError Pad :=
  if p.isRealtime then .ok { p with slot := p.slot.set line now } else .error .realtimeInactive

/-- What the live line holds. -/
def liveState (now : Nat) (p : Pad) : PadState × Pad :=
  let (line, slot) := p.slot.look now p.timing.realtimeIdle
  (.ofLine line, { p with slot := slot })

/-- The periodic report at a time, while the host is connected. -/
def stampPeriodic (now : Nat) (p : Pad) : Option InputReport × Pad :=
  let (held, p) := p.liveState now
  (p.session.periodic? held now, p)

/-- The answer to a report of the host, if there is one. -/
def stampReply (report : List UInt8) (now : Nat) (p : Pad) : Option InputReport × Pad :=
  let (held, p) := p.liveState now
  let (session, reply) := p.session.handle report held now
  (reply, { p with session := session })

end Pad

end PadScript
