import PadScript.Play.Send
import PadScript.Play.Station

/-!
# Tasks that keep the host up to date

`Realtime` serves realtime mode on the profile `horipadS`: from the beginning of the mode to its end
it looks for a changed line every so often and sends it, and at the end it lets everything go.

On `proController`, `Periodic` sends the periodic report every so often, and `HostReports` answers
the reports of the host.
-/

namespace PadScript

/-- A sleep. -/
structure Sleep where
  /-- When it is over. -/
  deadline : Nat
  /-- It has waited a turn. -/
  armed : Bool
deriving DecidableEq, Repr

namespace Sleep

/-- The sleep until a time. -/
def til (deadline : Nat) : Sleep := ⟨deadline, false⟩

/-- One step of a sleep. -/
def step (sleep : Sleep) (s : Station) : Turn Station Sleep Unit :=
  if (s.clock = .prompt || sleep.armed) && sleep.deadline ≤ s.now then .done s ()
  else .wait s { sleep with armed := true } (!sleep.armed && sleep.deadline ≤ s.now)

/-- The sleep until an interval after the time that was meant, or until now if that has passed. -/
def after (meant interval now : Nat) : Sleep := til (max (meant + interval) now)

end Sleep

/-- How far a session of realtime mode has got. -/
inductive Realtime where
  /-- It waits for realtime mode. -/
  | waiting
  /-- It looks for a line, at a time that was meant to be `meant`. -/
  | looking (meant : Nat)
  /-- It sends a line. -/
  | sending (meant : Nat) (send : Send)
  /-- It sleeps. -/
  | sleeping (sleep : Sleep)
  /-- It lets everything go. -/
  | releasing (send : Send)
deriving DecidableEq, Repr

namespace Realtime

/-- The sleep before the next look. -/
def pause (meant : Nat) (s : Station) : Turn Station Realtime Unit :=
  .go s (.sleeping (.after meant s.pad.timing.realtimeTick s.now))

/-- A look for a line. -/
def look (meant : Nat) (s : Station) : Turn Station Realtime Unit :=
  if s.pad.isRealtime then
    let (line?, slot) := s.pad.slot.takeChange s.now s.pad.timing.realtimeIdle
    let s := { s with pad := { s.pad with slot := slot } }
    match line? with
    | some line => .go s (.sending meant (.ofLine line none))
    | none => pause meant s
  else .go s (.releasing (.ofLine [] none))

/-- One step of a session. -/
def step (r : Realtime) (s : Station) : Turn Station Realtime Unit :=
  let setPad (pad : Pad) : Station := { s with pad := pad }
  match r with
  | .waiting =>
    let (started, slot) := s.pad.slot.takeStarted
    if started then .go { s with pad := { s.pad with slot := slot } } (.looking s.now)
    else .wait s .waiting false
  | .looking meant => look meant s
  | .sending meant send =>
    ((send.step s.now false s.pad).widen setPad).within (.sending meant) fun s _ => pause meant s
  | .sleeping sleep =>
    (sleep.step s).within .sleeping fun s () => .go s (.looking sleep.deadline)
  | .releasing send =>
    ((send.step s.now false s.pad).widen setPad).within .releasing fun s _ => .done s ()

/-- One step of a task that serves one session after another. -/
def serve (r : Realtime) (s : Station) : Turn Station Realtime Unit :=
  (r.step s).within id fun s () => .go s .waiting

/-- The time that a session waits for. -/
def deadline? : Realtime → Option Nat
  | .waiting => none
  | .looking _ => none
  | .sending _ send => send.deadline?
  | .sleeping sleep => some sleep.deadline
  | .releasing send => send.deadline?

end Realtime

/-- How far the task of periodic reports has got. -/
inductive Periodic where
  /-- It stamps a report, at a time that was meant to be `meant`. -/
  | stamping (meant : Nat)
  /-- It delivers the report. -/
  | delivering (meant : Nat) (d : Delivery)
  /-- It sleeps. -/
  | sleeping (sleep : Sleep)
deriving DecidableEq, Repr

namespace Periodic

/-- The sleep before the next report. -/
def pause (meant : Nat) (s : Station) : Turn Station Periodic Unit :=
  .go s (.sleeping (.after meant s.pad.timing.tick s.now))

/-- One step of the task. -/
def step (t : Periodic) (s : Station) : Turn Station Periodic Unit :=
  let setPad (pad : Pad) : Station := { s with pad := pad }
  match t with
  | .stamping meant =>
    let (report?, pad) := s.pad.stampPeriodic s.now
    match report? with
    | some report => .go (setPad pad) (.delivering meant (.asking report))
    | none => pause meant (setPad pad)
  | .delivering meant d =>
    ((d.step s.now s.pad).widen setPad).within (.delivering meant) fun s _ => pause meant s
  | .sleeping sleep =>
    (sleep.step s).within .sleeping fun s () => .go s (.stamping sleep.deadline)

/-- The time that the task waits for. -/
def deadline? : Periodic → Option Nat
  | .sleeping sleep => some sleep.deadline
  | _ => none

end Periodic

/-- How far the task that answers the host has got. -/
inductive HostReports where
  /-- It waits for a report. -/
  | reading
  /-- It delivers the answer. -/
  | delivering (d : Delivery)
deriving DecidableEq, Repr

namespace HostReports

/-- The longest packet. -/
def longestPacket : Nat := 64

/-- One step of the task. Empty packets, packets that are too long and failures are passed over. -/
def step (t : HostReports) (s : Station) : Turn Station HostReports Unit :=
  match t with
  | .reading =>
    match s.wires.hostIn with
    | [] => .wait s .reading false
    | item :: rest =>
      let s := { s with wires := { s.wires with hostIn := rest } }
      match item with
      | .failure => .go s .reading
      | .packet bytes =>
        if bytes.isEmpty ∨ longestPacket < bytes.length then .go s .reading
        else
          let (reply?, pad) := s.pad.stampReply bytes s.now
          let s := { s with pad := pad }
          match reply? with
          | some reply => .go s (.delivering (.asking reply))
          | none => .go s .reading
  | .delivering d =>
    ((d.step s.now s.pad).widen fun pad => { s with pad := pad }).within .delivering
      fun s _ => .go s .reading

end HostReports

end PadScript
