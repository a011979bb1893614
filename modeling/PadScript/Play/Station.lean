import PadScript.Play.Pad
import PadScript.Play.RunQueue
import PadScript.Script.Library

/-!
# What tasks share

A `Station` is the state that all tasks share: the time, the pad, the queue of runs, and the wires
to the client and the host. `Setup` is what does not change: the macros and the configuration.

`Station.handle` does what one payload of a client asks for, and answers it. It never waits.
-/

namespace PadScript

/-- How a sleep behaves whose time has come before it began. -/
inductive Clock where
  /-- It is over at once. -/
  | prompt
  /-- It still waits a turn. -/
  | yielding
deriving DecidableEq, Repr

/-- Why the receiver or the sender of the command link fails. -/
inductive UartError where
  /-- A stop bit was missing. -/
  | framing
  /-- Bytes came too fast. -/
  | overrun
  /-- The line was held low, or a parity bit was wrong. -/
  | other
deriving DecidableEq, Repr

/-- What the receiver of the command link gives. -/
inductive UartItem where
  /-- A byte. -/
  | byte (b : UInt8)
  /-- A failure. -/
  | failure (e : UartError)
deriving DecidableEq, Repr

/-- What the endpoint for the host's reports gives. -/
inductive HostItem where
  /-- A packet. -/
  | packet (bytes : List UInt8)
  /-- A failure. -/
  | failure
deriving DecidableEq, Repr

/-- The wires to the client and the host. -/
structure Wires where
  /-- What has arrived on the command link. -/
  uartIn : List UartItem
  /-- How many of the next writes to the command link fail. -/
  uartFaults : Nat
  /-- What was written to the command link, and when. -/
  uartOut : List (Nat × Text)
  /-- The reports of the host that have arrived. -/
  hostIn : List HostItem
  /-- The host has configured the pad, and nobody has been told yet. -/
  configured : Bool
deriving DecidableEq, Repr

/-- Silent wires. -/
def Wires.silent : Wires := ⟨[], 0, [], [], false⟩

/-- What tasks share. -/
structure Station where
  /-- The time. -/
  now : Nat
  /-- How sleeps behave. -/
  clock : Clock
  /-- The pad. -/
  pad : Pad
  /-- The queue of runs. -/
  queue : RunQueue
  /-- The wires. -/
  wires : Wires

/-- What does not change. -/
structure Setup where
  /-- The macros. -/
  library : Library
  /-- The configuration. -/
  config : Config

/-- The state at a time at which everything is switched on. -/
def Setup.station (setup : Setup) (clock : Clock) (now : Nat) : Station where
  now := now
  clock := clock
  pad := .switchedOn setup.config.profile setup.config.timing now
  queue := .idle
  wires := .silent

namespace Station

variable (setup : Setup)

/-- Asks for a run. The run in progress is to end, and requests that wait are dropped if `afresh`;
that is so also when there is no room for the request. -/
def request (r : PlayRequest) (afresh : Bool) (s : Station) : Response × Station :=
  let name := setup.config.resolve r.name
  if setup.library.contains name then
    let queue := if afresh then s.queue.stop else s.queue.cancelRun
    match queue.enqueue { r with name := name } with
    | .ok queue => (.queued, { s with queue := queue })
    | .error e => (.error e, { s with queue := queue })
  else (.error .unknownMacro, s)

/-- Does what a command asks for. -/
def apply (s : Station) : Command → Response × Station
  | .start r => s.request setup r false
  | .restart r => s.request setup r true
  | .stop => (.accepted, { s with queue := s.queue.stop })
  | .realtimeStart => (.accepted, { s with pad := s.pad.startRealtime s.now })
  | .realtimeStop => (.accepted, { s with pad := s.pad.stopRealtime s.now })
  | .realtimeAction line =>
    match s.pad.setRealtime line s.now with
    | .ok pad => (.accepted, { s with pad := pad })
    | .error e => (.error e, s)

/-- Does what a payload asks for. -/
def handle (payload : Text) (s : Station) : Response × Station :=
  match Command.parse payload with
  | .ok command => s.apply setup command
  | .error e => (.error e, s)

end Station

end PadScript
