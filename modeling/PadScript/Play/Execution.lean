import PadScript.Play.Action
import PadScript.Play.Station
import PadScript.Script.Cursor.Lines

/-!
# Runs

An `Execution` plays one macro: cycle after cycle it takes lines from the cursor and plays them,
until the cycles asked for are done, a cycle has given no line, a send has failed, or the run is
cancelled. However it ends, everything is let go at last.

The `Runner` takes one request after another and plays it.
-/

namespace PadScript

/-- How a run ended. -/
inductive RunOutcome where
  /-- It played its cycles, or its macro ran dry. -/
  | completed (cycles : Nat)
  /-- It was cancelled. -/
  | cancelled (cycles : Nat)
  /-- It failed. -/
  | failed (e : RunError)
deriving DecidableEq, Repr

/-- How far a run has got. -/
inductive ExecutionPhase where
  /-- It turns to the next line. -/
  | choosing
  /-- It plays a line. -/
  | acting (a : Action)
  /-- It lets everything go. -/
  | releasing (send : Send) (result : Except RunError Unit)

/-- The state of a run. -/
structure Execution where
  /-- How many cycles to play; zero and less stand for cycles without end. -/
  loopCount : Int
  /-- The position in the macro. -/
  cursor : Cursor
  /-- How many cycles were played. -/
  cycles : Nat
  /-- This cycle has given a line. -/
  produced : Bool
  /-- How far it has got. -/
  phase : ExecutionPhase

namespace Execution

/-- The most cycles that are counted. -/
def mostCycles : Nat := UInt32.size - 1

/-- The run that a request asks for, and that it is in progress. -/
def start? (setup : Setup) (r : PlayRequest) (s : Station) : Option (Execution × Station) :=
  (Cursor.start? setup.library r.name r.overrides).map fun cursor =>
    (⟨r.loopCount, cursor, 0, false, .choosing⟩,
      { s with queue := { s.queue with running := true } })

/-- The run lets everything go. -/
def release (e : Execution) (result : Except RunError Unit) : Execution :=
  { e with phase := .releasing (.ofLine [] none) result }

/-- What the run has come to. -/
def outcome (e : Execution) : Except RunError Unit → RunOutcome
  | .ok () => .completed e.cycles
  | .error .cancelled => .cancelled e.cycles
  | .error error => .failed error

/-- The end of a cycle. -/
def endCycle (e : Execution) : Execution :=
  let e := { e with cycles := min (e.cycles + 1) mostCycles }
  if 0 < e.loopCount ∧ e.loopCount ≤ e.cycles then e.release (.ok ())
  else if !e.produced then e.release (.ok ())
  else { e with produced := false, cursor := e.cursor.startCycle }

/-- The turn to the next line. -/
def choose (e : Execution) (isCancelled : Bool) : Execution :=
  if isCancelled then e.release (.error .cancelled)
  else
    match e.cursor.nextLine with
    | (some line, cursor) =>
      { e with cursor := cursor, produced := true, phase := .acting (.ofLine line) }
    | (none, cursor) => endCycle { e with cursor := cursor }

/-- One step of a run. -/
def step (e : Execution) (s : Station) : Turn Station Execution RunOutcome :=
  let setPad (pad : Pad) : Station := { s with pad := pad }
  match e.phase with
  | .choosing => .go s (e.choose s.queue.cancelled)
  | .acting a =>
    ((a.step s.now s.queue.cancelled s.pad).widen setPad).within
      (fun a => { e with phase := .acting a })
      fun s result =>
        match result with
        | .ok () => .go s { e with phase := .choosing }
        | .error error => .go s (e.release (.error error))
  | .releasing send result =>
    ((send.step s.now false s.pad).widen setPad).within
      (fun send => { e with phase := .releasing send result })
      fun s _ => .done { s with queue := { s.queue with running := false } } (e.outcome result)

/-- The time that a run waits for. -/
def deadline? (e : Execution) : Option Nat :=
  match e.phase with
  | .choosing => none
  | .acting a => a.deadline?
  | .releasing send _ => send.deadline?

end Execution

/-- The task that plays requests. -/
inductive Runner where
  /-- It waits for a request. -/
  | idle
  /-- It plays one. -/
  | playing (e : Execution)

namespace Runner

/-- One step of the runner. A request for a macro that is not there is dropped. -/
def step (setup : Setup) (r : Runner) (s : Station) : Turn Station Runner Unit :=
  match r with
  | .idle =>
    match s.queue.dequeue? with
    | none => .wait s .idle false
    | some (request, queue) =>
      let s := { s with queue := { queue with cancelled := false } }
      match Execution.start? setup request s with
      | some (e, s) => .go s (.playing e)
      | none => .go s .idle
  | .playing e => (e.step s).within .playing fun s _ => .go s .idle

/-- The time that the runner waits for. -/
def deadline? : Runner → Option Nat
  | .idle => none
  | .playing e => e.deadline?

end Runner

end PadScript
