import PadScript.Play.Execution
import PadScript.Play.Output

/-!
# Jobs

A `Job` is something that one waits for on a pad that nothing else is done with. `Job.play` plays it
on a clock that goes from event to event: while the job waits, the next event happens, or the time
comes that the job waits for, whichever is earlier.
-/

namespace PadScript

/-- Something to wait for. Some jobs look at a flag of their own to see if they are cancelled. -/
inductive Job where
  /-- Playing a line. -/
  | action (a : Action) (never : Bool)
  /-- Sending a line. -/
  | send (x : Send)
  /-- Sending a line and holding it. -/
  | keyPress (k : KeyPress)
  /-- Letting everything go. -/
  | release (x : Send)
  /-- A time. -/
  | sleep (deadline : Nat)
  /-- The cancellation. -/
  | cancellation
  /-- A session of realtime mode. -/
  | session (r : Realtime)
  /-- A run. -/
  | execution (e : Execution)

/-- What a job comes to. -/
inductive JobResult where
  /-- Nothing to tell. -/
  | nothing
  /-- A line was played. -/
  | action (r : Except RunError Unit)
  /-- A line took effect at a time. -/
  | send (r : Except RunError Nat)
  /-- A session is over. -/
  | session
  /-- A run is over. -/
  | execution (r : RunOutcome)

namespace Job

/-- One step of a job. -/
def step (isCancelled : Bool) (j : Job) (s : Station) : Turn Station Job JobResult :=
  let setPad (pad : Pad) : Station := { s with pad := pad }
  match j with
  | .action a never =>
    ((a.step s.now (isCancelled && !never) s.pad).widen setPad).within (.action · never)
      fun s r => .done s (.action r)
  | .send x =>
    ((x.step s.now isCancelled s.pad).widen setPad).within .send fun s r => .done s (.send r)
  | .keyPress k =>
    ((k.step s.now isCancelled s.pad).widen setPad).within .keyPress fun s r => .done s (.send r)
  | .release x =>
    ((x.step s.now false s.pad).widen setPad).within .release fun s r => .done s (.send r)
  | .sleep deadline => if deadline ≤ s.now then .done s .nothing else .wait s j false
  | .cancellation => if isCancelled then .done s .nothing else .wait s j false
  | .session r => (r.step s).within .session fun s () => .done s .session
  | .execution e => (e.step s).within .execution fun s r => .done s (.execution r)

/-- The time that a job waits for. -/
def deadline? : Job → Option Nat
  | .action a _ => a.deadline?
  | .send x => x.deadline?
  | .keyPress k => k.deadline?
  | .release x => x.deadline?
  | .sleep deadline => some deadline
  | .cancellation => none
  | .session r => r.deadline?
  | .execution e => e.deadline?

/-- A station with a flag for the cancellation of jobs. -/
structure Bench where
  /-- The station. -/
  station : Station
  /-- The flag. -/
  cancelled : Bool

/-- An event and the time it is meant for. It happens to something that holds a bench. -/
structure Event (σ : Type) where
  /-- The time. -/
  time : Nat
  /-- What happens. -/
  happen : σ → σ

variable {σ : Type} (bench : σ → Bench) (setStation : Station → σ → σ)

/-- What is left when a job has been played. -/
structure Played (σ : Type) where
  /-- What the job came to; `none` if it waits for something that never comes. -/
  result? : Option JobResult
  /-- The events that have not happened. -/
  events : List (Event σ)
  /-- What the events have happened to. -/
  world : σ

/-- Plays a job with at most `fuel` steps a turn and at most `rounds` turns. -/
def play (fuel : Nat) : (rounds : Nat) → List (Event σ) → Job → σ → Played σ
  | 0, events, _, w => ⟨none, events, w⟩
  | rounds + 1, events, j, w =>
    let b := bench w
    match Turn.run (step b.cancelled) fuel false j b.station with
    | .done s r => ⟨some r, events, setStation s w⟩
    | .waits s j _ =>
      let w := setStation s w
      match events, j.deadline? with
      | [], none => ⟨none, [], w⟩
      | [], some deadline => play fuel rounds [] j (setStation { s with now := deadline } w)
      | e :: rest, none =>
        play fuel rounds rest j (e.happen (setStation { s with now := max s.now e.time } w))
      | e :: rest, some deadline =>
        if e.time ≤ deadline then
          play fuel rounds rest j (e.happen (setStation { s with now := max s.now e.time } w))
        else play fuel rounds (e :: rest) j (setStation { s with now := deadline } w)

end Job

end PadScript
