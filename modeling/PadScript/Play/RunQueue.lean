import PadScript.Control.Command

/-!
# The queue of runs

`RunQueue` is what the command link and the runner share: the requests that wait, at most
`capacity` of them, and the two flags of the run in progress.
-/

namespace PadScript

/-- The requests that wait, and the state of the run in progress. -/
structure RunQueue where
  /-- The requests, the oldest first. -/
  requests : List PlayRequest
  /-- The run is to end. -/
  cancelled : Bool
  /-- There is a run. -/
  running : Bool

namespace RunQueue

/-- How many requests can wait. -/
def capacity : Nat := 4

/-- No request and no run. -/
def idle : RunQueue := ⟨[], false, false⟩

/-- Puts a request behind the others, if there is room. -/
def enqueue (c : RunQueue) (r : PlayRequest) : Except CommandError RunQueue :=
  if c.requests.length < capacity then .ok { c with requests := c.requests ++ [r] }
  else .error .busy

/-- Ends the run, if there is one. -/
def cancelRun (c : RunQueue) : RunQueue := { c with cancelled := c.cancelled || c.running }

/-- Ends the run and drops every request. -/
def stop (c : RunQueue) : RunQueue := { c with cancelled := true, requests := [] }

/-- Takes the oldest request. -/
def dequeue? (c : RunQueue) : Option (PlayRequest × RunQueue) :=
  match c.requests with
  | [] => none
  | r :: rest => some (r, { c with requests := rest })

end RunQueue

end PadScript
