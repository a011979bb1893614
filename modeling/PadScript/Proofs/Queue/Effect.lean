import PadScript.Play.Execution

/-!
# What becomes of the queue

Two parties share the queue of runs: the command link, which handles payloads, and the runner. This
file says once what each of them can do to it.

* `Station.handle_effect` : handling a payload has one of five effects on the queue.
* `Execution.step_queue` : a run leaves the queue alone until it is over, and is in progress until
  then.
* `Runner.turn_of_idle`, `Runner.turn_of_request`, `Runner.turn_of_playing` : what a step of the
  runner comes to.
-/

namespace PadScript

/-! ### The command link -/

namespace Setup

/-- The request with the name of the macro that its own name stands for. -/
def resolved (setup : Setup) (r : PlayRequest) : PlayRequest :=
  { r with name := setup.config.resolve r.name }

/-- There is a macro for the request. -/
def knows (setup : Setup) (r : PlayRequest) : Bool := setup.library.contains (setup.resolved r).name

/-- The payload asks for the end of the run in progress: it asks for a stop, or for the run of a
macro that is there. -/
def supersedes (setup : Setup) (payload : Text) : Bool :=
  match Command.parse payload with
  | .ok (.start r) => setup.knows r
  | .ok (.restart r) => setup.knows r
  | .ok .stop => true
  | _ => false

end Setup

/-- The effect of a payload on the queue, and the answer. -/
inductive QueueEffect (setup : Setup) (payload : Text) (q : RunQueue) : Response → RunQueue → Prop
  /-- A request is put behind the others, and the run in progress is to end. -/
  | start {r : PlayRequest} : Command.parse payload = .ok (.start r) → setup.knows r = true →
      q.requests.length < RunQueue.capacity →
      QueueEffect setup payload q .queued
        { q.cancelRun with requests := q.requests ++ [setup.resolved r] }
  /-- There is no room for the request; the run in progress is to end nevertheless. -/
  | busy {r : PlayRequest} : Command.parse payload = .ok (.start r) → setup.knows r = true →
      RunQueue.capacity ≤ q.requests.length →
      QueueEffect setup payload q (.error .busy) q.cancelRun
  /-- A request is put in place of the others, and the run in progress is to end. -/
  | restart {r : PlayRequest} : Command.parse payload = .ok (.restart r) → setup.knows r = true →
      QueueEffect setup payload q .queued { q.stop with requests := [setup.resolved r] }
  /-- The requests are dropped, and the run in progress is to end. -/
  | stop : Command.parse payload = .ok .stop → QueueEffect setup payload q .accepted q.stop
  /-- The payload is not about the queue, or is refused. -/
  | none {response : Response} : setup.supersedes payload = false → response ≠ .queued →
      QueueEffect setup payload q response q

namespace Station

variable (setup : Setup)

theorem request_of_not_knows {r : PlayRequest} (h : setup.knows r = false) (afresh : Bool)
    (s : Station) : s.request setup r afresh = (.error .unknownMacro, s) := by
  have hname : setup.library.contains (setup.config.resolve r.name) = false := h
  simp [request, hname]

theorem request_of_start {r : PlayRequest} (h : setup.knows r = true) (s : Station) :
    s.request setup r false =
      if s.queue.requests.length < RunQueue.capacity then
        (.queued, { s with
          queue := { s.queue.cancelRun with
            requests := s.queue.requests ++ [setup.resolved r] } })
      else (.error .busy, { s with queue := s.queue.cancelRun }) := by
  have hname : setup.library.contains (setup.config.resolve r.name) = true := h
  by_cases hroom : s.queue.requests.length < RunQueue.capacity
  · simp [request, hname, RunQueue.enqueue, RunQueue.cancelRun, hroom, Setup.resolved]
  · simp [request, hname, RunQueue.enqueue, RunQueue.cancelRun, hroom]

theorem request_of_restart {r : PlayRequest} (h : setup.knows r = true) (s : Station) :
    s.request setup r true =
      (.queued, { s with queue := { s.queue.stop with requests := [setup.resolved r] } }) := by
  have hname : setup.library.contains (setup.config.resolve r.name) = true := h
  simp [request, hname, RunQueue.enqueue, RunQueue.stop, RunQueue.capacity, Setup.resolved]

/-- **What handling a payload does to the queue.** -/
theorem handle_effect (payload : Text) (s : Station) :
    QueueEffect setup payload s.queue (s.handle setup payload).1
      (s.handle setup payload).2.queue := by
  cases hparse : Command.parse payload with
  | error e =>
    simp only [handle, hparse]
    exact .none (by simp [Setup.supersedes, hparse]) (by simp)
  | ok command =>
    simp only [handle, hparse]
    cases command with
    | start r =>
      simp only [apply]
      cases hknown : setup.knows r with
      | false =>
        rw [request_of_not_knows setup hknown]
        exact .none (by simp [Setup.supersedes, hparse, hknown]) (by simp)
      | true =>
        rw [request_of_start setup hknown]
        split
        next hroom => exact .start hparse hknown hroom
        next hroom => exact .busy hparse hknown (Nat.le_of_not_lt hroom)
    | restart r =>
      simp only [apply]
      cases hknown : setup.knows r with
      | false =>
        rw [request_of_not_knows setup hknown]
        exact .none (by simp [Setup.supersedes, hparse, hknown]) (by simp)
      | true =>
        rw [request_of_restart setup hknown]
        exact .restart hparse hknown
    | stop => exact .stop hparse
    | realtimeStart => exact .none (by simp [Setup.supersedes, hparse]) (by simp [apply])
    | realtimeStop => exact .none (by simp [Setup.supersedes, hparse]) (by simp [apply])
    | realtimeAction line =>
      simp only [apply]
      split
      · exact .none (by simp [Setup.supersedes, hparse]) (by simp)
      · exact .none (by simp [Setup.supersedes, hparse]) (by simp)

end Station

/-! ### The runner -/

/-- A run leaves the queue alone until it is over. -/
theorem Execution.step_queue (e : Execution) (s : Station) :
    match e.step s with
    | .wait s' _ _ => s'.queue = s.queue
    | .go s' _ => s'.queue = s.queue
    | .done s' _ => s'.queue = { s.queue with running := false } := by
  unfold step
  cases e.phase with
  | choosing => rfl
  | acting a =>
    dsimp only
    cases a.step s.now s.queue.cancelled s.pad with
    | wait pad a again => rfl
    | go pad a => rfl
    | done pad result => cases result <;> rfl
  | releasing send result =>
    dsimp only
    cases send.step s.now false s.pad with
    | wait pad send again => rfl
    | go pad send => rfl
    | done pad sent => rfl

namespace Runner

variable (setup : Setup)

/-- The runner and what it shares after a step. It is never done. -/
def turn (r : Runner) (s : Station) : Runner × Station :=
  match r.step setup s with
  | .wait s r _ => (r, s)
  | .go s r => (r, s)
  | .done s () => (.idle, s)

variable {setup} {s : Station}

/-- With no request the runner waits. -/
theorem turn_of_idle (h : s.queue.requests = []) : turn setup .idle s = (.idle, s) := by
  simp [turn, step, RunQueue.dequeue?, h]

/-- A request is taken, and nothing cancels its run yet. If its macro is not there, it is
dropped. -/
theorem turn_of_request {request : PlayRequest} {rest : List PlayRequest}
    (h : s.queue.requests = request :: rest) :
    turn setup .idle s =
      match Cursor.start? setup.library request.name request.overrides with
      | some cursor =>
        (.playing ⟨request.loopCount, cursor, 0, false, .choosing⟩,
          { s with queue := ⟨rest, false, true⟩ })
      | none => (.idle, { s with queue := ⟨rest, false, s.queue.running⟩ }) := by
  cases hstart : Cursor.start? setup.library request.name request.overrides with
  | none => simp [turn, step, RunQueue.dequeue?, h, Execution.start?, hstart]
  | some cursor => simp [turn, step, RunQueue.dequeue?, h, Execution.start?, hstart]

/-- A run goes on and leaves the queue alone, or it ends. -/
theorem turn_of_playing (setup : Setup) (s : Station) (e : Execution) :
    (∃ e' s', turn setup (.playing e) s = (.playing e', s') ∧ s'.queue = s.queue) ∨
      ∃ s', turn setup (.playing e) s = (.idle, s') ∧
        s'.queue = { s.queue with running := false } := by
  have hqueue := e.step_queue s
  cases hstep : e.step s with
  | wait s' e' again =>
    rw [hstep] at hqueue
    exact .inl ⟨e', s', by simp [turn, step, hstep, Turn.within], hqueue⟩
  | go s' e' =>
    rw [hstep] at hqueue
    exact .inl ⟨e', s', by simp [turn, step, hstep, Turn.within], hqueue⟩
  | done s' outcome =>
    rw [hstep] at hqueue
    exact .inr ⟨s', by simp [turn, step, hstep, Turn.within], hqueue⟩

end Runner

end PadScript
