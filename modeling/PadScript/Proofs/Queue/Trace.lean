import PadScript.Proofs.Queue.Reach
import PadScript.Proofs.Run.Trace

/-!
# Traces of a service

A service shows of itself how it answers payloads, which requests the runner takes, and how its runs
end. `Service.Trace` is what it shows up to some moment, in any order of payloads and steps of the
runner.

* `Service.Event.accepts`, `Service.Event.clears` : what an answer means for the requests.
* `Service.requests_handle` : so it is for the queue.
* `Service.Trace.ended_not_mem` : **no request that is taken ends for want of its macro.**
-/

namespace PadScript

namespace Service

/-- Something that a service shows of itself. -/
inductive Event where
  /-- A payload is answered. -/
  | answered (payload : Text) (response : Response)
  /-- The runner takes a request. -/
  | took (request : PlayRequest)
  /-- A request ends like this. -/
  | ended (outcome : RunOutcome)

namespace Event

/-- The request that is accepted, with the name of the macro that its own name stands for. -/
def accepts (setup : Setup) : Event → Option PlayRequest
  | answered payload .queued =>
    match Command.parse payload with
    | .ok (.start r) => some (setup.resolved r)
    | .ok (.restart r) => some (setup.resolved r)
    | _ => none
  | _ => none

/-- The requests that wait are dropped: a stop is accepted, or a restart. -/
def clears : Event → Bool
  | answered payload .accepted =>
    match Command.parse payload with
    | .ok .stop => true
    | _ => false
  | answered payload .queued =>
    match Command.parse payload with
    | .ok (.restart _) => true
    | _ => false
  | _ => false

end Event

variable (setup : Setup)

/-- What the next step of the runner shows. -/
def shows (v : Service) : List Event :=
  match v.runner with
  | .idle =>
    match v.station.queue.dequeue? with
    | none => []
    | some (request, _) =>
      match Execution.start? setup request v.station with
      | some _ => [.took request]
      | none => [.took request, .ended (.failed .unknownMacro)]
  | .playing e =>
    match e.step v.station with
    | .done _ outcome => [.ended outcome]
    | _ => []

/-- What a service shows, the oldest event first, and the states that it reaches. -/
inductive Trace (first : Service) : List Event → Service → Prop
  /-- Nothing has happened. -/
  | start : Trace first [] first
  /-- A payload is handled. -/
  | handle {events : List Event} {v : Service} (payload : Text) : Trace first events v →
      Trace first (events ++ [.answered payload (v.station.handle setup payload).1])
        (v.handle setup payload)
  /-- The runner makes a step. -/
  | turn {events : List Event} {v : Service} : Trace first events v →
      Trace first (events ++ v.shows setup) (v.turn setup)
  /-- Something happens away from the queue. -/
  | elsewhere {events : List Event} {v : Service} {s : Station} : Trace first events v →
      s.queue = v.station.queue → Trace first events { v with station := s }

variable {setup} {first v : Service} {events : List Event} {clock : Clock} {now : Nat}

theorem Trace.reach (h : Trace setup first events v) : Reach setup first v := by
  induction h with
  | start => exact .start
  | handle payload _ ih => exact ih.handle payload
  | turn _ ih => exact ih.turn
  | elsewhere _ hqueue ih => exact ih.elsewhere hqueue

/-- What an answer means for the requests that wait. -/
theorem requests_of_effect {payload : Text} {response : Response} {q q' : RunQueue}
    (h : QueueEffect setup payload q response q') :
    q'.requests = (if (Event.answered payload response).clears then [] else q.requests) ++
      ((Event.answered payload response).accepts setup).toList := by
  cases h with
  | start hparse _ _ => simp [Event.clears, Event.accepts, hparse]
  | busy hparse _ _ => simp [Event.clears, Event.accepts, RunQueue.cancelRun]
  | restart hparse _ => simp [Event.clears, Event.accepts, hparse]
  | stop hparse => simp [Event.clears, Event.accepts, hparse, RunQueue.stop]
  | none hnot hqueued =>
    have haccepts : (Event.answered payload response).accepts setup = none := by
      cases response <;> simp_all [Event.accepts]
    have hclears : (Event.answered payload response).clears = false := by
      cases response with
      | accepted =>
        simp only [Event.clears]
        split
        next hparse => simp [Setup.supersedes, hparse] at hnot
        next => rfl
      | queued => simp at hqueued
      | error e => rfl
    simp [haccepts, hclears]

/-- What the answer to a payload means for the queue. -/
theorem requests_handle (payload : Text) (v : Service) :
    (v.handle setup payload).station.queue.requests =
      (if (Event.answered payload (v.station.handle setup payload).1).clears then []
        else v.station.queue.requests) ++
      ((Event.answered payload (v.station.handle setup payload).1).accepts setup).toList :=
  requests_of_effect (v.station.handle_effect setup payload)

/-- A restart of a macro that is there is always accepted. -/
theorem handle_of_restart {payload : Text} {r : PlayRequest}
    (hparse : Command.parse payload = .ok (.restart r)) (hknown : setup.knows r = true)
    (s : Station) : (s.handle setup payload).1 = .queued := by
  simp [Station.handle, hparse, Station.apply, Station.request_of_restart setup hknown]

/-! ### No request ends for want of its macro -/

/-- A run can begin for a request if there is a macro of its name. -/
theorem exists_start {r : PlayRequest} (hknown : setup.library.contains r.name = true)
    (s : Station) : ∃ cursor, Execution.start? setup r s =
      some (⟨r.loopCount, cursor, 0, false, .choosing⟩,
        { s with queue := { s.queue with running := true } }) := by
  obtain ⟨cursor, hcursor⟩ :
      ∃ cursor, Cursor.start? setup.library r.name r.overrides = some cursor := by
    rw [Library.contains, Std.TreeMap.contains_eq_isSome_getElem?] at hknown
    rw [← Option.isSome_iff_exists, Cursor.start?, Option.isSome_map]
    exact hknown
  exact ⟨cursor, Execution.start?_of_cursor hcursor s⟩

/-- The run in progress does not fail for want of its macro. -/
def HasMacro (v : Service) : Prop := ∀ e, v.runner = .playing e → e.HasMacro

theorem HasMacro.turn (h : v.HasMacro) : (v.turn setup).HasMacro := by
  obtain ⟨runner, s⟩ := v
  intro e' hplaying
  cases runner with
  | idle =>
    cases hrequests : s.queue.requests with
    | nil => simp [Service.turn, Runner.turn_of_idle hrequests] at hplaying
    | cons request rest =>
      rw [Service.turn, Runner.turn_of_request hrequests] at hplaying
      split at hplaying
      · obtain rfl := Runner.playing.inj hplaying
        exact fun x result hphase => by simp at hphase
      · simp at hplaying
  | playing e =>
    have hmacro : e.HasMacro := h e rfl
    cases hstep : e.step s with
    | wait s' e'' again =>
      simp only [Service.turn, Runner.turn, Runner.step, hstep, Turn.within,
        Runner.playing.injEq] at hplaying
      subst hplaying
      exact hmacro.of_left (by rw [hstep]; rfl)
    | go s' e'' =>
      simp only [Service.turn, Runner.turn, Runner.step, hstep, Turn.within,
        Runner.playing.injEq] at hplaying
      subst hplaying
      exact hmacro.of_left (by rw [hstep]; rfl)
    | done s' outcome =>
      simp [Service.turn, Runner.turn, Runner.step, hstep, Turn.within] at hplaying

/-- A step of the runner does not show that there is no macro. -/
theorem ended_not_mem_shows (h : v.HasMacro) (hfit : v.station.queue.Fit setup) :
    .ended (.failed .unknownMacro) ∉ v.shows setup := by
  obtain ⟨runner, s⟩ := v
  cases runner with
  | idle =>
    cases hrequests : s.queue.requests with
    | nil => simp [shows, RunQueue.dequeue?, hrequests]
    | cons r rest =>
      obtain ⟨cursor, hstart⟩ := exists_start (hfit.known r (by simp [hrequests])) s
      simp [shows, RunQueue.dequeue?, hrequests, hstart]
  | playing e =>
    simp only [shows]
    split
    next hstep =>
      have houtcome := (h e rfl).outcome_ne hstep
      simpa using houtcome.symm
    next => simp

/-- **No request that is taken ends for want of its macro.** -/
theorem Trace.ended_not_mem (h : Trace setup (switchedOn setup clock now) events v) :
    v.HasMacro ∧ .ended (.failed .unknownMacro) ∉ events := by
  induction h with
  | start => exact ⟨fun e hplaying => by simp [switchedOn] at hplaying, by simp⟩
  | handle payload _ ih => exact ⟨ih.1, by simpa using ih.2⟩
  | turn htrace ih =>
    refine ⟨ih.1.turn, fun hmem => ?_⟩
    rcases List.mem_append.1 hmem with hmem | hmem
    · exact ih.2 hmem
    · exact ended_not_mem_shows ih.1 htrace.reach.fit hmem
  | elsewhere _ _ ih => exact ih

end Service

end PadScript
