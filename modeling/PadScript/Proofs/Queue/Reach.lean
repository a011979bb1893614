import PadScript.Play.CommandLink
import PadScript.Proofs.Queue.Ledger

/-!
# The states that a service reaches

Besides the payloads and the runner, one more party puts a request into the queue: the task that
asks for the run on power-up. It asks no run to end. `Service.Reach` is every state that comes about
with its help, in any order of what happens.

* `Service.Reach.fit` : **the requests that wait are few, and there is a macro for each of them**, in
  every state that is reached.
* `Service.Run.reach` : without the power-up a service reaches nothing else.
-/

namespace PadScript

/-- What holds of the requests that wait. -/
structure RunQueue.Fit (setup : Setup) (q : RunQueue) : Prop where
  /-- There is room for them. -/
  length_le : q.requests.length ≤ capacity
  /-- There is a macro of each name. -/
  known : ∀ r ∈ q.requests, setup.library.contains r.name = true

/-- One more request waits. -/
theorem RunQueue.Fit.append {setup : Setup} {q : RunQueue} (h : q.Fit setup) {r : PlayRequest}
    (hknown : setup.library.contains r.name = true) (hroom : q.requests.length < capacity) :
    RunQueue.Fit setup { q with requests := q.requests ++ [r] } where
  length_le := by
    rw [List.length_append]
    exact hroom
  known p hp := by
    rcases List.mem_append.1 hp with hp | hp
    · exact h.known p hp
    · obtain rfl := List.mem_singleton.1 hp
      exact hknown

namespace Service

variable (setup : Setup)

/-- The service when the task of the power-up has made a step. -/
def powerUp (v : Service) : Service :=
  match PowerUp.step setup v.station with
  | .wait s _ _ => { v with station := s }
  | .go s _ => { v with station := s }
  | .done s _ => { v with station := s }

/-- The states that a service reaches. -/
inductive Reach (first : Service) : Service → Prop
  /-- Nothing has happened. -/
  | start : Reach first first
  /-- A payload is handled. -/
  | handle {v : Service} (payload : Text) : Reach first v → Reach first (v.handle setup payload)
  /-- The runner makes a step. -/
  | turn {v : Service} : Reach first v → Reach first (v.turn setup)
  /-- The task of the power-up makes a step. -/
  | powerUp {v : Service} : Reach first v → Reach first (v.powerUp setup)
  /-- Something happens away from the queue. -/
  | elsewhere {v : Service} {s : Station} : Reach first v → s.queue = v.station.queue →
      Reach first { v with station := s }

variable {setup} {first v : Service}

/-- A service reaches the states of its runs. -/
theorem Run.reach {history : List Deed} (h : Run setup first history v) : Reach setup first v := by
  induction h with
  | start => exact .start
  | step _ hstep ih =>
    cases hstep with
    | handle payload => exact ih.handle payload
    | take _ => exact ih.turn
    | play _ => exact ih.turn
    | elsewhere hqueue => exact ih.elsewhere hqueue

theorem fit_of_effect {payload : Text} {response : Response} {q q' : RunQueue}
    (heffect : QueueEffect setup payload q response q') (h : q.Fit setup) : q'.Fit setup := by
  cases heffect with
  | start _ hknown hroom =>
    have hcancel : q.cancelRun.Fit setup := ⟨h.length_le, h.known⟩
    exact hcancel.append hknown hroom
  | busy _ _ _ => exact ⟨h.length_le, h.known⟩
  | restart _ hknown =>
    refine ⟨by simp [RunQueue.capacity], fun r hr => ?_⟩
    obtain rfl := List.mem_singleton.1 hr
    exact hknown
  | stop _ => exact ⟨by simp [RunQueue.stop], by simp [RunQueue.stop]⟩
  | none _ _ => exact h

theorem fit_turn (h : v.station.queue.Fit setup) : (v.turn setup).station.queue.Fit setup := by
  cases htakes : v.takes with
  | true =>
    obtain ⟨r, rest, hrequests, hrest, -, -⟩ := turn_of_takes setup htakes
    have hlength := h.length_le
    rw [hrequests, List.length_cons] at hlength
    refine ⟨by rw [hrest]; omega, fun q hq => h.known q ?_⟩
    rw [hrest] at hq
    simp [hrequests, hq]
  | false =>
    rcases turn_of_not_takes setup htakes with ⟨-, hturn⟩ | ⟨-, -, hqueue⟩ | ⟨-, -, hqueue⟩
    · rw [hturn]
      exact h
    · rw [hqueue]
      exact h
    · rw [hqueue]
      exact ⟨h.length_le, h.known⟩

/-- The power-up leaves the queue alone, or puts a request behind the others: one for which there is
a macro and room. It cancels nothing. -/
theorem queue_powerUp (setup : Setup) (v : Service) :
    (v.powerUp setup).station.queue = v.station.queue ∨
      ∃ r, setup.library.contains r.name = true ∧
        v.station.queue.requests.length < RunQueue.capacity ∧
        (v.powerUp setup).station.queue =
          { v.station.queue with requests := v.station.queue.requests ++ [r] } := by
  unfold powerUp PowerUp.step
  cases setup.config.startupRequest? with
  | none => exact .inl rfl
  | some r =>
    cases v.station.wires.configured with
    | false => exact .inl rfl
    | true =>
      cases hknown : setup.library.contains r.name with
      | false =>
        simp only [hknown]
        exact .inl rfl
      | true =>
        simp only [hknown, RunQueue.enqueue]
        by_cases hroom : v.station.queue.requests.length < RunQueue.capacity
        · rw [if_pos hroom]
          exact .inr ⟨r, hknown, hroom, rfl⟩
        · rw [if_neg hroom]
          exact .inl rfl

theorem fit_powerUp (h : v.station.queue.Fit setup) :
    (v.powerUp setup).station.queue.Fit setup := by
  rcases queue_powerUp setup v with hqueue | ⟨r, hknown, hroom, hqueue⟩
  · rw [hqueue]
    exact h
  · rw [hqueue]
    exact h.append hknown hroom

/-- **In every state that is reached, the requests that wait are few, and there is a macro for each
of them.** -/
theorem Reach.fit {clock : Clock} {now : Nat} (h : Reach setup (switchedOn setup clock now) v) :
    v.station.queue.Fit setup := by
  induction h with
  | start => exact ⟨by simp [switchedOn, Setup.station, RunQueue.idle],
      by simp [switchedOn, Setup.station, RunQueue.idle]⟩
  | handle payload _ ih => exact fit_of_effect (Station.handle_effect setup payload _) ih
  | turn _ ih => exact fit_turn ih
  | powerUp _ ih => exact fit_powerUp ih
  | elsewhere _ hqueue ih =>
    rw [hqueue]
    exact ih

end Service

end PadScript
