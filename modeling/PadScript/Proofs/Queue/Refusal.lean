import PadScript.Proofs.Queue.Reach

/-!
# What a refused payload changes

A payload that is refused should leave everything as it is. A run in progress is told to end before
it is clear whether there is room for the new request, though, so a payload that is refused for want
of room can end a run.

* `Station.handle_of_error` : a refused payload changes nothing, or there was no room, and then a run
  in progress is cancelled.
* `Service.Run.cancelled_of_full` : payloads alone fill the queue behind a run only by cancelling it.
* `Service.handle_of_refused` : so **a refused payload changes nothing, unless the power-up has had a
  hand in it**. The request of the power-up cancels no run; when it has filled the queue, a refusal
  ends the run in progress (`Service.refused_and_cancelled`).
-/

namespace PadScript

/-- Reading a payload does not fail for want of room. -/
theorem Command.parse_ne_busy (payload : Text) : Command.parse payload ≠ .error .busy := by
  unfold Command.parse
  cases Payload.ofText? payload with
  | none => simp
  | some p =>
    simp only [Payload.command]
    split <;> simp

theorem Pad.setRealtime_ne_busy (line : Text) (now : Nat) (p : Pad) :
    p.setRealtime line now ≠ .error .busy := by
  unfold setRealtime
  split <;> simp

namespace RunQueue

theorem cancelled_cancelRun {q : RunQueue} (h : q.cancelRun.running = true) :
    q.cancelRun.cancelled = true := by
  have hrunning : q.running = true := h
  simp [cancelRun, hrunning]

/-- Only a run in progress that is not cancelled can be cancelled. -/
theorem cancelRun_eq_self_iff {q : RunQueue} :
    q.cancelRun = q ↔ ¬ (q.running = true ∧ q.cancelled = false) := by
  obtain ⟨requests, cancelled, running⟩ := q
  cases cancelled <;> cases running <;> simp [cancelRun]

end RunQueue

/-- A refused payload changes nothing, or there was no room, and then a run in progress is
cancelled. -/
theorem Station.handle_of_error {setup : Setup} {payload : Text} {s : Station} {e : CommandError}
    (h : (s.handle setup payload).1 = .error e) :
    (e ≠ .busy ∧ (s.handle setup payload).2 = s) ∨
      (e = .busy ∧ RunQueue.capacity ≤ s.queue.requests.length ∧
        (s.handle setup payload).2 = { s with queue := s.queue.cancelRun }) := by
  cases hparse : Command.parse payload with
  | error e' =>
    have hhandle : s.handle setup payload = (.error e', s) := by simp [handle, hparse]
    rw [hhandle] at h ⊢
    obtain rfl := Response.error.inj h
    exact .inl ⟨fun he => Command.parse_ne_busy payload (he ▸ hparse), rfl⟩
  | ok command =>
    simp only [handle, hparse] at h ⊢
    cases command with
    | start r =>
      simp only [apply] at h ⊢
      cases hknown : setup.knows r with
      | false =>
        rw [request_of_not_knows setup hknown] at h ⊢
        obtain rfl := Response.error.inj h
        exact .inl ⟨by simp, rfl⟩
      | true =>
        rw [request_of_start setup hknown] at h ⊢
        split at h
        · simp at h
        next hroom =>
          rw [if_neg hroom]
          exact .inr ⟨(Response.error.inj h).symm, Nat.le_of_not_lt hroom, rfl⟩
    | restart r =>
      simp only [apply] at h ⊢
      cases hknown : setup.knows r with
      | false =>
        rw [request_of_not_knows setup hknown] at h ⊢
        obtain rfl := Response.error.inj h
        exact .inl ⟨by simp, rfl⟩
      | true =>
        rw [request_of_restart setup hknown] at h
        simp at h
    | stop => simp [apply] at h
    | realtimeStart => simp [apply] at h
    | realtimeStop => simp [apply] at h
    | realtimeAction line =>
      simp only [apply] at h ⊢
      split at h
      · simp at h
      next e' hset =>
        obtain rfl := Response.error.inj h
        exact .inl ⟨fun he => Pad.setRealtime_ne_busy line s.now s.pad (he ▸ hset), rfl⟩

namespace Service

variable {setup : Setup} {clock : Clock} {now : Nat} {history : List Deed} {v : Service}

/-- Payloads alone fill the queue behind a run only by cancelling it: the runner has taken the
request of the run from the queue, and whatever came into its place since then asked for the end of
the run. -/
theorem Run.cancelled_of_full (h : Run setup (switchedOn setup clock now) history v)
    (hrunning : v.station.queue.running = true)
    (hfull : RunQueue.capacity ≤ v.station.queue.requests.length) :
    v.station.queue.cancelled = true := by
  induction h with
  | start => simp [switchedOn, Setup.station, RunQueue.idle] at hrunning
  | @step history deed v w hrun hstep ih =>
    cases hstep with
    | handle payload =>
      have heffect := v.station.handle_effect setup payload
      rw [handle] at hrunning hfull ⊢
      generalize (v.station.handle setup payload).1 = response at heffect
      generalize (v.station.handle setup payload).2 = s at heffect hrunning hfull ⊢
      generalize s.queue = q at heffect hrunning hfull ⊢
      cases heffect with
      | start _ _ _ => exact RunQueue.cancelled_cancelRun hrunning
      | busy _ _ _ => exact RunQueue.cancelled_cancelRun hrunning
      | restart _ _ => rfl
      | stop _ => rfl
      | none _ _ => exact ih hrunning hfull
    | take htakes =>
      -- one request fewer waits than there is room for
      have hfit := hrun.reach.fit.length_le
      obtain ⟨r, rest, hrequests, hrest, -, -⟩ := turn_of_takes setup htakes
      rw [hrequests, List.length_cons] at hfit
      rw [hrest] at hfull
      omega
    | play htakes =>
      rcases turn_of_not_takes setup htakes with ⟨-, hturn⟩ | ⟨-, -, hqueue⟩ | ⟨-, -, hqueue⟩
      · rw [hturn] at hrunning hfull ⊢
        exact ih hrunning hfull
      · rw [hqueue] at hrunning hfull ⊢
        exact ih hrunning hfull
      · simp [hqueue] at hrunning
    | @elsewhere s hqueue =>
      change s.queue.running = true at hrunning
      change RunQueue.capacity ≤ s.queue.requests.length at hfull
      change s.queue.cancelled = true
      rw [hqueue] at hrunning hfull ⊢
      exact ih hrunning hfull

/-- **What a refused payload changes**: at most the cancellation of a run in progress, and that only
if there was no room and the run was not cancelled yet. It does not come to that by payloads alone:
in a state that a service reaches without the power-up, a refused payload changes nothing. -/
theorem handle_of_refused {payload : Text} {e : CommandError}
    (h : (v.station.handle setup payload).1 = .error e) :
    v.handle setup payload = { v with station := { v.station with
        queue := if e = .busy then v.station.queue.cancelRun else v.station.queue } } ∧
      (v.handle setup payload = v ↔
        ¬ (e = .busy ∧ v.station.queue.running = true ∧ v.station.queue.cancelled = false)) ∧
      ∀ clock now history, Run setup (switchedOn setup clock now) history v →
        v.handle setup payload = v := by
  rcases Station.handle_of_error h with ⟨hne, hsame⟩ | ⟨rfl, hfull, hcancel⟩
  · have hunchanged : v.handle setup payload = v := by rw [handle, hsame]
    rw [hunchanged, if_neg hne]
    exact ⟨rfl, by simp [hne], fun _ _ _ _ => rfl⟩
  · have hchanged : v.handle setup payload =
        { v with station := { v.station with queue := v.station.queue.cancelRun } } := by
      rw [handle, hcancel]
    have hiff : v.handle setup payload = v ↔
        ¬ (v.station.queue.running = true ∧ v.station.queue.cancelled = false) := by
      rw [hchanged, ← RunQueue.cancelRun_eq_self_iff]
      exact ⟨fun hv => congrArg (fun v => v.station.queue) hv, fun hq => by rw [hq]⟩
    refine ⟨by rw [hchanged, if_pos rfl], by simpa using hiff, fun clock now history hrun => ?_⟩
    rw [hiff]
    rintro ⟨hrunning, hcancelled⟩
    rw [hrun.cancelled_of_full hrunning hfull] at hcancelled
    contradiction

/-- Two macros, one of which is asked for on power-up. -/
def duo : Setup where
  library :=
    [("f.a", "A:10"), ("f.b", "B:10")].foldl
      (fun l (name, line) => l.add (.named name.toList ⟨⟨[line.toList]⟩, ∅⟩)) .empty
  config := { Config.standard with profile := .horipadS, autorun := some ⟨"f.a".toList, 0⟩ }

/-- A payload that asks for a run without end. -/
def endless : Text := "\x7b\"name\":\"f.b\",\"loop\":0\x7d".toList

/-- Four requests come at once, and the runner takes the first of them. -/
def begun : Service :=
  ([endless, endless, endless, endless].foldl (fun v payload => v.handle duo payload)
    (switchedOn duo .prompt 0)).turn duo

/-- Then the host configures the pad. -/
def configured : Service :=
  { begun with station := { begun.station with
    wires := { begun.station.wires with configured := true } } }

/-- And the power-up fills the queue again. -/
def crowded : Service := configured.powerUp duo

theorem reach_crowded : Reach duo (switchedOn duo .prompt 0) crowded := by
  have hstart : Reach duo (switchedOn duo .prompt 0) (switchedOn duo .prompt 0) := .start
  have hfull := (((hstart.handle endless).handle endless).handle endless).handle endless
  have hbegun : Reach duo (switchedOn duo .prompt 0) begun := hfull.turn
  have hconfigured : Reach duo (switchedOn duo .prompt 0) configured := hbegun.elsewhere rfl
  exact hconfigured.powerUp

theorem handle_crowded :
    (crowded.station.handle duo endless).1 = .error .busy ∧
      crowded.station.queue.running = true ∧ crowded.station.queue.cancelled = false :=
  ⟨rfl, rfl, rfl⟩

/-- **A refused payload can end a run**: one that is refused behind the request of the power-up. -/
theorem refused_and_cancelled :
    Reach duo (switchedOn duo .prompt 0) crowded ∧
      (crowded.station.handle duo endless).1 = .error .busy ∧
      crowded.station.queue.cancelled = false ∧
      (crowded.handle duo endless).station.queue.cancelled = true := by
  obtain ⟨hbusy, hrunning, hcancelled⟩ := handle_crowded
  refine ⟨reach_crowded, hbusy, hcancelled, ?_⟩
  rcases Station.handle_of_error hbusy with ⟨hne, -⟩ | ⟨-, -, hcancel⟩
  · contradiction
  · rw [handle, hcancel]
    simp [RunQueue.cancelRun, hrunning]

/-- The refusal of one more request behind the four. -/
theorem handle_of_refused_crowded :
    (crowded.station.handle duo endless).1 = .error .busy ∧
      crowded.handle duo endless ≠ crowded := by
  obtain ⟨hbusy, hrunning, hcancelled⟩ := handle_crowded
  refine ⟨hbusy, fun hsame => ?_⟩
  exact (handle_of_refused hbusy).2.1.1 hsame ⟨rfl, hrunning, hcancelled⟩

end Service

end PadScript
