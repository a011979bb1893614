import PadScript.Proofs.Queue.Refusal
import PadScript.Proofs.Queue.Trace

/-!
# No request is lost, and none is served twice

A trace of a service is a list of events, and a moment is a position in it. `Service.Accounts` pairs
every moment at which the runner takes a request with the moment at which that request was accepted,
and says what has become of the others.

* `Service.Accounts.answer`, `Service.Accounts.take` : one event more.
* `Service.Trace.served_in_order` : **the runner takes the requests that were accepted, in order,
  each at most once, and leaves out only those that a stop or a restart has dropped.**
-/

namespace PadScript

namespace Service

variable {setup : Setup} {events : List Event} {event : Event} {i j k : Nat} {r : PlayRequest}

/-- A request is accepted at a moment. -/
def AcceptedAt (setup : Setup) (events : List Event) (i : Nat) (r : PlayRequest) : Prop :=
  ∃ event, events[i]? = some event ∧ event.accepts setup = some r

/-- The requests that wait are dropped at a moment. -/
def ClearedAt (events : List Event) (k : Nat) : Prop :=
  ∃ event, events[k]? = some event ∧ event.clears = true

/-- The runner takes a request at a moment. -/
def TakenAt (events : List Event) (j : Nat) (r : PlayRequest) : Prop :=
  events[j]? = some (.took r)

theorem getElem?_concat_iff {e : Event} :
    (events ++ [event])[i]? = some e ↔ events[i]? = some e ∨ (i = events.length ∧ event = e) := by
  rcases Nat.lt_trichotomy i events.length with hlt | rfl | hgt
  · rw [List.getElem?_append_left hlt]
    simp [Nat.ne_of_lt hlt]
  · simp
  · rw [List.getElem?_eq_none (by rw [List.length_append, List.length_singleton]; omega),
      List.getElem?_eq_none (Nat.le_of_lt hgt)]
    simp [Nat.ne_of_gt hgt]

theorem acceptedAt_concat_iff : AcceptedAt setup (events ++ [event]) i r ↔
    AcceptedAt setup events i r ∨ (i = events.length ∧ event.accepts setup = some r) := by
  simp only [AcceptedAt, getElem?_concat_iff, or_and_right, exists_or, and_assoc,
    exists_eq_left', exists_and_left]

theorem clearedAt_concat_iff : ClearedAt (events ++ [event]) k ↔
    ClearedAt events k ∨ (k = events.length ∧ event.clears = true) := by
  simp only [ClearedAt, getElem?_concat_iff, or_and_right, exists_or, and_assoc,
    exists_eq_left', exists_and_left]

theorem AcceptedAt.lt (h : AcceptedAt setup events i r) : i < events.length := by
  obtain ⟨event, hevent, -⟩ := h
  exact (List.getElem?_eq_some_iff.1 hevent).1

theorem ClearedAt.lt (h : ClearedAt events k) : k < events.length := by
  obtain ⟨event, hevent, -⟩ := h
  exact (List.getElem?_eq_some_iff.1 hevent).1

theorem TakenAt.lt (h : TakenAt events j r) : j < events.length :=
  (List.getElem?_eq_some_iff.1 h).1

/-- What has become of the requests: `served` pairs the moments at which they were accepted and
taken, and `waiting` are those that wait, with the moments at which they were accepted. -/
structure Accounts (setup : Setup) (events : List Event) (requests : List PlayRequest)
    (served : List (Nat × Nat)) (waiting : List (Nat × PlayRequest)) : Prop where
  /-- Every request taken is in the accounts. -/
  taken : ∀ j r, TakenAt events j r → ∃ i, (i, j) ∈ served
  /-- It was accepted before. -/
  accepted : ∀ p ∈ served, p.1 < p.2 ∧ ∃ r, AcceptedAt setup events p.1 r ∧ TakenAt events p.2 r
  /-- It was not dropped in between. -/
  undropped : ∀ p ∈ served, ∀ k, p.1 < k → k < p.2 → ¬ ClearedAt events k
  /-- Requests are taken in the order in which they were accepted, each at most once. -/
  ordered : served.Pairwise fun p q => p.1 < q.1 ∧ p.2 < q.2
  /-- The requests that wait are those of the queue. -/
  queue : waiting.map Prod.snd = requests
  /-- They were accepted. -/
  waits : ∀ w ∈ waiting, AcceptedAt setup events w.1 w.2
  /-- They have not been dropped since. -/
  kept : ∀ w ∈ waiting, ∀ k, w.1 < k → ¬ ClearedAt events k
  /-- They wait in the order in which they were accepted. -/
  upwards : waiting.Pairwise fun w u => w.1 < u.1
  /-- They were accepted after those that were taken. -/
  behind : ∀ p ∈ served, ∀ w ∈ waiting, p.1 < w.1
  /-- Every request accepted is taken, or waits, or has been dropped since. -/
  complete : ∀ i r, AcceptedAt setup events i r →
    (∃ j, (i, j) ∈ served) ∨ (i, r) ∈ waiting ∨ ∃ k, i < k ∧ ClearedAt events k

namespace Accounts

variable {requests : List PlayRequest} {served : List (Nat × Nat)}
  {waiting : List (Nat × PlayRequest)}

/-- A request is taken only after it was accepted, so at a moment in the trace. -/
theorem lt_of_mem (h : Accounts setup events requests served waiting) {p : Nat × Nat}
    (hp : p ∈ served) : p.1 < events.length ∧ p.2 < events.length := by
  obtain ⟨-, r, haccepted, htaken⟩ := h.accepted p hp
  exact ⟨haccepted.lt, htaken.lt⟩

/-- What is behind stays behind when an event is added. -/
theorem undropped_concat (h : Accounts setup events requests served waiting) {p : Nat × Nat}
    (hp : p ∈ served) (hfrom : p.1 < k) (htil : k < p.2) : ¬ ClearedAt (events ++ [event]) k := by
  rw [clearedAt_concat_iff]
  rintro (hcleared | ⟨rfl, -⟩)
  · exact h.undropped p hp k hfrom htil hcleared
  · exact Nat.lt_asymm htil (h.lt_of_mem hp).2

theorem accepted_concat (h : Accounts setup events requests served waiting) {p : Nat × Nat}
    (hp : p ∈ served) :
    p.1 < p.2 ∧ ∃ r, AcceptedAt setup (events ++ [event]) p.1 r ∧
      TakenAt (events ++ [event]) p.2 r := by
  obtain ⟨hlt, r, haccepted, htaken⟩ := h.accepted p hp
  exact ⟨hlt, r, acceptedAt_concat_iff.2 (.inl haccepted), getElem?_concat_iff.2 (.inl htaken)⟩

theorem start (setup : Setup) : Accounts setup [] [] [] [] where
  taken j r htaken := by simp [TakenAt] at htaken
  accepted := by simp
  undropped := by simp
  ordered := .nil
  queue := rfl
  waits := by simp
  kept := by simp
  upwards := .nil
  behind := by simp
  complete i r haccepted := by simp [AcceptedAt] at haccepted

/-- **One more event at which no request is taken.** It may drop the requests that wait, and then it
may be that one more is accepted. -/
theorem answer (h : Accounts setup events requests served waiting)
    (hnot : ∀ r, event ≠ .took r) :
    Accounts setup (events ++ [event])
      ((if event.clears then [] else requests) ++ (event.accepts setup).toList) served
      ((if event.clears then [] else waiting) ++
        ((event.accepts setup).map (events.length, ·)).toList) := by
  -- a request that waits now has waited before, or it is the one just accepted
  have hwaiting : ∀ w ∈ (if event.clears then [] else waiting) ++
      ((event.accepts setup).map (events.length, ·)).toList,
      (event.clears = false ∧ w ∈ waiting) ∨
        (w.1 = events.length ∧ event.accepts setup = some w.2) := by
    intro w hw
    rcases List.mem_append.1 hw with hw | hw
    · cases hclears : event.clears with
      | true => simp [hclears] at hw
      | false => exact .inl ⟨rfl, by simpa [hclears] using hw⟩
    · obtain ⟨r, hr, rfl⟩ := Option.map_eq_some_iff.1 (Option.mem_toList.1 hw)
      exact .inr ⟨rfl, hr⟩
  refine ⟨?_, ?_, ?_, h.ordered, ?_, ?_, ?_, ?_, ?_, ?_⟩
  · intro j r htaken
    rcases getElem?_concat_iff.1 htaken with htaken | ⟨-, htook⟩
    · exact h.taken j r htaken
    · exact absurd htook (hnot r)
  · exact fun p hp => h.accepted_concat hp
  · exact fun p hp k hfrom htil => h.undropped_concat hp hfrom htil
  · rw [List.map_append, ← h.queue]
    cases event.clears <;> cases event.accepts setup <;> simp
  · intro w hw
    rcases hwaiting w hw with ⟨-, hw⟩ | hw
    · exact acceptedAt_concat_iff.2 (.inl (h.waits w hw))
    · exact acceptedAt_concat_iff.2 (.inr hw)
  · intro w hw k hk
    rw [clearedAt_concat_iff]
    rintro (hcleared | ⟨rfl, hclears⟩)
    · rcases hwaiting w hw with ⟨-, hw⟩ | ⟨hlast, -⟩
      · exact h.kept w hw k hk hcleared
      · have := hcleared.lt
        omega
    · rcases hwaiting w hw with ⟨hnone, -⟩ | ⟨hlast, -⟩
      · simp [hclears] at hnone
      · omega
  · rw [List.pairwise_append]
    refine ⟨?_, by cases event.accepts setup <;> simp, ?_⟩
    · cases event.clears with
      | true => exact .nil
      | false => exact h.upwards
    · intro w hw u hu
      obtain ⟨r, -, rfl⟩ := Option.map_eq_some_iff.1 (Option.mem_toList.1 hu)
      cases hclears : event.clears with
      | true => simp [hclears] at hw
      | false => exact (h.waits w (by simpa [hclears] using hw)).lt
  · intro p hp w hw
    rcases hwaiting w hw with ⟨-, hw⟩ | ⟨hlast, -⟩
    · exact h.behind p hp w hw
    · rw [hlast]
      exact (h.lt_of_mem hp).1
  · intro i r haccepted
    rcases acceptedAt_concat_iff.1 haccepted with hbefore | ⟨rfl, haccepts⟩
    · rcases h.complete i r hbefore with hserved | hw | ⟨k, hk, hcleared⟩
      · exact .inl hserved
      · cases hclears : event.clears with
        | true =>
          exact .inr (.inr ⟨events.length, hbefore.lt, clearedAt_concat_iff.2 (.inr ⟨rfl, hclears⟩)⟩)
        | false => exact .inr (.inl (by simp [hw]))
      · exact .inr (.inr ⟨k, hk, clearedAt_concat_iff.2 (.inl hcleared)⟩)
    · exact .inr (.inl (by simp [haccepts]))

/-- **One more event: the oldest request is taken.** -/
theorem take (h : Accounts setup events (r :: requests) served waiting) :
    ∃ i rest, Accounts setup (events ++ [.took r]) requests (served ++ [(i, events.length)])
      rest := by
  obtain ⟨⟨i, r'⟩, rest, rfl, rfl, hrest⟩ := List.map_eq_cons_iff.1 h.queue
  have hfirst : AcceptedAt setup events i r' := h.waits _ List.mem_cons_self
  have hupwards := List.pairwise_cons.1 h.upwards
  have hcleared : ∀ k, ClearedAt (events ++ [.took r']) k → ClearedAt events k := by
    intro k hk
    rcases clearedAt_concat_iff.1 hk with hk | ⟨-, hclears⟩
    · exact hk
    · simp [Event.clears] at hclears
  refine ⟨i, rest, ?_, ?_, ?_, ?_, hrest, ?_, ?_, hupwards.2, ?_, ?_⟩
  · intro j q htaken
    rcases getElem?_concat_iff.1 htaken with htaken | ⟨rfl, -⟩
    · obtain ⟨i', hi'⟩ := h.taken j q htaken
      exact ⟨i', List.mem_append_left _ hi'⟩
    · exact ⟨i, by simp⟩
  · intro p hp
    rcases List.mem_append.1 hp with hp | hp
    · exact h.accepted_concat hp
    · obtain rfl := List.mem_singleton.1 hp
      exact ⟨hfirst.lt, r', acceptedAt_concat_iff.2 (.inl hfirst),
        getElem?_concat_iff.2 (.inr ⟨rfl, rfl⟩)⟩
  · intro p hp k hfrom htil
    rcases List.mem_append.1 hp with hp | hp
    · exact h.undropped_concat hp hfrom htil
    · obtain rfl := List.mem_singleton.1 hp
      exact fun hk => h.kept _ List.mem_cons_self k hfrom (hcleared k hk)
  · rw [List.pairwise_append]
    refine ⟨h.ordered, List.pairwise_singleton .., fun p hp q hq => ?_⟩
    obtain rfl := List.mem_singleton.1 hq
    exact ⟨h.behind p hp _ List.mem_cons_self, (h.lt_of_mem hp).2⟩
  · exact fun w hw => acceptedAt_concat_iff.2 (.inl (h.waits w (List.mem_cons_of_mem _ hw)))
  · exact fun w hw k hk hc => h.kept w (List.mem_cons_of_mem _ hw) k hk (hcleared k hc)
  · intro p hp w hw
    rcases List.mem_append.1 hp with hp | hp
    · exact h.behind p hp w (List.mem_cons_of_mem _ hw)
    · obtain rfl := List.mem_singleton.1 hp
      exact hupwards.1 w hw
  · intro i' q haccepted
    rcases acceptedAt_concat_iff.1 haccepted with hbefore | ⟨-, haccepts⟩
    · rcases h.complete i' q hbefore with ⟨j, hj⟩ | hw | ⟨k, hk, hc⟩
      · exact .inl ⟨j, List.mem_append_left _ hj⟩
      · rcases List.mem_cons.1 hw with heq | hw
        · obtain ⟨rfl, rfl⟩ := Prod.mk.inj heq
          exact .inl ⟨events.length, by simp⟩
        · exact .inr (.inl hw)
      · exact .inr (.inr ⟨k, hk, clearedAt_concat_iff.2 (.inl hc)⟩)
    · simp [Event.accepts] at haccepts

/-- One more event that has nothing to do with requests. -/
theorem ended (h : Accounts setup events requests served waiting) (outcome : RunOutcome) :
    Accounts setup (events ++ [.ended outcome]) requests served waiting := by
  have hnot : ∀ r, Event.ended outcome ≠ .took r := by simp
  simpa [Event.clears, Event.accepts] using h.answer hnot

end Accounts

/-! ### The events of a service -/

variable {v : Service} {clock : Clock} {now : Nat}

theorem shows_of_request (setup : Setup) {rest : List PlayRequest} (hidle : v.runner = .idle)
    (hrequests : v.station.queue.requests = r :: rest) :
    v.shows setup = [.took r] ∨ ∃ outcome, v.shows setup = [.took r, .ended outcome] := by
  cases hstart : Execution.start? setup r v.station with
  | none => exact .inr ⟨_, by simp [shows, hidle, RunQueue.dequeue?, hrequests, hstart]; rfl⟩
  | some begun => exact .inl (by simp [shows, hidle, RunQueue.dequeue?, hrequests, hstart])

theorem shows_of_not_takes (setup : Setup) (h : v.takes = false) :
    v.shows setup = [] ∨ ∃ outcome, v.shows setup = [.ended outcome] := by
  obtain ⟨runner, s⟩ := v
  cases runner with
  | idle =>
    have hempty : s.queue.requests = [] := by simpa [takes, isPlaying] using h
    exact .inl (by simp [shows, RunQueue.dequeue?, hempty])
  | playing e =>
    cases hstep : e.step s with
    | wait s' e' again => exact .inl (by simp [shows, hstep])
    | go s' e' => exact .inl (by simp [shows, hstep])
    | done s' outcome => exact .inr ⟨outcome, by simp [shows, hstep]⟩

/-- The accounts of a trace. -/
theorem Trace.exists_accounts (h : Trace setup (switchedOn setup clock now) events v) :
    ∃ served waiting, Accounts setup events v.station.queue.requests served waiting := by
  induction h with
  | start => exact ⟨[], [], .start setup⟩
  | handle payload _ ih =>
    obtain ⟨served, waiting, haccounts⟩ := ih
    rw [requests_handle]
    exact ⟨served, _, haccounts.answer (by simp)⟩
  | @turn events v _ ih =>
    obtain ⟨served, waiting, haccounts⟩ := ih
    cases htakes : v.takes with
    | true =>
      obtain ⟨r, rest, hrequests, hrest, -, -⟩ := turn_of_takes setup htakes
      obtain ⟨hidle, -⟩ := takes_eq_true_iff.1 htakes
      rw [hrequests] at haccounts
      obtain ⟨i, waiting, haccounts⟩ := haccounts.take
      rw [hrest]
      rcases shows_of_request setup hidle hrequests with hshows | ⟨outcome, hshows⟩
      · exact ⟨_, _, hshows ▸ haccounts⟩
      · rw [hshows, List.append_cons]
        exact ⟨_, _, haccounts.ended outcome⟩
    | false =>
      have hrequests : (v.turn setup).station.queue.requests = v.station.queue.requests := by
        rcases turn_of_not_takes setup htakes with ⟨-, hturn⟩ | ⟨-, -, hqueue⟩ | ⟨-, -, hqueue⟩
        · rw [hturn]
        · rw [hqueue]
        · rw [hqueue]
      rw [hrequests]
      rcases shows_of_not_takes setup htakes with hshows | ⟨outcome, hshows⟩
      · rw [hshows, List.append_nil]
        exact ⟨served, waiting, haccounts⟩
      · rw [hshows]
        exact ⟨served, waiting, haccounts.ended outcome⟩
  | elsewhere _ hqueue ih =>
    rw [hqueue]
    exact ih

/-- **What becomes of the requests of a service.** The runner takes those that were accepted, in
order, each at most once; it leaves out only those that a stop or a restart has dropped before they
were taken. A restart of a macro that is there is always accepted, only a few requests wait, and none
of those taken ends for want of its macro. -/
theorem Trace.served_in_order (h : Trace setup (switchedOn setup clock now) events v) :
    (∃ served waiting, Accounts setup events v.station.queue.requests served waiting) ∧
      (∀ payload r, Command.parse payload = .ok (.restart r) → setup.knows r = true →
        (v.station.handle setup payload).1 = .queued) ∧
      v.station.queue.requests.length ≤ RunQueue.capacity ∧
      .ended (.failed .unknownMacro) ∉ events :=
  ⟨h.exists_accounts, fun _ _ hparse hknown => handle_of_restart hparse hknown v.station,
    h.reach.fit.length_le, h.ended_not_mem.2⟩

/-- A payload that asks for a run in place of those that wait. -/
def restartA : Text := "\x7b\"name\":\"f.a\",\"stop\":true\x7d".toList

/-- Two starts, of which the runner takes the first, and a restart that drops the second. -/
theorem served_in_order_restarted :
    ∃ events v, Trace duo (switchedOn duo .prompt 0) events v ∧
      events = [.answered endless .queued, .answered endless .queued,
        .took ⟨"f.b".toList, 0, []⟩, .answered restartA .queued] ∧
      (∃ served waiting, Accounts duo events v.station.queue.requests served waiting) ∧
      v.station.queue.requests.length ≤ RunQueue.capacity ∧
      .ended (.failed .unknownMacro) ∉ events := by
  have hstart : Trace duo (switchedOn duo .prompt 0) [] (switchedOn duo .prompt 0) := .start
  have htrace := ((hstart.handle endless).handle endless).turn.handle restartA
  obtain ⟨haccounts, -, hlength, hended⟩ := htrace.served_in_order
  exact ⟨_, _, htrace, rfl, haccounts, hlength, hended⟩

end Service

end PadScript
