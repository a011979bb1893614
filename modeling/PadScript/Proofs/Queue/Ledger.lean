import PadScript.Proofs.Queue.Effect

/-!
# The ledger of requests

A `Service` is the runner with what it shares. Payloads are handled between the steps of the runner,
in any order, and other things happen that leave the queue alone: time goes by, and other tasks use
the pad. `Service.Run` says which states a service reaches, and by which history.

A `Ledger` gives every request that is accepted a number, the next one, and keeps the requests that
wait and those that the runner has taken. It is written from the history alone.

* `Ledger.sound_of` : the requests taken and those that wait are numbered upwards, in this order.
* `Service.Run.agrees` : the requests that wait in the ledger are those of the queue.
* `Service.Run.running_eq` : the queue says that there is a run exactly if the runner plays one.
-/

namespace PadScript

/-- The task that plays requests, and the station that it shares with the command link and the other
tasks. -/
structure Service where
  /-- The runner. -/
  runner : Runner
  /-- What it shares. -/
  station : Station

/-- Something that happens to the runner or to the queue. -/
inductive Deed where
  /-- A payload is handled, with this answer. -/
  | handled (payload : Text) (response : Response)
  /-- The runner takes the oldest request. -/
  | took
  /-- The runner makes another step, or something happens away from the queue. -/
  | worked
deriving DecidableEq, Repr

namespace Service

/-- The service when everything is switched on. -/
def switchedOn (setup : Setup) (clock : Clock) (now : Nat) : Service :=
  ⟨.idle, setup.station clock now⟩

/-- The runner plays a request. -/
def isPlaying (v : Service) : Bool :=
  match v.runner with
  | .idle => false
  | .playing _ => true

/-- The next step of the runner takes a request. -/
def takes (v : Service) : Bool := !v.isPlaying && !v.station.queue.requests.isEmpty

variable (setup : Setup)

/-- The service when a payload has been handled. -/
def handle (payload : Text) (v : Service) : Service :=
  { v with station := (v.station.handle setup payload).2 }

/-- The service when the runner has made a step. -/
def turn (v : Service) : Service :=
  ⟨(v.runner.turn setup v.station).1, (v.runner.turn setup v.station).2⟩

/-- The service when the runner has made some steps. -/
def turns : (n : Nat) → Service → Service
  | 0, v => v
  | n + 1, v => turns n (v.turn setup)

/-- What can happen to a service. -/
inductive Step (v : Service) : Deed → Service → Prop
  /-- A payload is handled. -/
  | handle (payload : Text) :
      Step v (.handled payload (v.station.handle setup payload).1) (v.handle setup payload)
  /-- The runner takes a request. -/
  | take : v.takes = true → Step v .took (v.turn setup)
  /-- The runner makes another step. -/
  | play : v.takes = false → Step v .worked (v.turn setup)
  /-- Something happens away from the queue. -/
  | elsewhere {s : Station} : s.queue = v.station.queue → Step v .worked { v with station := s }

/-- The states that a service reaches, each with its history, the newest first. -/
inductive Run (first : Service) : List Deed → Service → Prop
  /-- Nothing has happened. -/
  | start : Run first [] first
  /-- One thing more happens. -/
  | step {history : List Deed} {deed : Deed} {v w : Service} :
      Run first history v → Step setup v deed w → Run first (deed :: history) w

variable {setup} {v : Service}

theorem Run.exists_turns {first : Service} {history : List Deed}
    (h : Run setup first history v) (n : Nat) :
    ∃ later, Run setup first later (v.turns setup n) := by
  induction n generalizing v history with
  | zero => exact ⟨history, h⟩
  | succ n ih =>
    cases htakes : v.takes with
    | true => exact ih (h.step (.take htakes))
    | false => exact ih (h.step (.play htakes))

theorem takes_eq_true_iff :
    v.takes = true ↔ v.runner = .idle ∧ ∃ r rest, v.station.queue.requests = r :: rest := by
  unfold takes isPlaying
  cases v.runner with
  | idle => cases v.station.queue.requests <;> simp
  | playing e => simp

/-- What a step of the runner does when it takes no request: nothing, a step of the run, or the end
of the run. -/
theorem turn_of_not_takes (setup : Setup) (h : v.takes = false) :
    (v.isPlaying = false ∧ v.turn setup = v) ∨
      (v.isPlaying = true ∧ (v.turn setup).isPlaying = true ∧
        (v.turn setup).station.queue = v.station.queue) ∨
      (v.isPlaying = true ∧ (v.turn setup).isPlaying = false ∧
        (v.turn setup).station.queue = { v.station.queue with running := false }) := by
  obtain ⟨runner, station⟩ := v
  cases runner with
  | idle =>
    have hempty : station.queue.requests = [] := by simpa [takes, isPlaying] using h
    exact .inl ⟨rfl, by rw [turn, Runner.turn_of_idle hempty]⟩
  | playing e =>
    obtain ⟨e', s', hturn, hqueue⟩ | ⟨s', hturn, hqueue⟩ :=
      Runner.turn_of_playing setup station e
    · exact .inr (.inl ⟨rfl, by simp [turn, hturn, isPlaying], by simp [turn, hturn, hqueue]⟩)
    · exact .inr (.inr ⟨rfl, by simp [turn, hturn, isPlaying], by simp [turn, hturn, hqueue]⟩)

/-- What a step of the runner does when it takes a request. -/
theorem turn_of_takes (setup : Setup) (h : v.takes = true) :
    ∃ r rest, v.station.queue.requests = r :: rest ∧ (v.turn setup).station.queue.requests = rest ∧
      (v.turn setup).station.queue.cancelled = false ∧
      (v.turn setup).station.queue.running =
        ((v.turn setup).isPlaying || v.station.queue.running) := by
  obtain ⟨runner, station⟩ := v
  obtain ⟨rfl, r, rest, hrequests⟩ := takes_eq_true_iff.1 h
  refine ⟨r, rest, hrequests, ?_⟩
  simp only [turn, Runner.turn_of_request hrequests]
  split <;> simp [isPlaying]

end Service

/-! ### Numbers for the requests -/

/-- The requests for runs that were accepted, numbered as they came. -/
structure Ledger where
  /-- The number of the next request. -/
  next : Nat
  /-- The requests that wait, the oldest first. -/
  waiting : List (Nat × PlayRequest)
  /-- The requests that the runner has taken, the oldest first. -/
  taken : List (Nat × PlayRequest)

namespace Ledger

/-- No request. -/
def blank : Ledger := ⟨0, [], []⟩

/-- A request waits, behind the others. -/
def enter (r : PlayRequest) (l : Ledger) : Ledger :=
  { l with next := l.next + 1, waiting := l.waiting ++ [(l.next, r)] }

/-- No request waits any more. -/
def drop (l : Ledger) : Ledger := { l with waiting := [] }

/-- The oldest request is taken. -/
def take (l : Ledger) : Ledger :=
  match l.waiting with
  | [] => l
  | r :: rest => { l with waiting := rest, taken := l.taken ++ [r] }

variable (setup : Setup)

/-- The ledger when a command has been answered: only a stop and what was accepted count. -/
def answered (l : Ledger) (response : Response) : Command → Ledger
  | .start r => if response = .queued then l.enter (setup.resolved r) else l
  | .restart r => if response = .queued then l.drop.enter (setup.resolved r) else l
  | .stop => l.drop
  | _ => l

/-- The ledger when one thing more has happened. -/
def note (l : Ledger) : Deed → Ledger
  | .handled payload response =>
    match Command.parse payload with
    | .ok command => l.answered setup response command
    | .error _ => l
  | .took => l.take
  | .worked => l

/-- The ledger of a history. -/
def of : List Deed → Ledger
  | [] => blank
  | deed :: earlier => (of earlier).note setup deed

/-- The numbers go up from the requests taken to those that wait. -/
structure Sound (l : Ledger) : Prop where
  /-- They go up. -/
  ordered : ((l.taken ++ l.waiting).map Prod.fst).Pairwise (· < ·)
  /-- They have been given out. -/
  below : ∀ r ∈ l.taken ++ l.waiting, r.1 < l.next

variable {setup} {l : Ledger}

theorem Sound.drop (h : l.Sound) : l.drop.Sound where
  ordered := by
    have hsub : (l.taken ++ []).Sublist (l.taken ++ l.waiting) := by simp
    exact h.ordered.sublist (hsub.map Prod.fst)
  below r hr := h.below r (List.mem_append_left _ (by simpa [Ledger.drop] using hr))

theorem Sound.enter (h : l.Sound) (r : PlayRequest) : (l.enter r).Sound where
  ordered := by
    have hsplit : (l.enter r).taken ++ (l.enter r).waiting =
        (l.taken ++ l.waiting) ++ [(l.next, r)] := by simp [Ledger.enter]
    rw [hsplit, List.map_append, List.pairwise_append]
    refine ⟨h.ordered, List.pairwise_singleton .., ?_⟩
    intro m hm n hn
    obtain ⟨q, hq, rfl⟩ := List.mem_map.1 hm
    obtain rfl : n = l.next := by simpa using hn
    exact h.below q hq
  below q hq := by
    rw [Ledger.enter, ← List.append_assoc] at hq
    rcases List.mem_append.1 hq with hq | hq
    · exact Nat.lt_succ_of_lt (h.below q hq)
    · obtain rfl := List.mem_singleton.1 hq
      exact Nat.lt_succ_self l.next

/-- A request that is taken keeps its place among all. -/
theorem taken_append_waiting_take (l : Ledger) :
    l.take.taken ++ l.take.waiting = l.taken ++ l.waiting := by
  unfold take
  split
  · rfl
  next hwaiting => simp [hwaiting]

theorem next_take (l : Ledger) : l.take.next = l.next := by
  unfold take
  split <;> rfl

theorem Sound.take (h : l.Sound) : l.take.Sound where
  ordered := by
    rw [taken_append_waiting_take]
    exact h.ordered
  below := by
    rw [taken_append_waiting_take, next_take]
    exact h.below

theorem Sound.answered (h : l.Sound) (response : Response) (command : Command) :
    (l.answered setup response command).Sound := by
  cases command with
  | start r =>
    rw [Ledger.answered]
    split
    · exact h.enter _
    · exact h
  | restart r =>
    rw [Ledger.answered]
    split
    · exact h.drop.enter _
    · exact h
  | stop => exact h.drop
  | realtimeStart => exact h
  | realtimeStop => exact h
  | realtimeAction line => exact h

theorem Sound.note (h : l.Sound) (deed : Deed) : (l.note setup deed).Sound := by
  cases deed with
  | handled payload response =>
    rw [Ledger.note]
    split
    · exact h.answered response _
    · exact h
  | took => exact h.take
  | worked => exact h

/-- **The ledger is in order**: requests are taken in the order in which they were accepted, and
those that wait were accepted later. -/
theorem sound_of (setup : Setup) (history : List Deed) : (of setup history).Sound := by
  induction history with
  | nil => exact ⟨.nil, by simp [of, blank]⟩
  | cons deed earlier ih => exact ih.note deed

/-! ### The ledger and the queue -/

/-- What the ledger has in common with the service. -/
structure Agrees (l : Ledger) (v : Service) : Prop where
  /-- The same requests wait. -/
  waiting : l.waiting.map Prod.snd = v.station.queue.requests
  /-- What is played has been taken. -/
  taken : v.isPlaying = true → l.taken ≠ []

theorem taken_answered (response : Response) (command : Command) :
    (l.answered setup response command).taken = l.taken := by
  cases command with
  | start r =>
    rw [answered]
    split <;> rfl
  | restart r =>
    rw [answered]
    split <;> rfl
  | stop => rfl
  | realtimeStart => rfl
  | realtimeStop => rfl
  | realtimeAction line => rfl

theorem taken_note_handled (payload : Text) (response : Response) :
    (l.note setup (.handled payload response)).taken = l.taken := by
  rw [note]
  split
  · exact taken_answered response _
  · rfl

/-- The ledger notes of a payload what it does to the queue. -/
theorem waiting_note_of_effect {payload : Text} {response : Response} {q q' : RunQueue}
    (heffect : QueueEffect setup payload q response q')
    (h : l.waiting.map Prod.snd = q.requests) :
    (l.note setup (.handled payload response)).waiting.map Prod.snd = q'.requests := by
  cases heffect with
  | start hparse _ _ => simp [note, hparse, answered, enter, h]
  | busy hparse _ _ => simp [note, hparse, answered, h, RunQueue.cancelRun]
  | restart hparse _ => simp [note, hparse, answered, enter, drop]
  | stop hparse => simp [note, hparse, answered, drop, RunQueue.stop]
  | none hnot hresponse =>
    cases hparse : Command.parse payload with
    | error e => simp [note, hparse, h]
    | ok command =>
      cases command with
      | start r => simp [note, hparse, answered, hresponse, h]
      | restart r => simp [note, hparse, answered, hresponse, h]
      | stop => simp [Setup.supersedes, hparse] at hnot
      | realtimeStart => simp [note, hparse, answered, h]
      | realtimeStop => simp [note, hparse, answered, h]
      | realtimeAction line => simp [note, hparse, answered, h]

theorem Agrees.step {v w : Service} {deed : Deed} (h : l.Agrees v)
    (hstep : Service.Step setup v deed w) : (l.note setup deed).Agrees w := by
  cases hstep with
  | handle payload =>
    refine ⟨waiting_note_of_effect (v.station.handle_effect setup payload) h.waiting, ?_⟩
    rw [taken_note_handled]
    exact h.taken
  | take htakes =>
    obtain ⟨r, rest, hrequests, hrest, -, -⟩ := Service.turn_of_takes setup htakes
    have hwaiting := h.waiting
    -- the oldest request of the ledger is that of the queue
    rw [hrequests, List.map_eq_cons_iff] at hwaiting
    obtain ⟨first, more, hsplit, -, hmore⟩ := hwaiting
    refine ⟨?_, fun _ => ?_⟩
    · simp [note, take, hsplit, hmore, hrest]
    · simp [note, take, hsplit]
  | play htakes =>
    rcases Service.turn_of_not_takes setup htakes with
      ⟨-, hturn⟩ | ⟨hplaying, -, hqueue⟩ | ⟨hplaying, hover, hqueue⟩
    · rw [hturn]
      exact h
    · exact ⟨by rw [hqueue]; exact h.waiting, fun _ => h.taken hplaying⟩
    · exact ⟨by rw [hqueue]; exact h.waiting, fun hnext => by simp [hover] at hnext⟩
  | elsewhere hqueue => exact ⟨by rw [hqueue]; exact h.waiting, h.taken⟩

end Ledger

namespace Service

variable {setup : Setup} {clock : Clock} {now : Nat} {history : List Deed} {v : Service}

/-- **The ledger and the queue agree** in every state that a service reaches. -/
theorem Run.agrees (h : Run setup (switchedOn setup clock now) history v) :
    (Ledger.of setup history).Agrees v := by
  induction h with
  | start => exact ⟨rfl, by simp [isPlaying, switchedOn]⟩
  | step _ hstep ih => exact ih.step hstep

/-- The queue says that there is a run exactly if the runner plays one. -/
theorem Run.running_eq (h : Run setup (switchedOn setup clock now) history v) :
    v.station.queue.running = v.isPlaying := by
  induction h with
  | start => rfl
  | @step history deed v w _ hstep ih =>
    cases hstep with
    | handle payload =>
      have heffect := v.station.handle_effect setup payload
      change (v.handle setup payload).station.queue.running = v.isPlaying
      rw [← ih]
      generalize (v.station.handle setup payload).1 = response at heffect
      generalize hq : (v.station.handle setup payload).2.queue = q at heffect
      rw [handle, hq]
      cases heffect <;> rfl
    | take htakes =>
      obtain ⟨-, -, -, -, -, hrunning⟩ := turn_of_takes setup htakes
      obtain ⟨hidle, -⟩ := takes_eq_true_iff.1 htakes
      have hnot : v.isPlaying = false := by simp [isPlaying, hidle]
      rw [hrunning, ih, hnot, Bool.or_false]
    | play htakes =>
      rcases turn_of_not_takes setup htakes with
        ⟨-, hturn⟩ | ⟨hplaying, hnext, hqueue⟩ | ⟨-, hover, hqueue⟩
      · rw [hturn, ih]
      · rw [hqueue, ih, hplaying, hnext]
      · rw [hqueue, hover]
    | elsewhere hqueue =>
      change _ = v.isPlaying
      rw [hqueue, ih]

end Service

end PadScript
