import PadScript.Proofs.Queue.Ledger

/-!
# What becomes of a run when a newer request waits

Asking for a run is to end the run in progress. A request only cancels what is played when it comes,
though, and taking a request takes every cancellation back. This file says exactly which runs are
cancelled.

* `Service.Run.cancelled_eq` : a run is cancelled exactly if, since its request was taken, a payload
  has asked for the end of the run in progress.
* `Ledger.newerWaits_iff` : the requests that wait are all newer than the run in progress.
* `Service.Run.supersedes_iff` : **the newest request supersedes the run in progress exactly if no
  request waits, or such a payload has come since the run began**. Requests that come before a run
  begins do not count, although they are newer (`Service.not_supersedes_overtaken`).
-/

namespace PadScript

/-- Since the runner last took a request, a payload has asked for the end of the run. The newest
deed comes first. -/
def superseded (setup : Setup) : List Deed → Bool
  | [] => false
  | .handled payload _ :: earlier => setup.supersedes payload || superseded setup earlier
  | .took :: _ => false
  | .worked :: earlier => superseded setup earlier

/-- A request waits that was accepted after the last one that the runner has taken. -/
def Ledger.NewerWaits (l : Ledger) : Prop :=
  ∃ run, l.taken.getLast? = some run ∧ ∃ r ∈ l.waiting, run.1 < r.1

/-- Once a request has been taken, every request that waits is newer. -/
theorem Ledger.newerWaits_iff {l : Ledger} (h : l.Sound) (htaken : l.taken ≠ []) :
    l.NewerWaits ↔ l.waiting ≠ [] := by
  constructor
  · rintro ⟨-, -, r, hr, -⟩
    exact List.ne_nil_of_mem hr
  · intro hwaiting
    obtain ⟨r, rest, hr⟩ := List.exists_cons_of_ne_nil hwaiting
    have hlast := List.getLast?_eq_some_getLast htaken
    have hordered := h.ordered
    rw [List.map_append, List.pairwise_append] at hordered
    refine ⟨_, hlast, r, by simp [hr], hordered.2.2 _ ?_ _ ?_⟩
    · exact List.mem_map_of_mem (List.getLast_mem htaken)
    · exact List.mem_map_of_mem (by simp [hr])

namespace Service

/-- The newest request supersedes the run in progress: if it is newer than the run, the run is
cancelled. -/
def Supersedes (setup : Setup) (history : List Deed) (v : Service) : Prop :=
  v.isPlaying = true → (Ledger.of setup history).NewerWaits → v.station.queue.cancelled = true

variable {setup : Setup} {clock : Clock} {now : Nat} {history : List Deed} {v : Service}

/-- A payload cancels the run in progress exactly if it asks for its end. -/
theorem cancelled_of_effect {payload : Text} {response : Response} {q q' : RunQueue}
    (heffect : QueueEffect setup payload q response q') (hrunning : q.running = true) :
    q'.cancelled = (setup.supersedes payload || q.cancelled) := by
  cases heffect with
  | start hparse hknown _ => simp [Setup.supersedes, hparse, hknown, RunQueue.cancelRun, hrunning]
  | busy hparse hknown _ => simp [Setup.supersedes, hparse, hknown, RunQueue.cancelRun, hrunning]
  | restart hparse hknown => simp [Setup.supersedes, hparse, hknown, RunQueue.stop]
  | stop hparse => simp [Setup.supersedes, hparse, RunQueue.stop]
  | none hnot _ => simp [hnot]

/-- **A run is cancelled exactly if, since its request was taken, a payload has asked for the end of
the run in progress.** -/
theorem Run.cancelled_eq (h : Run setup (switchedOn setup clock now) history v)
    (hplaying : v.isPlaying = true) : v.station.queue.cancelled = superseded setup history := by
  induction h with
  | start => simp [isPlaying, switchedOn] at hplaying
  | @step history deed v w hrun hstep ih =>
    cases hstep with
    | handle payload =>
      have hrunning : v.station.queue.running = true := by
        rw [hrun.running_eq]
        exact hplaying
      have heffect := v.station.handle_effect setup payload
      rw [superseded, ← ih hplaying]
      exact cancelled_of_effect heffect hrunning
    | take htakes =>
      -- both begin anew: taking a request takes the cancellation back, also one meant for its run
      obtain ⟨-, -, -, -, hcancelled, -⟩ := turn_of_takes setup htakes
      exact hcancelled
    | play htakes =>
      rcases turn_of_not_takes setup htakes with
        ⟨hidle, hturn⟩ | ⟨hbefore, -, hqueue⟩ | ⟨-, hover, -⟩
      · rw [hturn, hidle] at hplaying
        contradiction
      · rw [hqueue, superseded, ih hbefore]
      · rw [hover] at hplaying
        contradiction
    | elsewhere hqueue =>
      change _ = superseded setup history
      rw [hqueue, ih hplaying]

/-- In a run the ledger has a newer request exactly if the queue has any. -/
theorem Run.newerWaits_iff (h : Run setup (switchedOn setup clock now) history v)
    (hplaying : v.isPlaying = true) :
    (Ledger.of setup history).NewerWaits ↔ v.station.queue.requests ≠ [] := by
  rw [Ledger.newerWaits_iff (Ledger.sound_of setup history) (h.agrees.taken hplaying),
    ← h.agrees.waiting, ne_eq, ne_eq, List.map_eq_nil_iff]

/-- **When the newest request supersedes the run in progress**: exactly if no request waits, or if
since the request of the run was taken a payload has asked for a stop, or for the run of a macro
that is there. -/
theorem Run.supersedes_iff (h : Run setup (switchedOn setup clock now) history v)
    (hplaying : v.isPlaying = true) :
    Supersedes setup history v ↔
      v.station.queue.requests = [] ∨ superseded setup history = true := by
  rw [Supersedes, h.newerWaits_iff hplaying, h.cancelled_eq hplaying]
  constructor
  · intro hnewest
    by_cases hrequests : v.station.queue.requests = []
    · exact .inl hrequests
    · exact .inr (hnewest hplaying hrequests)
  · rintro (hrequests | hsuperseded) - hwaits
    · exact absurd hrequests hwaits
    · exact hsuperseded

/-- Three macros of one line each. -/
def trio : Setup where
  library :=
    [("f.a", "A:10"), ("f.b", "B:10"), ("f.c", "X:10")].foldl
      (fun l (name, line) => l.add (.named name.toList ⟨⟨[line.toList]⟩, ∅⟩)) .empty
  config := { Config.standard with profile := .horipadS }

/-- A run without end begins; two more requests come, and the first of them is taken. -/
def overtaken : Service :=
  let first := (switchedOn trio .prompt 0).handle trio "\x7b\"name\":\"f.a\",\"loop\":0\x7d".toList
  let second := (first.turns trio 1).handle trio "\x7b\"name\":\"f.b\",\"loop\":0\x7d".toList
  let third := second.handle trio "\x7b\"name\":\"f.c\",\"loop\":0\x7d".toList
  third.turns trio 4

theorem exists_run_overtaken :
    ∃ history, Run trio (switchedOn trio .prompt 0) history overtaken := by
  obtain ⟨_, hfirst⟩ := (Run.start.step (.handle _)).exists_turns 1
  exact ((hfirst.step (.handle _)).step (.handle _)).exists_turns 4

theorem overtaken_queue :
    (overtaken.isPlaying, overtaken.station.queue.requests.map (·.name),
      overtaken.station.queue.cancelled) = (true, ["f.c".toList], false) := by
  rfl

/-- **The newest request does not always supersede the run in progress**: two requests come while a
run is about to end, the older one is taken, and nothing ends its run for the sake of the other. -/
theorem not_supersedes_overtaken :
    ∃ history, Run trio (switchedOn trio .prompt 0) history overtaken ∧
      ¬ Supersedes trio history overtaken := by
  obtain ⟨history, hrun⟩ := exists_run_overtaken
  obtain ⟨hplaying, hrequests, hcancelled⟩ := Prod.mk.inj overtaken_queue |>.imp_right Prod.mk.inj
  refine ⟨history, hrun, fun hnewest => ?_⟩
  have hwaits : overtaken.station.queue.requests ≠ [] := by
    intro hnone
    simp [hnone] at hrequests
  rw [hnewest hplaying ((hrun.newerWaits_iff hplaying).2 hwaits)] at hcancelled
  contradiction

/-- The run in progress when the second request has been taken. -/
theorem supersedes_iff_overtaken :
    ∃ history, Run trio (switchedOn trio .prompt 0) history overtaken ∧
      overtaken.isPlaying = true ∧
      (Supersedes trio history overtaken ↔
        overtaken.station.queue.requests = [] ∨ superseded trio history = true) := by
  obtain ⟨history, hrun⟩ := exists_run_overtaken
  have hplaying : overtaken.isPlaying = true := (Prod.mk.inj overtaken_queue).1
  exact ⟨history, hrun, hplaying, hrun.supersedes_iff hplaying⟩

end Service

end PadScript
