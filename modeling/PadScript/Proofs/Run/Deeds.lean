import PadScript.Proofs.Queue.Effect
import PadScript.Proofs.Run.Company
import PadScript.Proofs.Run.Trace

/-!
# What a run does

The deeds of a run are the events that tell how it ends. `Execution.History` is a run with what it
has done so far: the lines that it has begun to play, the sends of actions that were refused, the
ends of cycles, where the cursor gave no line, and that it lets everything go. Others share the
station with it and may do to it what they like, cancel the run or bring reports to be refused, but
the flag that a run is in progress is the run's.

* `Execution.deeds_cancel` and its neighbours : what a run does in a step, case by case.
* `Execution.deeds_iff_begins` : **what a run does is what it begins**, the action of a line or the
  last send.
* `Execution.History.over` : a run is over when its last send is.
* `Task.keepsRunning` : **the company of a run leaves its flag alone.**
-/

namespace PadScript

namespace Execution

/-- Something that a run does. -/
inductive Deed where
  /-- It begins to play a line. -/
  | play (line : Text)
  /-- The send of an action is refused. -/
  | refused (e : OutputError)
  /-- The cursor has given no line: a cycle is drained. -/
  | drained
  /-- It lets everything go. -/
  | release
deriving DecidableEq, Repr

namespace Deed

/-- The line that is played. -/
def line? : Deed → Option Text
  | .play line => some line
  | _ => none

/-- The error of a send. -/
def error? : Deed → Option OutputError
  | .refused e => some e
  | _ => none

end Deed

end Execution

/-- The others leave the flag alone that a run is in progress. -/
def Station.KeepsRunning (s s' : Station) : Prop := s'.queue.running = s.queue.running

/-- The error of the next step of a send, if it fails. -/
def Send.error? (now : Nat) (isCancelled : Bool) (x : Send) (p : Pad) : Option OutputError :=
  match x.step now isCancelled p with
  | .done _ (.error (.output e)) => some e
  | _ => none

/-- The error of the send that an action makes, if it fails in the next step. -/
def Action.error? (now : Nat) (isCancelled : Bool) (a : Action) (p : Pad) : Option OutputError :=
  a.send?.bind fun x => x.error? now isCancelled p

namespace Action

variable {now : Nat} {isCancelled : Bool} {a : Action} {p p' : Pad}

/-- **An action fails with the error of its send**, or because it is cancelled. -/
theorem error_of_failed {error : RunError}
    (h : a.step now isCancelled p = .done p' (.error error)) :
    error = .cancelled ∧ a.error? now isCancelled p = none ∨
      ∃ e, error = .output e ∧ a.error? now isCancelled p = some e := by
  have harises := arisesFrom_of_step h
  cases hsend : a.send? with
  | none =>
    have hidles := step_of_no_send hsend now isCancelled p
    rw [h] at hidles
    exact .inl ⟨hidles.2.1, by simp [error?, hsend]⟩
  | some x =>
    have hfollows := step_of_send hsend now isCancelled p
    rw [h] at hfollows
    have hstep : x.step now isCancelled p = .done p' (.error error) := by
      cases hstep : x.step now isCancelled p with
      | wait p'' x' again => simp [hstep, Follows] at hfollows
      | go p'' x' => simp [hstep, Follows] at hfollows
      | done p'' result =>
        rw [hstep] at hfollows
        cases result with
        | ok t => simp [Follows] at hfollows
        | error error' =>
          simp only [Follows, Turn.done.injEq, Except.error.injEq] at hfollows
          rw [hfollows.1, hfollows.2]
    cases error with
    | cancelled => exact .inl ⟨rfl, by simp [error?, hsend, Send.error?, hstep]⟩
    | output e => exact .inr ⟨e, rfl, by simp [error?, hsend, Send.error?, hstep]⟩
    | unknownMacro => exact absurd harises id

/-- Where a send fails, its action does. -/
theorem failed_of_error {e : OutputError} (h : a.error? now isCancelled p = some e) :
    ∃ p', a.step now isCancelled p = .done p' (.error (.output e)) := by
  obtain ⟨x, hsend, herror⟩ := Option.bind_eq_some_iff.1 h
  have hfollows := step_of_send hsend now isCancelled p
  unfold Send.error? at herror
  split at herror
  next p' e' hstep =>
    obtain rfl := Option.some.inj herror
    rw [hstep] at hfollows
    exact ⟨p', hfollows⟩
  next => cases herror

/-- Where an action does not fail, its send does not. -/
theorem error_eq_none (h : ∀ p' e, a.step now isCancelled p ≠ .done p' (.error (.output e))) :
    a.error? now isCancelled p = none := by
  cases herror : a.error? now isCancelled p with
  | none => rfl
  | some e =>
    obtain ⟨p', hstep⟩ := failed_of_error herror
    exact absurd hstep (h p' e)

end Action

namespace Execution

/-- The run lets everything go. -/
def isReleasing (e : Execution) : Bool :=
  match e.phase with
  | .releasing _ _ => true
  | _ => false

/-- What a run does in a step that leads to another state. -/
def deeds (e : Execution) (s : Station) (e' : Execution) : List Deed :=
  let deed? : Option Deed :=
    match e.phase with
    | .choosing =>
      if s.queue.cancelled then none
      else match e.cursor.nextLine.1 with
        | some line => some (.play line)
        | none => some .drained
    | .acting a => (a.error? s.now s.queue.cancelled s.pad).map .refused
    | .releasing _ _ => none
  deed?.toList ++ if !e.isReleasing && e'.isReleasing then [.release] else []

/-! ### The deeds of a step -/

section Deeds

variable {e e' : Execution} {s : Station} {cursor : Cursor}

theorem deeds_cancel (hphase : e.phase = .choosing) (hcancelled : s.queue.cancelled = true)
    (result : Except RunError Unit) : e.deeds s (e.release result) = [.release] := by
  simp [deeds, hphase, hcancelled, isReleasing, release]

theorem deeds_line {line : Text} {a : Action} (hphase : e.phase = .choosing)
    (hcancelled : s.queue.cancelled = false) (hline : e.cursor.nextLine = (some line, cursor))
    (hphase' : e'.phase = .acting a) : e.deeds s e' = [.play line] := by
  simp [deeds, hphase, hcancelled, hline, isReleasing, hphase']

theorem deeds_finish (hphase : e.phase = .choosing) (hcancelled : s.queue.cancelled = false)
    (hline : e.cursor.nextLine = (none, cursor)) (result : Except RunError Unit) :
    e.deeds s (e'.release result) = [.drained, .release] := by
  simp [deeds, hphase, hcancelled, hline, isReleasing, release]

theorem deeds_again (hphase : e.phase = .choosing) (hcancelled : s.queue.cancelled = false)
    (hline : e.cursor.nextLine = (none, cursor)) (hphase' : e'.phase = .choosing) :
    e.deeds s e' = [.drained] := by
  simp [deeds, hphase, hcancelled, hline, isReleasing, hphase']

/-- An action that has not failed. -/
theorem deeds_act {a : Action} (hphase : e.phase = .acting a)
    (hnot : ∀ p e, a.step s.now s.queue.cancelled s.pad ≠ .done p (.error (.output e)))
    (hstays : e'.isReleasing = false) : e.deeds s e' = [] := by
  simp [deeds, hphase, Action.error_eq_none hnot, hstays]

theorem deeds_gone {a a' : Action} {p : Pad} (hphase : e.phase = .acting a)
    (hgone : (a.step s.now s.queue.cancelled s.pad).left? = some (p, a'))
    (hstays : e'.isReleasing = false) : e.deeds s e' = [] := by
  refine deeds_act hphase (fun q err hfails => ?_) hstays
  simp [hfails, Turn.left?] at hgone

theorem deeds_played {a : Action} {p : Pad} (hphase : e.phase = .acting a)
    (hdone : a.step s.now s.queue.cancelled s.pad = .done p (.ok ()))
    (hstays : e'.isReleasing = false) : e.deeds s e' = [] := by
  refine deeds_act hphase (fun q err hfails => ?_) hstays
  simp [hdone] at hfails

/-- An action that has failed. -/
theorem deeds_fail {a : Action} {p : Pad} {error : RunError} (hphase : e.phase = .acting a)
    (hstep : a.step s.now s.queue.cancelled s.pad = .done p (.error error)) :
    error = .cancelled ∧ e.deeds s (e.release (.error error)) = [.release] ∨
      ∃ err, error = .output err ∧
        e.deeds s (e.release (.error error)) = [.refused err, .release] := by
  rcases Action.error_of_failed hstep with ⟨rfl, hnone⟩ | ⟨err, rfl, hsome⟩
  · exact .inl ⟨rfl, by simp [deeds, hphase, hnone, isReleasing, release]⟩
  · exact .inr ⟨err, rfl, by simp [deeds, hphase, hsome, isReleasing, release]⟩

theorem deeds_release {x : Send} {result : Except RunError Unit}
    (hphase : e.phase = .releasing x result) : e.deeds s e' = [] := by
  simp [deeds, hphase, isReleasing]

/-- **What a run does is what it begins.** It plays a line in a step that begins the action of this
line, and in no other; it lets everything go in a step that begins to send the empty line, and in no
other. -/
theorem deeds_iff_begins (h : (e.step s).left? = some (s', e')) :
    (∀ a, (∃ line, .play line ∈ e.deeds s e' ∧ a = .ofLine line) ↔
      e.phase = .choosing ∧ e'.phase = .acting a) ∧
    (.release ∈ e.deeds s e' ↔
      e.isReleasing = false ∧ ∃ result, e'.phase = .releasing (.ofLine [] none) result) := by
  have hadvance := advance_of_left h
  clear h
  generalize e.shows s = shown at hadvance
  cases hadvance with
  | cancel hphase hcancelled =>
    rw [deeds_cancel hphase hcancelled]
    simp [hphase, isReleasing, release]
  | line hphase hcancelled hline =>
    rw [deeds_line hphase hcancelled hline rfl]
    simp [hphase, isReleasing, eq_comm]
  | finish hphase hcancelled hline _ =>
    rw [deeds_finish hphase hcancelled hline]
    simp [hphase, isReleasing, release]
  | again hphase hcancelled hline _ _ =>
    rw [deeds_again hphase hcancelled hline (by exact hphase)]
    simp [hphase]
  | act hphase hgone =>
    rw [deeds_gone hphase hgone rfl]
    simp [hphase]
  | played hphase hdone =>
    rw [deeds_played hphase hdone rfl]
    simp
  | fail hphase hdone =>
    rcases deeds_fail hphase hdone with ⟨-, hdeeds⟩ | ⟨err, -, hdeeds⟩
    · rw [hdeeds]
      simp [hphase, isReleasing, release]
    · rw [hdeeds]
      simp [hphase, isReleasing, release]
  | release hphase _ =>
    rw [deeds_release hphase]
    simp [hphase, isReleasing]

/-- What a run sends at last is the empty line. -/
theorem line_of_left (h : (e.step s).left? = some (s', e'))
    (hline : ∀ x result, e.phase = .releasing x result → x.line = []) :
    ∀ x result, e'.phase = .releasing x result → x.line = [] := by
  have hadvance := advance_of_left h
  clear h
  generalize e.shows s = shown at hadvance
  cases hadvance with
  | cancel _ _ => simp [release, Send.ofLine]
  | finish _ _ _ _ => simp [release, Send.ofLine]
  | fail _ _ => simp [release, Send.ofLine]
  | line _ _ _ => simp
  | again hphase _ _ _ _ => simp [hphase]
  | act _ _ => simp
  | played _ _ => simp
  | @release x x' result p hphase hgone =>
    have hempty := hline x result hphase
    have hsame := Send.line_of_left hgone
    simpa [hsame] using hempty

end Deeds

/-! ### The company of a run -/

/-- A run, what it has done so far, and its company. -/
inductive History (e₀ : Execution) (s₀ : Station) : List Deed → Execution → Station → Prop
  /-- Nothing has happened. -/
  | start : History e₀ s₀ [] e₀ s₀
  /-- The run makes a step and is not over. -/
  | step {past : List Deed} {e e' : Execution} {s s' : Station} :
      History e₀ s₀ past e s → (e.step s).left? = some (s', e') →
      History e₀ s₀ (past ++ e.deeds s e') e' s'
  /-- The others do something. -/
  | others {past : List Deed} {e : Execution} {s s' : Station} :
      History e₀ s₀ past e s → s.KeepsRunning s' → History e₀ s₀ past e s'

/-- **A run is over when its last send is**, which is one of the empty line. -/
theorem History.over {e₀ e : Execution} {s₀ s s' : Station} {deeds : List Deed}
    {outcome : RunOutcome} (h : History e₀ s₀ deeds e s) (hstart : e₀.phase = .choosing)
    (hstep : e.step s = .done s' outcome) :
    ∃ x result p sent, e.phase = .releasing x result ∧ x.line = [] ∧
      x.step s.now false s.pad = .done p sent ∧ s'.pad = p := by
  have hline : ∀ x result, e.phase = .releasing x result → x.line = [] := by
    clear hstep
    induction h with
    | start => simp [hstart]
    | step _ hleft ih => exact line_of_left hleft ih
    | others _ _ ih => exact ih
  obtain ⟨x, result, hphase, -⟩ := step_eq_done hstep
  unfold Execution.step at hstep
  simp only [hphase] at hstep
  obtain ⟨s'', sent, hsend, hnext⟩ := Turn.done_within hstep
  obtain ⟨p, hsent, rfl⟩ := Turn.done_widen hsend
  obtain ⟨rfl, -⟩ := Turn.done.inj hnext
  exact ⟨x, result, p, sent, hphase, hline x result hphase, hsent, rfl⟩

end Execution

section Company

variable {s : Station}

theorem Station.KeepsRunning.within {σ τ α β : Type} {turn : Turn Station σ α} {stay : σ → τ}
    {next : Station → α → Turn Station τ β} (h : s.KeepsRunning turn.world)
    (hnext : ∀ s' a, (next s' a).world.queue.running = s'.queue.running) :
    s.KeepsRunning (turn.within stay next).world :=
  Turn.world_within (f := fun w : Station => w.queue.running) h hnext

theorem Turn.keepsRunning_widen {σ α : Type} (turn : Turn Pad σ α) :
    s.KeepsRunning (turn.widen fun pad => { s with pad := pad }).world := by
  rw [Turn.world_widen]
  rfl

theorem Sleep.keepsRunning (sleep : Sleep) : s.KeepsRunning (sleep.step s).world := by
  unfold step
  split <;> rfl

theorem Realtime.keepsRunning (r : Realtime) : s.KeepsRunning (r.step s).world := by
  cases r with
  | waiting =>
    simp only [step]
    split <;> rfl
  | looking meant =>
    simp only [step, look]
    split
    · split <;> rfl
    · rfl
  | sending meant x => exact (Turn.keepsRunning_widen _).within fun _ _ => rfl
  | sleeping sleep => exact sleep.keepsRunning.within fun _ _ => rfl
  | releasing x => exact (Turn.keepsRunning_widen _).within fun _ _ => rfl

theorem Periodic.keepsRunning (t : Periodic) : s.KeepsRunning (t.step s).world := by
  cases t with
  | stamping meant =>
    simp only [step]
    split <;> rfl
  | delivering meant d => exact (Turn.keepsRunning_widen _).within fun _ _ => rfl
  | sleeping sleep => exact sleep.keepsRunning.within fun _ _ => rfl

theorem HostReports.keepsRunning (t : HostReports) : s.KeepsRunning (t.step s).world := by
  cases t with
  | reading =>
    simp only [step]
    split
    · rfl
    · split
      · rfl
      · split
        · rfl
        · split <;> rfl
  | delivering d => exact (Turn.keepsRunning_widen _).within fun _ _ => rfl

theorem QueueEffect.running_eq {setup : Setup} {payload : Text} {q q' : RunQueue}
    {response : Response} (h : QueueEffect setup payload q response q') :
    q'.running = q.running := by
  cases h <;> rfl

/-- A payload asks for runs and cancels them, but neither begins nor ends one. -/
theorem Station.keepsRunning_handle (setup : Setup) (payload : Text) :
    s.KeepsRunning (s.handle setup payload).2 :=
  (handle_effect setup payload s).running_eq

theorem CommandLink.keepsRunning_respond (status : String) :
    s.KeepsRunning (respond status s) := by
  unfold respond
  split <;> rfl

theorem CommandLink.keepsRunning_serve (setup : Setup) (read : Except LinkError Text) :
    s.KeepsRunning (serve setup read s) := by
  unfold serve
  split
  · rfl
  · exact keepsRunning_respond _
  · split
    · rfl
    · exact (keepsRunning_respond _).trans (Station.keepsRunning_handle setup _)

theorem CommandLink.keepsRunning (setup : Setup) (r : LineReader) :
    s.KeepsRunning (step setup r s).world := by
  unfold step
  split
  · rfl
  · simp only
    split
    · exact keepsRunning_serve setup _
    · rfl

theorem PowerUp.keepsRunning (setup : Setup) : s.KeepsRunning (step setup s).world := by
  unfold step
  cases setup.config.startupRequest? with
  | none => rfl
  | some request =>
    cases s.wires.configured with
    | false => rfl
    | true =>
      cases hknown : setup.library.contains request.name with
      | false =>
        simp only [hknown]
        rfl
      | true =>
        by_cases hroom : s.queue.requests.length < RunQueue.capacity
        · simp only [hknown, RunQueue.enqueue, if_pos hroom]
          rfl
        · simp only [hknown, RunQueue.enqueue, if_neg hroom]
          rfl

/-- **The company of a run leaves its flag alone.** -/
theorem Task.keepsRunning (setup : Setup) {t : Task} (h : ∀ r, t ≠ .runner r) (s : Station) :
    s.KeepsRunning (t.step setup s).world := by
  cases t with
  | runner r => exact absurd rfl (h r)
  | periodic t => exact t.keepsRunning.within fun _ _ => rfl
  | realtime r =>
    have hserve : s.KeepsRunning (r.serve s).world := r.keepsRunning.within fun _ _ => rfl
    exact hserve.within fun _ _ => rfl
  | hostReports t => exact t.keepsRunning.within fun _ _ => rfl
  | commands r => exact (CommandLink.keepsRunning setup r).within fun _ _ => rfl
  | powerUp => exact (PowerUp.keepsRunning setup).within fun _ _ => rfl
  | «over» => rfl

end Company

end PadScript
