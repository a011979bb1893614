import PadScript.Play.Job
import PadScript.Proofs.Joystick.Send
import PadScript.Proofs.Run.Completion

/-!
# The sends inside jobs

A job makes one send after another, inside an action, a key press, a session of realtime mode or a
run. Whatever it makes them for, it deals with the pad as its send does.

* `Job.send?` : the send that a job makes at the moment.
* `Job.deals_step` : **a step of a job deals with the pad.**
-/

namespace PadScript

/-- The send that follows from the step of an action is the one that follows from the step of its
send. -/
theorem Action.Follows.send_eq {t : Turn Pad Send (Except RunError Nat)}
    {t' : Turn Pad Action (Except RunError Unit)} (h : Follows t t') :
    t'.state?.bind Action.send? = t.state? := by
  cases t with
  | wait p x again =>
    obtain ⟨a, rfl, hsend⟩ := h
    exact hsend
  | go p x =>
    obtain ⟨a, rfl, hsend⟩ := h
    exact hsend
  | done p result =>
    cases result with
    | ok _ =>
      rcases h with rfl | ⟨a, rfl, hsend⟩
      · rfl
      · exact hsend
    | error e =>
      obtain rfl : t' = .done p (.error e) := h
      rfl

/-- A send that an action turns to is at its beginning. -/
theorem Action.Idles.phase_eq {isCancelled : Bool} {p : Pad}
    {t : Turn Pad Action (Except RunError Unit)} (h : Idles isCancelled p t) {y : Send}
    (hy : t.state?.bind Action.send? = some y) : y.phase = .asking := by
  cases t with
  | wait p' a again => exact h.2 y hy
  | go p' a => exact h.2 y hy
  | done p' result => simp [Turn.state?] at hy

/-- The send of a key press. -/
def KeyPress.send? : KeyPress → Option Send
  | .pressing x _ => some x
  | .letting x => some x

/-- The send of a session of realtime mode. -/
def Realtime.send? : Realtime → Option Send
  | .sending _ x => some x
  | .releasing x => some x
  | _ => none

/-- The send of a job. -/
def Job.send? : Job → Option Send
  | .action a _ => a.send?
  | .send x => some x
  | .keyPress k => k.send?
  | .release x => some x
  | .session r => r.send?
  | .execution e => e.send?
  | _ => none

section Deals

variable {p : Pad} {s : Station} (now : Nat) (isCancelled : Bool)

/-- A step of an action deals with the pad. -/
theorem Action.deals_step (hprofile : p.profile = .horipadS) (a : Action) :
    p.Deals now (a.step now isCancelled p).world a.send?
      ((a.step now isCancelled p).state?.bind Action.send?) := by
  cases hsend : a.send? with
  | none =>
    have hidles := step_of_no_send hsend now isCancelled p
    rw [hidles.world_eq]
    exact .rest rfl rfl rfl rfl fun y hy => hidles.phase_eq hy
  | some x =>
    have hfollows := step_of_send hsend now isCancelled p
    rw [hfollows.world_eq, hfollows.send_eq]
    exact Send.deals_step hprofile now isCancelled x

/-- A step of a part of a task that shares only the pad deals with it. -/
theorem Pad.Deals.widen {σ α : Type} {turn : Turn Pad σ α} {x? : Option Send}
    {sendOf : σ → Option Send}
    (h : s.pad.Deals s.now turn.world x? (turn.state?.bind sendOf)) :
    s.pad.Deals s.now (turn.widen fun pad => { s with pad := pad }).world.pad x?
      ((turn.widen fun pad => { s with pad := pad }).state?.bind sendOf) := by
  rw [Turn.world_widen, Turn.state?_widen]
  exact h

/-- A step of a send, as part of a task. -/
theorem Send.deals_part (hprofile : p.profile = .horipadS) (x : Send) :
    p.Deals now (x.step now isCancelled p).world (some x)
      ((x.step now isCancelled p).state?.bind some) := by
  rw [Option.bind_fun_some]
  exact x.deals_step hprofile now isCancelled

/-- A step of a key press deals with the pad. -/
theorem KeyPress.deals_step (hprofile : p.profile = .horipadS) (k : KeyPress) :
    p.Deals now (k.step now isCancelled p).world k.send?
      ((k.step now isCancelled p).state?.bind KeyPress.send?) := by
  have hsend := fun x : Send => x.deals_part now isCancelled hprofile
  cases k with
  | pressing x hold =>
    refine (hsend x).within id some KeyPress.send? (fun _ => rfl) (fun w result => ?_)
      fun w result y hy => ?_
    · cases result <;> rfl
    · cases result with
      | ok t =>
        obtain rfl := Option.some.inj hy
        rfl
      | error e => simp [Turn.state?] at hy
  | letting x =>
    exact (hsend x).within id some KeyPress.send? (fun _ => rfl) (fun _ _ => rfl)
      fun w result y hy => by simp [Turn.state?] at hy

/-- A step of a session of realtime mode deals with the pad. -/
theorem Realtime.deals_step (hprofile : s.pad.profile = .horipadS) (r : Realtime) :
    s.pad.Deals s.now (r.step s).world.pad r.send? ((r.step s).state?.bind Realtime.send?) := by
  cases r with
  | waiting =>
    simp only [step]
    split <;> exact .rest rfl rfl rfl rfl fun y hy => by simp [Turn.state?, send?] at hy
  | looking meant =>
    -- a look at most begins a send, which asks for the sink in a later step
    simp only [step, look]
    split
    · split
      · refine .rest rfl rfl rfl rfl fun y hy => ?_
        obtain rfl := Option.some.inj hy
        rfl
      · exact .rest rfl rfl rfl rfl fun y hy => by simp [pause, Turn.state?, send?] at hy
    · refine .rest rfl rfl rfl rfl fun y hy => ?_
      obtain rfl := Option.some.inj hy
      rfl
  | sending meant x =>
    exact (x.deals_part s.now false hprofile).widen.within Station.pad some Realtime.send?
      (fun _ => rfl) (fun _ _ => rfl) fun w result y hy => by simp [pause, Turn.state?, send?] at hy
  | sleeping sleep =>
    simp only [step, Sleep.step]
    split <;>
      exact .rest rfl rfl rfl rfl fun y hy => by simp [Turn.within, Turn.state?, send?] at hy
  | releasing x =>
    exact (x.deals_part s.now false hprofile).widen.within Station.pad some Realtime.send?
      (fun _ => rfl) (fun _ _ => rfl) fun w result y hy => by simp [Turn.state?] at hy

/-- Between two lines of a run a send is at its beginning. -/
theorem Execution.phase_eq_of_choose {e : Execution} (hphase : e.phase = .choosing) {y : Send}
    (hy : (e.choose isCancelled).send? = some y) : y.phase = .asking := by
  have hrelease : ∀ (e : Execution) result, (e.release result).send? = some y →
      y.phase = .asking := by
    intro e result h
    obtain rfl := Option.some.inj h
    rfl
  unfold choose at hy
  split at hy
  · exact hrelease _ _ hy
  · split at hy
    · simp [send?, Action.send?, Action.ofLine] at hy
    · unfold endCycle at hy
      simp only at hy
      split at hy
      · exact hrelease _ _ hy
      · split at hy
        · exact hrelease _ _ hy
        · simp [send?, hphase] at hy

/-- A step of a run deals with the pad. -/
theorem Execution.deals_step (hprofile : s.pad.profile = .horipadS) (e : Execution) :
    s.pad.Deals s.now (e.step s).world.pad e.send? ((e.step s).state?.bind Execution.send?) := by
  cases hphase : e.phase with
  | choosing =>
    simp only [step, hphase]
    exact .rest rfl rfl rfl rfl fun y hy => phase_eq_of_choose _ hphase hy
  | acting a =>
    simp only [step, hphase]
    have hsend : e.send? = a.send? := by rw [send?, hphase]
    rw [hsend]
    refine (a.deals_step s.now _ hprofile).widen.within Station.pad Action.send?
      Execution.send? (fun _ => rfl) (fun w result => ?_) fun w result y hy => ?_
    · cases result <;> rfl
    · cases result with
      | ok _ => simp [Turn.state?, send?] at hy
      | error e =>
        obtain rfl := Option.some.inj hy
        rfl
  | releasing x result =>
    simp only [step, hphase]
    have hsend : e.send? = some x := by rw [send?, hphase]
    rw [hsend]
    exact (x.deals_part s.now false hprofile).widen.within Station.pad some Execution.send?
      (fun _ => rfl) (fun _ _ => rfl) fun w result y hy => by simp [Turn.state?] at hy

/-- **A step of a job deals with the pad.** -/
theorem Job.deals_step (hprofile : s.pad.profile = .horipadS) (j : Job) :
    s.pad.Deals s.now (j.step isCancelled s).world.pad j.send?
      ((j.step isCancelled s).state?.bind Job.send?) := by
  cases j with
  | action a never =>
    exact (a.deals_step s.now _ hprofile).widen.within Station.pad Action.send? Job.send?
      (fun _ => rfl) (fun _ _ => rfl) fun w result y hy => by simp [Turn.state?] at hy
  | send x =>
    exact (x.deals_part s.now _ hprofile).widen.within Station.pad some Job.send? (fun _ => rfl)
      (fun _ _ => rfl) fun w result y hy => by simp [Turn.state?] at hy
  | keyPress k =>
    exact (k.deals_step s.now _ hprofile).widen.within Station.pad KeyPress.send? Job.send?
      (fun _ => rfl) (fun _ _ => rfl) fun w result y hy => by simp [Turn.state?] at hy
  | release x =>
    exact (x.deals_part s.now _ hprofile).widen.within Station.pad some Job.send? (fun _ => rfl)
      (fun _ _ => rfl) fun w result y hy => by simp [Turn.state?] at hy
  | sleep deadline =>
    simp only [step]
    split <;> exact .rest rfl rfl rfl rfl fun y hy => by simp [Turn.state?, send?] at hy
  | cancellation =>
    simp only [step]
    split <;> exact .rest rfl rfl rfl rfl fun y hy => by simp [Turn.state?, send?] at hy
  | session r =>
    exact (r.deals_step hprofile).within Station.pad Realtime.send? Job.send? (fun _ => rfl)
      (fun _ _ => rfl) fun w result y hy => by simp [Turn.state?] at hy
  | execution e =>
    exact (e.deals_step hprofile).within Station.pad Execution.send? Job.send? (fun _ => rfl)
      (fun _ _ => rfl) fun w result y hy => by simp [Turn.state?] at hy

end Deals

/-- No time goes by in a step, and the wires stay as they are. -/
theorem Job.outside_step {s : Station} (isCancelled : Bool) (j : Job) :
    (j.step isCancelled s).world.outside = s.outside := by
  cases j with
  | action a never => exact Turn.outside_within (Turn.outside_widen _) fun _ _ => rfl
  | send x => exact Turn.outside_within (Turn.outside_widen _) fun _ _ => rfl
  | keyPress k => exact Turn.outside_within (Turn.outside_widen _) fun _ _ => rfl
  | release x => exact Turn.outside_within (Turn.outside_widen _) fun _ _ => rfl
  | sleep deadline =>
    simp only [step]
    split <;> rfl
  | cancellation =>
    simp only [step]
    split <;> rfl
  | session r => exact Turn.outside_within r.outside_step fun _ _ => rfl
  | execution e => exact Turn.outside_within e.outside_step fun _ _ => rfl

end PadScript
