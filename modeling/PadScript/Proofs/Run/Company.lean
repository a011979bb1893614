import PadScript.Play.Task
import PadScript.Proofs.Run.Step

/-!
# The company of a run

The company of a run are the other tasks of its station: they serve the command link, answer the
host and keep it up to date. `Station.Passes` is what a run can count on while they do so.

* `Task.step_passes` : **a step of another task passes**: the pad stays the same kind of pad, time
  and the last send do not go back, and sends are kept apart as before.
* `Realtime.outside_step` and its neighbours : what the tasks that work on the pad leave alone.
-/

namespace PadScript

/-- What the other tasks leave as it is while a run waits: the station before and after. -/
structure Station.Passes (s s' : Station) : Prop where
  /-- It is the same kind of pad. -/
  profile : s'.pad.profile = s.pad.profile
  /-- Sends are kept apart as before. -/
  interval : s'.pad.pacer.interval = s.pad.pacer.interval
  /-- Time does not go back. -/
  now_le : s.now ≤ s'.now
  /-- If the last send is another one, it was meanwhile. -/
  last : s'.pad.pacer.last? = s.pad.pacer.last? ∨
    ∃ t, s'.pad.pacer.last? = some t ∧ s.now ≤ t ∧ t ≤ s'.now

namespace Station.Passes

variable {s s' s'' : Station}

theorem trans (h : s.Passes s') (h' : s'.Passes s'') : s.Passes s'' where
  profile := h'.profile.trans h.profile
  interval := h'.interval.trans h.interval
  now_le := Nat.le_trans h.now_le h'.now_le
  last := by
    rcases h'.last with hsame | ⟨t, ht, hfrom, htil⟩
    · rcases h.last with hsame' | ⟨t, ht, hfrom, htil⟩
      · exact .inl (hsame.trans hsame')
      · exact .inr ⟨t, hsame.trans ht, hfrom, Nat.le_trans htil h'.now_le⟩
    · exact .inr ⟨t, ht, Nat.le_trans h.now_le hfrom, htil⟩

/-- Neither the time nor the pacer nor the profile has changed. -/
theorem ofPacer (hprofile : s'.pad.profile = s.pad.profile) (hpacer : s'.pad.pacer = s.pad.pacer)
    (hnow : s'.now = s.now) : s.Passes s' where
  profile := hprofile
  interval := by rw [hpacer]
  now_le := Nat.le_of_eq hnow.symm
  last := .inl (by rw [hpacer])

theorem refl (s : Station) : s.Passes s := ofPacer rfl rfl rfl

/-- A step of a send passes. -/
theorem ofNext {p : Pad} (h : s.pad.Next s.now p) : s.Passes { s with pad := p } where
  profile := h.profile
  interval := h.interval
  now_le := Nat.le_refl _
  last := by
    rcases h.last with hsame | hnow
    · exact .inl hsame
    · exact .inr ⟨s.now, hnow, Nat.le_refl _, Nat.le_refl _⟩

end Station.Passes

/-! ### The steps of the other tasks -/

section Steps

variable {s : Station}

/-- A part of a task passes if its own steps do and what follows its end does. -/
theorem Station.Passes.within {σ τ α β : Type} {turn : Turn Station σ α} {stay : σ → τ}
    {next : Station → α → Turn Station τ β} (h : s.Passes turn.world)
    (hnext : ∀ s' a, s.Passes s' → s.Passes (next s' a).world) :
    s.Passes (turn.within stay next).world := by
  cases turn with
  | wait s' x again => exact h
  | go s' x => exact h
  | done s' a => exact hnext s' a h

/-- A task that only finishes after a part of it. -/
theorem Station.Passes.ending {σ τ α β : Type} {turn : Turn Station σ α} {stay : σ → τ}
    {next : Station → α → Turn Station τ β} (h : s.Passes turn.world)
    (hnext : ∀ s' a, (next s' a).world = s') : s.Passes (turn.within stay next).world :=
  h.within fun s' a hs' => by rwa [hnext]

theorem Send.passes (x : Send) (isCancelled : Bool) :
    s.Passes ((x.step s.now isCancelled s.pad).widen fun pad => { s with pad := pad }).world := by
  have hnext := x.next_world s.now isCancelled s.pad
  cases hstep : x.step s.now isCancelled s.pad with
  | wait p x' again => exact .ofNext (by rwa [hstep] at hnext)
  | go p x' => exact .ofNext (by rwa [hstep] at hnext)
  | done p result => exact .ofNext (by rwa [hstep] at hnext)

theorem Delivery.passes (d : Delivery) :
    s.Passes ((d.step s.now s.pad).widen fun pad => { s with pad := pad }).world := by
  cases d with
  | asking report =>
    simp only [step]
    cases s.pad.sinkHeld <;> exact .ofPacer rfl rfl rfl
  | writing w =>
    simp only [step]
    cases w.step s.now s.pad.sink <;> exact .ofPacer rfl rfl rfl

theorem Sleep.passes (sleep : Sleep) : s.Passes (sleep.step s).world := by
  unfold step
  split <;> exact .refl s

theorem Realtime.passes (r : Realtime) : s.Passes (r.step s).world := by
  cases r with
  | waiting =>
    simp only [step]
    split <;> exact .ofPacer rfl rfl rfl
  | looking meant =>
    simp only [step, look]
    split
    · split <;> exact .ofPacer rfl rfl rfl
    · exact .refl s
  | sending meant x => exact (x.passes false).ending fun _ _ => rfl
  | sleeping sleep => exact sleep.passes.ending fun _ _ => rfl
  | releasing x => exact (x.passes false).ending fun _ _ => rfl

theorem Periodic.passes (t : Periodic) : s.Passes (t.step s).world := by
  cases t with
  | stamping meant =>
    simp only [step]
    split <;> exact .ofPacer rfl rfl rfl
  | delivering meant d => exact d.passes.ending fun _ _ => rfl
  | sleeping sleep => exact sleep.passes.ending fun _ _ => rfl

theorem HostReports.passes (t : HostReports) : s.Passes (t.step s).world := by
  cases t with
  | reading =>
    simp only [step]
    split
    · exact .refl s
    · split
      · exact .ofPacer rfl rfl rfl
      · split
        · exact .ofPacer rfl rfl rfl
        · split <;> exact .ofPacer rfl rfl rfl
  | delivering d => exact d.passes.ending fun _ _ => rfl

namespace Station

variable (setup : Setup)

/-- A request for a run changes at most the queue. -/
theorem request_eq (r : PlayRequest) (afresh : Bool) (s : Station) :
    ∃ queue, (s.request setup r afresh).2 = { s with queue := queue } := by
  simp only [request]
  split
  · split <;> exact ⟨_, rfl⟩
  · exact ⟨_, rfl⟩

theorem request_passes (r : PlayRequest) (afresh : Bool) :
    s.Passes (s.request setup r afresh).2 := by
  obtain ⟨queue, heq⟩ := request_eq setup r afresh s
  rw [heq]
  exact .ofPacer rfl rfl rfl

/-- Handling a payload passes. -/
theorem handle_passes (payload : Text) : s.Passes (s.handle setup payload).2 := by
  unfold handle
  split
  next command _ =>
    cases command with
    | start r => exact request_passes setup r false
    | restart r => exact request_passes setup r true
    | stop => exact .ofPacer rfl rfl rfl
    | realtimeStart => exact .ofPacer rfl rfl rfl
    | realtimeStop =>
      simp only [apply, Pad.stopRealtime]
      split <;> exact .ofPacer rfl rfl rfl
    | realtimeAction line =>
      simp only [apply, Pad.setRealtime]
      cases s.pad.isRealtime <;> exact .ofPacer rfl rfl rfl
  · exact .refl s

end Station

theorem CommandLink.respond_passes (status : String) : s.Passes (respond status s) := by
  unfold respond
  split <;> exact .ofPacer rfl rfl rfl

theorem CommandLink.serve_passes (setup : Setup) (read : Except LinkError Text) :
    s.Passes (serve setup read s) := by
  unfold serve
  split
  · exact .refl s
  · exact respond_passes _
  · split
    · exact .refl s
    · exact (Station.handle_passes setup _).trans (respond_passes _)

theorem CommandLink.passes (setup : Setup) (r : LineReader) :
    s.Passes (step setup r s).world := by
  unfold step
  split
  · exact .refl s
  · have htaken : ∀ rest, s.Passes { s with wires := { s.wires with uartIn := rest } } :=
      fun rest => .ofPacer rfl rfl rfl
    simp only
    split
    · exact (htaken _).trans (serve_passes setup _)
    · exact htaken _

theorem PowerUp.passes (setup : Setup) : s.Passes (step setup s).world := by
  unfold step
  cases setup.config.startupRequest? with
  | none => exact .refl s
  | some request =>
    cases s.wires.configured with
    | false => exact .refl s
    | true =>
      cases hknown : setup.library.contains request.name with
      | false =>
        simp only [hknown]
        exact .ofPacer rfl rfl rfl
      | true =>
        simp only [hknown]
        cases s.queue.enqueue request <;> exact .ofPacer rfl rfl rfl

/-- **A step of another task passes.** -/
theorem Task.step_passes (setup : Setup) {t : Task} (h : ∀ r, t ≠ .runner r) (s : Station) :
    s.Passes (t.step setup s).world := by
  cases t with
  | runner r => exact absurd rfl (h r)
  | periodic t => exact t.passes.ending fun _ _ => rfl
  | realtime r =>
    have hserve : s.Passes (r.serve s).world := r.passes.ending fun _ _ => rfl
    exact hserve.ending fun _ _ => rfl
  | hostReports t => exact t.passes.ending fun _ _ => rfl
  | commands r => exact (CommandLink.passes setup r).ending fun _ _ => rfl
  | powerUp => exact (PowerUp.passes setup).ending fun _ _ => rfl
  | «over» => exact .refl s

end Steps

/-! ### Steps on the pad -/

/-- The time, the clock and the wires. -/
def Station.outside (s : Station) : Nat × Clock × Wires := (s.now, s.clock, s.wires)

section Outside

variable {s : Station}

theorem Turn.outside_widen {σ α : Type} (turn : Turn Pad σ α) :
    (turn.widen fun pad => { s with pad := pad }).world.outside = s.outside := by
  rw [world_widen]
  rfl

theorem Turn.outside_within {σ τ α β : Type} {turn : Turn Station σ α} {stay : σ → τ}
    {next : Station → α → Turn Station τ β} (h : turn.world.outside = s.outside)
    (hnext : ∀ w a, (next w a).world.outside = w.outside) :
    (turn.within stay next).world.outside = s.outside :=
  Turn.world_within (f := Station.outside) h hnext

theorem Realtime.outside_step (r : Realtime) : (r.step s).world.outside = s.outside := by
  cases r with
  | waiting =>
    simp only [step]
    split <;> rfl
  | looking meant =>
    simp only [step, look]
    split
    · split <;> rfl
    · rfl
  | sending meant x => exact Turn.outside_within (Turn.outside_widen _) fun _ _ => rfl
  | sleeping sleep =>
    simp only [step, Sleep.step]
    split <;> rfl
  | releasing x => exact Turn.outside_within (Turn.outside_widen _) fun _ _ => rfl

theorem Periodic.outside_step (t : Periodic) : (t.step s).world.outside = s.outside := by
  cases t with
  | stamping meant =>
    simp only [step]
    split <;> rfl
  | delivering meant d => exact Turn.outside_within (Turn.outside_widen _) fun _ _ => rfl
  | sleeping sleep =>
    simp only [step, Sleep.step]
    split <;> rfl

theorem Execution.outside_step (e : Execution) : (e.step s).world.outside = s.outside := by
  unfold step
  split
  · rfl
  · refine Turn.outside_within (Turn.outside_widen _) fun w result => ?_
    cases result <;> rfl
  · exact Turn.outside_within (Turn.outside_widen _) fun _ _ => rfl

theorem Runner.outside_step (setup : Setup) (r : Runner) :
    (r.step setup s).world.outside = s.outside := by
  cases r with
  | idle =>
    simp only [step]
    split
    · rfl
    · simp only [Execution.start?]
      cases Cursor.start? setup.library _ _ <;> rfl
  | playing e => exact Turn.outside_within e.outside_step fun _ _ => rfl

end Outside

end PadScript
