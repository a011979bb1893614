import PadScript.Proofs.Joystick.Callers

/-!
# The grip of a run on the sink

The grip of a task is that its send holds the sink, which one task at a time can do. On a joystick a
task waits inside a send, and a send keeps the sink while it waits. A run lets the sink go between
two sends, but asks for it again before it waits. So it waits without the sink only when somebody
else has it, and while nobody has, it does not wait.

* `Send.tries_step`, `Execution.tries_step`, `Realtime.tries_serve` : a step makes one attempt at
  most.
* `Realtime.sink_serve` : a session without the sink attempts nothing.
* `Turn.Grips` : a task waits only with the sink in its hands, and leaves it to nobody.
* `Send.grips_step`, `Action.grips_step`, `Execution.grips_step` : **a task that sends grips the
  sink**, if nobody else has it.
-/

namespace PadScript

/-! ### What a step does to the sink -/

/-- What a step of a task can do to the sink. -/
inductive Sink.Tries (s s' : Sink) : Prop
  /-- It attempts nothing. -/
  | nothing : s'.sent = s.sent → s'.attempts = s.attempts → Tries s s'
  /-- It makes an attempt, and the sink takes the report. -/
  | taken {report : Nat × List UInt8} : s'.sent = s.sent ++ [report] →
      s'.attempts = s.attempts + 1 → Tries s s'
  /-- It makes an attempt, and the sink refuses the report. -/
  | refused : s'.sent = s.sent → s'.attempts = s.attempts + 1 → Tries s s'

theorem Sink.Tries.refl (s : Sink) : s.Tries s := .nothing rfl rfl

/-- A step of a write makes an attempt, or waits for the one before. -/
theorem Write.tries_step (now : Nat) (w : Write) (s : Sink) : s.Tries (w.step now s).world := by
  obtain ⟨outcomes, sent, attempts⟩ := s
  obtain ⟨report, retries⟩ := w
  cases outcomes with
  | nil => exact .taken rfl rfl
  | cons o rest =>
    cases o with
    | taken => exact .taken rfl rfl
    | suspended => exact .nothing rfl rfl
    | refused e =>
      cases e with
      | wouldBlock => cases retries <;> exact .refused rfl rfl
      | disconnected => exact .refused rfl rfl
      | io => exact .refused rfl rfl

namespace Send

theorem sink_proceed (now : Nat) (x : Send) (p : Pad) (wait : Wait) :
    (x.proceed now p wait).world.sink = p.sink := by
  cases wait with
  | cancelled =>
    simp only [proceed]
    split <;> rfl
  | sleeping deadline => rfl
  | «over» =>
    simp only [proceed]
    split <;> rfl

/-- A send that asks for the sink attempts nothing. -/
theorem sink_step_of_asking {x : Send} (hphase : x.phase = .asking) (now : Nat)
    (isCancelled : Bool) (p : Pad) : (x.step now isCancelled p).world.sink = p.sink := by
  simp only [step, hphase]
  split
  · split
    · rfl
    · exact sink_proceed now x _ _
  · exact sink_proceed now x p _

theorem tries_step (now : Nat) (isCancelled : Bool) (x : Send) (p : Pad) :
    p.sink.Tries (x.step now isCancelled p).world.sink := by
  cases hphase : x.phase with
  | asking =>
    rw [sink_step_of_asking hphase]
    exact .refl p.sink
  | pacing deadline =>
    simp only [step, hphase]
    split
    · exact .refl p.sink
    · rw [sink_proceed]
      exact .refl p.sink
  | writing w =>
    have htries := w.tries_step now p.sink
    simp only [step, hphase]
    cases hstep : w.step now p.sink with
    | wait sink w' again =>
      rw [hstep] at htries
      exact htries
    | go sink w' =>
      rw [hstep] at htries
      exact htries
    | done sink result =>
      rw [hstep] at htries
      cases result <;> exact htries

end Send

/-- A task leaves the pad as its part does, if it leaves the pad alone when the part is over. -/
theorem Turn.pad_within {σ τ α β : Type} {turn : Turn Station σ α} {stay : σ → τ}
    {next : Station → α → Turn Station τ β} (h : ∀ w a, (next w a).world.pad = w.pad) :
    (turn.within stay next).world.pad = turn.world.pad :=
  Turn.world_within (f := Station.pad) rfl h

theorem Action.tries_step (now : Nat) (isCancelled : Bool) (a : Action) (p : Pad) :
    p.sink.Tries (a.step now isCancelled p).world.sink := by
  cases hsend : a.send? with
  | none =>
    rw [(step_of_no_send hsend now isCancelled p).world_eq]
    exact .refl p.sink
  | some x =>
    rw [(step_of_send hsend now isCancelled p).world_eq]
    exact x.tries_step now isCancelled p

theorem Execution.tries_step (e : Execution) (s : Station) :
    s.pad.sink.Tries (e.step s).world.pad.sink := by
  unfold step
  split
  · exact .refl s.pad.sink
  next a _ =>
    rw [Turn.pad_within fun w result => by cases result <;> rfl, Turn.world_widen]
    exact a.tries_step s.now _ s.pad
  next x result _ =>
    rw [Turn.pad_within fun _ _ => rfl, Turn.world_widen]
    exact x.tries_step s.now _ s.pad

/-- A session whose send has not got the sink attempts nothing. -/
theorem Realtime.sink_serve {r : Realtime} (h : ¬Send.Holds r.send?) (s : Station) :
    (r.serve s).world.pad.sink = s.pad.sink := by
  have hasking : ∀ x, r.send? = some x → x.phase = .asking := by
    intro x hx
    by_contra hphase
    exact h ⟨x, hx, hphase⟩
  rw [serve, Turn.pad_within fun _ _ => rfl]
  cases r with
  | waiting =>
    simp only [step]
    split <;> rfl
  | looking meant =>
    simp only [step, look]
    split
    · split <;> rfl
    · rfl
  | sending meant x =>
    rw [step, Turn.pad_within fun _ _ => rfl, Turn.world_widen]
    exact Send.sink_step_of_asking (hasking x rfl) s.now false s.pad
  | sleeping sleep =>
    simp only [step, Sleep.step]
    split <;> rfl
  | releasing x =>
    rw [step, Turn.pad_within fun _ _ => rfl, Turn.world_widen]
    exact Send.sink_step_of_asking (hasking x rfl) s.now false s.pad

theorem Realtime.tries_serve (r : Realtime) (s : Station) :
    s.pad.sink.Tries (r.serve s).world.pad.sink := by
  by_cases h : Send.Holds r.send?
  · -- only a session that sends can hold the sink
    obtain ⟨x, hx, -⟩ := h
    rw [serve, Turn.pad_within fun _ _ => rfl]
    cases r with
    | waiting => cases hx
    | looking meant => cases hx
    | sending meant y =>
      rw [step, Turn.pad_within fun _ _ => rfl, Turn.world_widen]
      exact y.tries_step s.now false s.pad
    | sleeping sleep => cases hx
    | releasing y =>
      rw [step, Turn.pad_within fun _ _ => rfl, Turn.world_widen]
      exact y.tries_step s.now false s.pad
  · rw [sink_serve h]
    exact .refl s.pad.sink

/-! ### What a step does with the sink in its hands -/

namespace Turn

/-- The task goes on, and its turn is not over. -/
def goesOn {ω σ α : Type} : Turn ω σ α → Bool
  | .go _ _ => true
  | _ => false

variable {ω σ τ α β : Type} {padOf : ω → Pad} {sendOf : σ → Option Send}
  {sendOf' : τ → Option Send}

/-- How a step leaves the lock on the sink: the task waits only if its send holds it. When it goes
on its send holds it or nobody does, and when it is done nobody does. -/
def Grips (padOf : ω → Pad) (sendOf : σ → Option Send) : Turn ω σ α → Prop
  | .wait _ y _ => Send.Holds (sendOf y)
  | .go w y => (padOf w).sinkHeld = true → Send.Holds (sendOf y)
  | .done w _ => (padOf w).sinkHeld = false

/-- A task that shares only the pad grips the sink of the station. -/
theorem Grips.widen {s : Station} {turn : Turn Pad σ α} (h : turn.Grips id sendOf) :
    (turn.widen fun pad => { s with pad := pad }).Grips Station.pad sendOf := by
  cases turn with
  | wait w y again => exact h
  | go w y => exact h
  | done w a => exact h

/-- A task grips the sink as its part does, if it does so when the part is over and the sink is
free. -/
theorem Grips.within {turn : Turn ω σ α} {stay : σ → τ} {next : ω → α → Turn ω τ β}
    (h : turn.Grips padOf sendOf) (hstay : ∀ y, sendOf' (stay y) = sendOf y)
    (hnext : ∀ w a, (padOf w).sinkHeld = false → (next w a).Grips padOf sendOf') :
    (turn.within stay next).Grips padOf sendOf' := by
  cases turn with
  | wait w y again =>
    rw [Grips] at h
    rwa [Turn.within, Grips, hstay]
  | go w y =>
    rw [Grips] at h
    rwa [Turn.within, Grips, hstay]
  | done w a => exact hnext w a h

/-- The state of a task comes from its part, or from what follows when the part is over. -/
theorem state_within {turn : Turn ω σ α} {stay : σ → τ} {next : ω → α → Turn ω τ β} {y : τ}
    (h : (turn.within stay next).state? = some y) :
    (∃ x, turn.state? = some x ∧ y = stay x) ∨
      ∃ w a, turn = .done w a ∧ (next w a).state? = some y := by
  cases turn with
  | wait w x again => exact .inl ⟨x, rfl, (Option.some.inj h).symm⟩
  | go w x => exact .inl ⟨x, rfl, (Option.some.inj h).symm⟩
  | done w a => exact .inr ⟨w, a, rfl, h⟩

/-- With a free sink a task may go on. -/
theorem grips_go {w : ω} {y : σ} (h : (padOf w).sinkHeld = false) :
    (Turn.go w y : Turn ω σ α).Grips padOf sendOf := by
  intro hheld
  cases h.symm.trans hheld

end Turn

/-- Nobody but this send has the sink. -/
def Pad.LeftTo (x? : Option Send) (p : Pad) : Prop := p.sinkHeld = true → Send.Holds x?

theorem Pad.LeftTo.free {p : Pad} {x? : Option Send} (h : p.LeftTo x?)
    (hfresh : ∀ x, x? = some x → x.phase = .asking) : p.sinkHeld = false := by
  cases hheld : p.sinkHeld with
  | false => rfl
  | true => exact absurd (h hheld) (Send.not_holds_of_asking hfresh)

section Grips

variable {p : Pad} {s : Station}

theorem Send.grips_step (hprofile : p.profile = .horipadS) {x : Send} (h : p.LeftTo (some x))
    (now : Nat) (isCancelled : Bool) : (x.step now isCancelled p).Grips id some := by
  have hmoves := moves_step hprofile now isCancelled x
  generalize x.step now isCancelled p = turn at hmoves ⊢
  cases hmoves with
  | queue hphase hheld => exact h hheld
  | refuse hphase hfree hcancelled => rfl
  | take hphase hfree hdeadline hlt => exact fun _ => holds_some.2 nofun
  | takeNow hphase hfree hdue => exact fun _ => holds_some.2 nofun
  | sleep hphase hlt => exact holds_some.2 (by simp [hphase])
  | giveUp hphase hcancelled => rfl
  | wake hphase hle => exact fun _ => holds_some.2 nofun
  | suspend hphase hsent => exact holds_some.2 (by simp [hphase])
  | retry hphase hreport hsent => exact fun _ => holds_some.2 nofun
  | accept hphase hsent => rfl
  | fail hphase hsent => rfl

/-- The action keeps nothing held without a send. -/
structure Action.IsBare (a : Action) : Prop where
  /-- The last element did not keep what is held. -/
  held : a.held = false
  /-- It does not hold. -/
  phase : ∀ deadline, a.phase ≠ .holding deadline

theorem Action.isBare_ofLine (line : Text) : (ofLine line).IsBare :=
  ⟨rfl, by rintro deadline ⟨⟩⟩

/-- On a joystick nothing is kept held without a send. -/
theorem Action.isBare_step {a : Action} (hprofile : p.profile = .horipadS) (h : a.IsBare)
    {now : Nat} {isCancelled : Bool} {a' : Action}
    (hstate : (a.step now isCancelled p).state? = some a') : a'.IsBare := by
  have hkeeps : p.keepsHeld = false := by simp [Pad.keepsHeld, hprofile]
  cases hphase : a.phase with
  | choosing =>
    cases hsteps : a.steps with
    | nil =>
      simp only [step, hphase, choose, hsteps, h.held, Bool.false_eq_true, if_false, Turn.state?,
        Option.some.injEq] at hstate
      subst hstate
      exact ⟨rfl, by rintro deadline ⟨⟩⟩
    | cons c rest =>
      simp only [step, hphase, choose, hsteps, hkeeps, Bool.false_and, Bool.false_eq_true, if_false,
        Turn.state?, Option.some.injEq] at hstate
      subst hstate
      exact ⟨rfl, by rintro deadline ⟨⟩⟩
  | sending x hold =>
    simp only [step, hphase] at hstate
    rcases Turn.state_within hstate with ⟨x', -, rfl⟩ | ⟨p', result, -, hnext⟩
    · exact ⟨h.held, by rintro deadline ⟨⟩⟩
    · cases result with
      | ok t =>
        obtain rfl := Option.some.inj hnext
        exact ⟨h.held, by rintro deadline ⟨⟩⟩
      | error e => cases hnext
  | holding deadline => exact absurd hphase (h.phase deadline)
  | closing x =>
    simp only [step, hphase] at hstate
    rcases Turn.state_within hstate with ⟨x', -, rfl⟩ | ⟨p', result, -, hnext⟩
    · exact ⟨h.held, by rintro deadline ⟨⟩⟩
    · cases hnext

theorem Action.grips_step (hprofile : p.profile = .horipadS) {a : Action} (hbare : a.IsBare)
    (h : p.LeftTo a.send?) (now : Nat) (isCancelled : Bool) :
    (a.step now isCancelled p).Grips id send? := by
  cases hphase : a.phase with
  | choosing =>
    have hfree : p.sinkHeld = false := h.free fun x hx => by simp [send?, hphase] at hx
    cases hsteps : a.steps with
    | nil =>
      simp only [step, hphase, choose, hsteps, hbare.held, Bool.false_eq_true, if_false]
      exact Turn.grips_go hfree
    | cons c rest =>
      simp only [step, hphase, choose, hsteps]
      split <;> exact Turn.grips_go hfree
  | sending x hold =>
    rw [send?, hphase] at h
    simp only [step, hphase]
    refine (x.grips_step hprofile h now isCancelled).within (fun _ => rfl) fun w result hfree => ?_
    cases result with
    | ok t => exact Turn.grips_go hfree
    | error e => exact hfree
  | holding deadline => exact absurd hphase (hbare.phase deadline)
  | closing x =>
    rw [send?, hphase] at h
    simp only [step, hphase]
    exact (x.grips_step hprofile h now isCancelled).within (fun _ => rfl) fun w result hfree => hfree

/-- No action of the run keeps anything held without a send. -/
def Execution.IsBare (e : Execution) : Prop := ∀ a, e.phase = .acting a → a.IsBare

theorem Execution.isBare_of_choosing {e : Execution} (h : e.phase = .choosing) : e.IsBare := by
  intro a ha
  cases h.symm.trans ha

theorem Execution.isBare_release (e : Execution) (result : Except RunError Unit) :
    (e.release result).IsBare := by
  intro a ha
  cases ha

theorem Execution.isBare_choose {e : Execution} (hphase : e.phase = .choosing)
    (isCancelled : Bool) : (e.choose isCancelled).IsBare := by
  unfold choose
  split
  · exact isBare_release e _
  · split
    · rintro a ⟨⟩
      exact Action.isBare_ofLine _
    · unfold endCycle
      simp only
      split
      · exact isBare_release _ _
      · split
        · exact isBare_release _ _
        · exact isBare_of_choosing hphase

/-- On a joystick no action of a run keeps anything held without a send. -/
theorem Execution.isBare_step {e : Execution} (hprofile : s.pad.profile = .horipadS) (h : e.IsBare)
    {e' : Execution} (hstate : (e.step s).state? = some e') : e'.IsBare := by
  cases hphase : e.phase with
  | choosing =>
    simp only [step, hphase] at hstate
    obtain rfl := Option.some.inj hstate
    exact isBare_choose hphase _
  | acting a =>
    simp only [step, hphase] at hstate
    rcases Turn.state_within hstate with ⟨a', hstate', rfl⟩ | ⟨s', result, -, hnext⟩
    · rw [Turn.state?_widen] at hstate'
      rintro b ⟨⟩
      exact Action.isBare_step hprofile (h a hphase) hstate'
    · cases result with
      | ok _ =>
        obtain rfl := Option.some.inj hnext
        exact isBare_of_choosing rfl
      | error error =>
        obtain rfl := Option.some.inj hnext
        exact isBare_release e _
  | releasing x result =>
    simp only [step, hphase] at hstate
    rcases Turn.state_within hstate with ⟨x', -, rfl⟩ | ⟨s', result', -, hnext⟩
    · intro a ha
      cases ha
    · cases hnext

/-- **A step of a run grips the sink.** -/
theorem Execution.grips_step (hprofile : s.pad.profile = .horipadS) {e : Execution}
    (hbare : e.IsBare) (h : s.pad.LeftTo e.send?) : (e.step s).Grips Station.pad send? := by
  cases hphase : e.phase with
  | choosing =>
    have hfree : s.pad.sinkHeld = false := h.free fun x hx => by simp [send?, hphase] at hx
    simp only [step, hphase]
    exact Turn.grips_go hfree
  | acting a =>
    rw [send?, hphase] at h
    simp only [step, hphase]
    have hgrips := Action.grips_step hprofile (hbare a hphase) h s.now s.queue.cancelled
    refine hgrips.widen.within (fun _ => rfl) fun w result hfree => ?_
    cases result with
    | ok _ => exact Turn.grips_go hfree
    | error error => exact Turn.grips_go hfree
  | releasing x result =>
    rw [send?, hphase] at h
    simp only [step, hphase]
    have hgrips := x.grips_step hprofile h s.now false
    exact hgrips.widen.within (fun _ => rfl) fun w result hfree => hfree

end Grips

/-! ### The runner -/

namespace Runner

/-- The send of the run. -/
def send? : Runner → Option Send
  | .idle => none
  | .playing e => e.send?

/-- There is a run. -/
def isPlaying : Runner → Bool
  | .idle => false
  | .playing _ => true

/-- The send of the run has the sink. -/
def hasSink (r : Runner) : Bool := r.send?.any fun x => x.phase ≠ .asking

theorem hasSink_iff {r : Runner} : r.hasSink = true ↔ Send.Holds r.send? := by
  simp [hasSink, Send.Holds, Option.any_eq_true]

/-- The runner waits, or a run has been found that turns to its first line. -/
def IsFresh (r : Runner) : Prop := ∀ e, r = .playing e → e.phase = .choosing

theorem isFresh_idle : IsFresh .idle := by
  intro e he
  cases he

theorem IsFresh.send_eq {r : Runner} (h : r.IsFresh) : r.send? = none := by
  cases r with
  | idle => rfl
  | playing e => rw [send?, Execution.send?, h e rfl]

variable {setup : Setup} {s : Station}

/-- A runner without a run leaves the pad alone. -/
theorem step_of_idle (setup : Setup) (s : Station) :
    step setup .idle s = .wait s .idle false ∨
      ∃ s' r, step setup .idle s = .go s' r ∧ s'.pad = s.pad ∧ r.IsFresh := by
  simp only [step]
  cases s.queue.dequeue? with
  | none => exact .inl rfl
  | some next =>
    obtain ⟨request, queue⟩ := next
    right
    cases hstart : Cursor.start? setup.library request.name request.overrides with
    | none =>
      simp only [Execution.start?, hstart, Option.map_none]
      exact ⟨_, _, rfl, rfl, isFresh_idle⟩
    | some cursor =>
      simp only [Execution.start?, hstart, Option.map_some]
      refine ⟨_, _, rfl, rfl, ?_⟩
      rintro e ⟨⟩
      rfl

theorem deals_step (hprofile : s.pad.profile = .horipadS) (setup : Setup) (r : Runner) :
    s.pad.Deals s.now (r.step setup s).world.pad r.send? ((r.step setup s).state?.bind send?) := by
  cases r with
  | idle =>
    rcases step_of_idle setup s with hstep | ⟨s', r, hstep, hpad, hfresh⟩
    · rw [hstep]
      refine .rest rfl rfl rfl rfl fun y hy => ?_
      cases hy
    · rw [hstep]
      refine .rest (by rw [Turn.world, hpad]) (by rw [Turn.world, hpad]) (by rw [Turn.world, hpad])
        (by rw [Turn.world, hpad]) fun y hy => ?_
      rw [Turn.state?, Option.bind_some, hfresh.send_eq] at hy
      cases hy
  | playing e =>
    exact (e.deals_step hprofile).within Station.pad Execution.send? send? (fun _ => rfl)
      (fun _ _ => rfl) fun w result y hy => by simp [Turn.state?, send?] at hy

theorem tries_step (r : Runner) (s : Station) :
    s.pad.sink.Tries (r.step setup s).world.pad.sink := by
  cases r with
  | idle =>
    rcases step_of_idle setup s with hstep | ⟨s', r, hstep, hpad, -⟩
    · rw [hstep]
      exact .refl s.pad.sink
    · rw [hstep, Turn.world, hpad]
      exact .refl s.pad.sink
  | playing e =>
    rw [step, Turn.pad_within fun _ _ => rfl]
    exact e.tries_step s

/-- No action of the run keeps anything held without a send. -/
def IsBare (r : Runner) : Prop := ∀ e, r = .playing e → e.IsBare

theorem IsFresh.isBare {r : Runner} (h : r.IsFresh) : r.IsBare := by
  intro e he a ha
  cases (h e he).symm.trans ha

theorem isBare_step (hprofile : s.pad.profile = .horipadS) {r : Runner} (h : r.IsBare)
    {r' : Runner} (hstate : (r.step setup s).state? = some r') : r'.IsBare := by
  cases r with
  | idle =>
    rcases step_of_idle setup s with hstep | ⟨s', r, hstep, -, hfresh⟩
    · rw [hstep] at hstate
      obtain rfl := Option.some.inj hstate
      exact isFresh_idle.isBare
    · rw [hstep] at hstate
      obtain rfl := Option.some.inj hstate
      exact hfresh.isBare
  | playing e =>
    rw [step] at hstate
    rcases Turn.state_within hstate with ⟨e', hstate', rfl⟩ | ⟨s', outcome, -, hnext⟩
    · rintro e'' ⟨⟩
      exact Execution.isBare_step hprofile (h e rfl) hstate'
    · obtain rfl := Option.some.inj hnext
      exact isFresh_idle.isBare

theorem grips_step (hprofile : s.pad.profile = .horipadS) {e : Execution} (hbare : e.IsBare)
    (h : s.pad.LeftTo e.send?) :
    (step setup (.playing e) s).Grips Station.pad send? :=
  (e.grips_step hprofile hbare h).within (fun _ => rfl) fun _ _ hfree => Turn.grips_go hfree

end Runner

/-- A step of a session deals with the pad. -/
theorem Realtime.deals_serve {s : Station} (hprofile : s.pad.profile = .horipadS) (r : Realtime) :
    s.pad.Deals s.now (r.serve s).world.pad r.send? ((r.serve s).state?.bind Realtime.send?) :=
  (r.deals_step hprofile).within Station.pad Realtime.send? Realtime.send? (fun _ => rfl)
    (fun _ _ => rfl) fun w result y hy => by simp [Turn.state?, send?] at hy

end PadScript
