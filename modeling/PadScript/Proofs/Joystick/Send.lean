import PadScript.Proofs.Run.Pace

/-!
# Sends on a joystick

On the profile `horipadS` a send takes the sink before it waits, keeps it while it waits and writes,
and lets it go when it ends. `Send.Moves` says once what a step of such a send can do.

* `Send.moves_step` : **a step of a send does one of these.**
* `Pad.Deals` : what the steps of any task that sends do to the sink and to the pacer.
* `Send.deals_step` : a step of a send deals with the pad in this way.
-/

namespace PadScript

/-! ### Where a task stands -/

namespace Turn

variable {ω ω' σ τ α β : Type}

/-- The state of a task after a step, unless it is done. -/
def state? : Turn ω σ α → Option σ
  | wait _ x _ => some x
  | go _ x => some x
  | done _ _ => none

@[simp] theorem state?_widen (f : ω → ω') (turn : Turn ω σ α) :
    (turn.widen f).state? = turn.state? := by
  cases turn <;> rfl

end Turn

/-! ### One step of a send -/

namespace Send

/-- The send that writes its report, with some attempts left. -/
def toWrite (x : Send) (w : Write) : Send := { x with phase := .writing w }

/-- What a step of a send can do on a joystick. -/
inductive Moves (now : Nat) (isCancelled : Bool) (x : Send) (p : Pad) :
    Turn Pad Send (Except RunError Nat) → Prop
  /-- Somebody holds the sink. -/
  | queue : x.phase = .asking → p.sinkHeld = true → Moves now isCancelled x p (.wait p x false)
  /-- It is cancelled when it gets the sink. -/
  | refuse : x.phase = .asking → p.sinkHeld = false → isCancelled = true →
      Moves now isCancelled x p (.done { p with sinkHeld := false } (.error .cancelled))
  /-- It gets the sink, and the time is still to come. -/
  | take {deadline : Nat} : x.phase = .asking → p.sinkHeld = false →
      p.pacer.deadline? x.notBefore = some deadline → now < deadline →
      Moves now isCancelled x p
        (.go { p with sinkHeld := true } { x with phase := .pacing deadline })
  /-- It gets the sink, and the time has come. -/
  | takeNow : x.phase = .asking → p.sinkHeld = false →
      (∀ deadline, p.pacer.deadline? x.notBefore = some deadline → deadline ≤ now) →
      Moves now isCancelled x p
        (.go { p with sinkHeld := true } (x.toWrite (.ofReport (p.encode x.line))))
  /-- It goes on waiting. -/
  | sleep {deadline : Nat} : x.phase = .pacing deadline → now < deadline →
      Moves now isCancelled x p (.wait p x false)
  /-- It is cancelled while it waits. -/
  | giveUp {deadline : Nat} : x.phase = .pacing deadline → isCancelled = true →
      Moves now isCancelled x p (.done { p with sinkHeld := false } (.error .cancelled))
  /-- The time has come. -/
  | wake {deadline : Nat} : x.phase = .pacing deadline → deadline ≤ now →
      Moves now isCancelled x p (.go p (x.toWrite (.ofReport (p.encode x.line))))
  /-- An attempt is not over yet. -/
  | suspend {w : Write} {sink : Sink} : x.phase = .writing w → sink.sent = p.sink.sent →
      Moves now isCancelled x p (.wait { p with sink := sink } x true)
  /-- An attempt has blocked, and another one is made. -/
  | retry {w w' : Write} {sink : Sink} : x.phase = .writing w → w'.report = w.report →
      sink.sent = p.sink.sent →
      Moves now isCancelled x p (.go { p with sink := sink } (x.toWrite w'))
  /-- The report is taken. -/
  | accept {w : Write} {sink : Sink} : x.phase = .writing w →
      sink.sent = p.sink.sent ++ [(now, w.report)] →
      Moves now isCancelled x p
        (.done { p with sink := sink, pacer := p.pacer.record now, sinkHeld := false } (.ok now))
  /-- The report is not taken. -/
  | fail {w : Write} {sink : Sink} {e : OutputError} : x.phase = .writing w →
      sink.sent = p.sink.sent →
      Moves now isCancelled x p
        (.done { p with sink := sink, sinkHeld := false } (.error (.output e)))

variable {now : Nat} {isCancelled : Bool} {x : Send} {p : Pad}

/-- What an attempt adds to the reports that were taken. -/
theorem sent_writeStep (now : Nat) (w : Write) (s : Sink) :
    match w.step now s with
    | .wait s' w' again => s'.sent = s.sent ∧ w' = w ∧ again = true
    | .go s' w' => s'.sent = s.sent ∧ w'.report = w.report
    | .done s' (.ok _) => s'.sent = s.sent ++ [(now, w.report)]
    | .done s' (.error _) => s'.sent = s.sent := by
  obtain ⟨outcomes, sent, attempts⟩ := s
  obtain ⟨report, retries⟩ := w
  cases outcomes with
  | nil => rfl
  | cons o rest =>
    cases o with
    | taken => rfl
    | suspended => exact ⟨rfl, rfl, rfl⟩
    | refused e =>
      cases e with
      | wouldBlock =>
        cases retries with
        | zero => rfl
        | succ retries => exact ⟨rfl, rfl⟩
      | disconnected => rfl
      | io => rfl

/-- The moves of a send that asks for the sink. -/
theorem moves_asking (hprofile : p.profile = .horipadS) (hphase : x.phase = .asking)
    (hfree : p.sinkHeld = false) :
    Moves now isCancelled x p (x.proceed now { p with sinkHeld := true }
      (.begin now isCancelled (p.pacer.deadline? x.notBefore))) := by
  cases hwait : Wait.begin now isCancelled (p.pacer.deadline? x.notBefore) with
  | cancelled =>
    simp only [proceed, hprofile, letGo]
    rw [← hprofile]
    exact .refuse hphase hfree (begin_eq_cancelled hwait)
  | sleeping deadline =>
    cases hdeadline : p.pacer.deadline? x.notBefore with
    | none =>
      -- without a deadline there is nothing to sleep for
      rw [hdeadline, Wait.begin] at hwait
      split at hwait <;> simp at hwait
    | some t =>
      rw [hdeadline, Wait.begin] at hwait
      split at hwait
      · simp at hwait
      · split at hwait
        · simp at hwait
        next hnot =>
          obtain rfl := Wait.sleeping.inj hwait
          exact .take hphase hfree hdeadline (Nat.lt_of_not_le hnot)
  | «over» =>
    simp only [proceed, hprofile]
    rw [← hprofile]
    refine .takeNow hphase hfree fun t ht => ?_
    rw [ht, Wait.begin] at hwait
    split at hwait
    · simp at hwait
    · split at hwait
      next hle => exact hle
      next => simp at hwait

/-- **What a step of a send does on a joystick.** -/
theorem moves_step (hprofile : p.profile = .horipadS) (now : Nat) (isCancelled : Bool) (x : Send) :
    Moves now isCancelled x p (x.step now isCancelled p) := by
  unfold step
  cases hphase : x.phase with
  | asking =>
    simp only [hprofile]
    cases hheld : p.sinkHeld with
    | true => exact .queue hphase hheld
    | false =>
      rw [← hprofile]
      exact moves_asking hprofile hphase hheld
  | pacing deadline =>
    simp only
    cases hwait : Wait.look now isCancelled deadline with
    | sleeping t =>
      refine .sleep hphase (Nat.lt_of_not_le fun hle => ?_)
      simp [Wait.look, hle] at hwait
    | cancelled =>
      simp only [proceed, hprofile, letGo]
      rw [← hprofile]
      exact .giveUp hphase (look_eq_cancelled hwait)
    | «over» =>
      simp only [proceed, hprofile]
      refine .wake hphase ?_
      unfold Wait.look at hwait
      split at hwait
      next hle => exact hle
      next => split at hwait <;> simp at hwait
  | writing w =>
    have hsent := sent_writeStep now w p.sink
    simp only
    cases hstep : w.step now p.sink with
    | wait sink w' again =>
      rw [hstep] at hsent
      obtain ⟨hsame, rfl, rfl⟩ := hsent
      have hx : x.toWrite w' = x := by rw [toWrite, ← hphase]
      simp only [Turn.widen, Turn.within]
      rw [← toWrite, hx]
      exact .suspend hphase hsame
    | go sink w' =>
      rw [hstep] at hsent
      exact .retry hphase hsent.2 hsent.1
    | done sink result =>
      rw [hstep] at hsent
      cases result with
      | ok _ => exact .accept hphase hsent
      | error e => exact .fail hphase hsent

end Send

/-! ### What a task that sends does to the pad -/

namespace Send

/-- The send, if there is one, holds the sink. -/
def Holds (x? : Option Send) : Prop := ∃ x, x? = some x ∧ x.phase ≠ .asking

theorem not_holds_none : ¬ Holds none := fun ⟨_, hx, _⟩ => nomatch hx

theorem not_holds_of_asking (h : ∀ x, x? = some x → x.phase = .asking) : ¬ Holds x? :=
  fun ⟨x, hx, hphase⟩ => hphase (h x hx)

theorem holds_some {x : Send} : Holds (some x) ↔ x.phase ≠ .asking := by
  simp [Holds]

end Send

/-- What a step of a task does to the pad, if its send was `x?` before and is `x'?` after. -/
structure Pad.Deals (now : Nat) (p p' : Pad) (x? x'? : Option Send) : Prop where
  /-- It is the same kind of pad. -/
  profile : p'.profile = p.profile
  /-- The sink is taken only if it is free. -/
  free : Send.Holds x'? → ¬ Send.Holds x? → p.sinkHeld = false
  /-- The sink of a send that holds it is held. -/
  held : (Send.Holds x? → p.sinkHeld = true) → Send.Holds x'? → p'.sinkHeld = true
  /-- Nobody lets the sink go for another one. -/
  kept : p.sinkHeld = true → ¬ Send.Holds x? → p'.sinkHeld = true
  /-- A report is taken at most from a send that writes it, which is over then. The pacer records
  exactly this. -/
  sent : (p'.pacer = p.pacer ∧ p'.sink.sent = p.sink.sent) ∨
    ((∃ x w, x? = some x ∧ x.phase = .writing w) ∧ ¬ Send.Holds x'? ∧
      p'.pacer = p.pacer.record now ∧ ∃ report, p'.sink.sent = p.sink.sent ++ [(now, report)])
  /-- A send that waits long enough goes on waiting long enough. -/
  awaits : ∀ {t last : Nat}, p.pacer.last? = some last → t ≤ last →
    (∀ x, x? = some x → x.Awaits (t + p.pacer.interval) now) →
      ∀ x', x'? = some x' → x'.Awaits (t + p.pacer.interval) now

namespace Pad.Deals

variable {now : Nat} {p p' : Pad} {x? x'? y? : Option Send}

/-- A task that neither holds the sink nor takes it, and leaves it alone. -/
theorem rest (hprofile : p'.profile = p.profile) (hpacer : p'.pacer = p.pacer)
    (hsink : p'.sink = p.sink) (hheld : p'.sinkHeld = p.sinkHeld)
    (hfresh : ∀ x', x'? = some x' → x'.phase = .asking) : p.Deals now p' x? x'? where
  profile := hprofile
  free hholds := absurd hholds (Send.not_holds_of_asking hfresh)
  held _ hholds := absurd hholds (Send.not_holds_of_asking hfresh)
  kept h _ := hheld.trans h
  sent := .inl ⟨hpacer, by rw [hsink]⟩
  awaits _ _ _ x' hx' := by simp [Send.Awaits, hfresh x' hx']

/-- When its send is over, a task has no send or one at its beginning. -/
theorem renew (h : p.Deals now p' x? none) (hfresh : ∀ y, y? = some y → y.phase = .asking) :
    p.Deals now p' x? y? where
  profile := h.profile
  free hholds := absurd hholds (Send.not_holds_of_asking hfresh)
  held _ hholds := absurd hholds (Send.not_holds_of_asking hfresh)
  kept := h.kept
  sent := h.sent.imp_right fun ⟨hwriting, _, hrecord, hsent⟩ =>
    ⟨hwriting, Send.not_holds_of_asking hfresh, hrecord, hsent⟩
  awaits _ _ _ y hy := by simp [Send.Awaits, hfresh y hy]

/-- A send that goes on holding the sink. -/
theorem keep {x : Send} (hholds : x.phase ≠ .asking) (hprofile : p'.profile = p.profile)
    (hpacer : p'.pacer = p.pacer) (hsent : p'.sink.sent = p.sink.sent)
    (hheld : p'.sinkHeld = p.sinkHeld)
    (hawaits : ∀ {t last : Nat}, p.pacer.last? = some last → t ≤ last →
      (∀ y, some x = some y → y.Awaits (t + p.pacer.interval) now) →
        ∀ x', x'? = some x' → x'.Awaits (t + p.pacer.interval) now) :
    p.Deals now p' (some x) x'? where
  profile := hprofile
  free _ hnot := absurd (Send.holds_some.2 hholds) hnot
  held h _ := hheld.trans (h (Send.holds_some.2 hholds))
  kept h _ := hheld.trans h
  sent := .inl ⟨hpacer, hsent⟩
  awaits := hawaits

/-- A send that held the sink is over. -/
theorem letGo {x : Send} (hholds : x.phase ≠ .asking) (hprofile : p'.profile = p.profile)
    (hsent : (p'.pacer = p.pacer ∧ p'.sink.sent = p.sink.sent) ∨
      ((∃ y w, some x = some y ∧ y.phase = .writing w) ∧ ¬ Send.Holds none ∧
        p'.pacer = p.pacer.record now ∧ ∃ report, p'.sink.sent = p.sink.sent ++ [(now, report)])) :
    p.Deals now p' (some x) none where
  profile := hprofile
  free h := absurd h Send.not_holds_none
  held _ h := absurd h Send.not_holds_none
  kept _ hnot := absurd (Send.holds_some.2 hholds) hnot
  sent := hsent
  awaits _ _ _ _ hx := nomatch hx

theorem interval (h : p.Deals now p' x? x'?) : p'.pacer.interval = p.pacer.interval := by
  rcases h.sent with ⟨hpacer, -⟩ | ⟨-, -, hpacer, -⟩
  · rw [hpacer]
  · rw [hpacer]
    rfl

section Within

variable {ω σ τ α β : Type} (padOf : ω → Pad) (sendOf : σ → Option Send)
  (sendOf' : τ → Option Send) {turn : Turn ω σ α} {stay : σ → τ} {next : ω → α → Turn ω τ β}

/-- A task deals with the pad as its part does, if it leaves the pad alone when the part is over and
then has no send or one at its beginning. -/
theorem within (h : p.Deals now (padOf turn.world) x? (turn.state?.bind sendOf))
    (hstay : ∀ y, sendOf' (stay y) = sendOf y) (hpad : ∀ w a, padOf (next w a).world = padOf w)
    (hfresh : ∀ w a z, (next w a).state?.bind sendOf' = some z → z.phase = .asking) :
    p.Deals now (padOf (turn.within stay next).world) x?
      ((turn.within stay next).state?.bind sendOf') := by
  cases turn with
  | wait w y again => simpa [Turn.within, Turn.state?, Turn.world, hstay] using h
  | go w y => simpa [Turn.within, Turn.state?, Turn.world, hstay] using h
  | done w a =>
    simp only [Turn.within, hpad]
    exact Pad.Deals.renew h (hfresh w a)

end Within

end Pad.Deals

/-- **A step of a send deals with the pad.** -/
theorem Send.deals_step {p : Pad} (hprofile : p.profile = .horipadS) (now : Nat)
    (isCancelled : Bool) (x : Send) :
    p.Deals now (x.step now isCancelled p).world (some x) (x.step now isCancelled p).state? := by
  have hawaits : ∀ {t last : Nat}, p.pacer.last? = some last → t ≤ last →
      (∀ y, some x = some y → y.Awaits (t + p.pacer.interval) now) →
        ∀ x', (x.step now isCancelled p).state? = some x' →
          x'.Awaits (t + p.pacer.interval) now := by
    intro t last hlast ht h x' hx'
    have heffect : TakesEffectBy (t + p.pacer.interval) now (x.step now isCancelled p) :=
      x.step_awaits p hlast ht (h x rfl)
    cases hstep : x.step now isCancelled p with
    | wait p' y again =>
      rw [hstep] at heffect hx'
      exact Option.some.inj hx' ▸ heffect
    | go p' y =>
      rw [hstep] at heffect hx'
      exact Option.some.inj hx' ▸ heffect
    | done p' result => simp [hstep, Turn.state?] at hx'
  have hmoves := moves_step hprofile now isCancelled x
  generalize x.step now isCancelled p = turn at hmoves hawaits ⊢
  cases hmoves with
  | queue hphase hheld =>
    exact .rest rfl rfl rfl rfl fun y hy => by rwa [← Option.some.inj hy]
  | refuse hphase hfree hcancelled =>
    -- it had the sink for an instant only, and the sink is free again
    exact .rest rfl rfl rfl hfree.symm fun y hy => nomatch hy
  | take hphase hfree hdeadline hlt =>
    exact ⟨rfl, fun _ _ => hfree, fun _ _ => rfl, fun _ _ => rfl, .inl ⟨rfl, rfl⟩, hawaits⟩
  | takeNow hphase hfree hdue =>
    exact ⟨rfl, fun _ _ => hfree, fun _ _ => rfl, fun _ _ => rfl, .inl ⟨rfl, rfl⟩, hawaits⟩
  | sleep hphase hlt => exact .keep (by simp [hphase]) rfl rfl rfl rfl hawaits
  | giveUp hphase hcancelled => exact .letGo (by simp [hphase]) rfl (.inl ⟨rfl, rfl⟩)
  | wake hphase hle => exact .keep (by simp [hphase]) rfl rfl rfl rfl hawaits
  | suspend hphase hsent => exact .keep (by simp [hphase]) rfl rfl hsent rfl hawaits
  | retry hphase hreport hsent => exact .keep (by simp [hphase]) rfl rfl hsent rfl hawaits
  | accept hphase hsent =>
    exact .letGo (by simp [hphase]) rfl
      (.inr ⟨⟨x, _, rfl, hphase⟩, not_holds_none, rfl, _, hsent⟩)
  | fail hphase hsent => exact .letGo (by simp [hphase]) rfl (.inl ⟨rfl, hsent⟩)

end PadScript
