import PadScript.Proofs.Run.Recital

/-!
# A run that is alone comes to its end

Every step of a run that need not wait gets it on, so that a run which asks for finitely many cycles
ends when it is alone in a calm station. What gets less is, first, the cycles that are left, then
what the cursor can still read, and then what is left of the chain, of a send and of the reports of
the sink.

* `Send.step_gets_on`, `Action.step_gets_on`, `Execution.step_gets_on` : **a step gets on.**
* `Execution.Undisturbed.exists_over` : a run that is alone comes to its end.
* `Execution.plays_recital` : **a run plays its recital.**
-/

namespace PadScript

/-- Nobody holds the sink but this send. -/
def Pad.HeldFor (x? : Option Send) (p : Pad) : Prop :=
  p.sinkHeld = true → p.profile = .horipadS ∧ ∃ x, x? = some x ∧ x.phase ≠ .asking

theorem Pad.heldFor_of_free {p : Pad} (h : p.sinkHeld = false) (x? : Option Send) :
    p.HeldFor x? := fun hheld => by simp [h] at hheld

/-- The sink is free for a send that asks for it. -/
theorem Pad.HeldFor.free {p : Pad} {x? : Option Send} (h : p.HeldFor x?)
    (hfresh : ∀ x, x? = some x → x.phase = .asking) : p.sinkHeld = false := by
  cases hheld : p.sinkHeld with
  | false => rfl
  | true =>
    obtain ⟨-, x, hx, hphase⟩ := h hheld
    exact absurd (hfresh x hx) hphase

namespace Send

/-- How much there is left to do for a send. -/
def rank (x : Send) (p : Pad) : Nat :=
  match x.phase with
  | .asking => p.sink.outcomes.length + 2
  | .pacing _ => p.sink.outcomes.length + 1
  | .writing _ => p.sink.outcomes.length

/-- What is said of a step that gets on. -/
def GetsOn (bound : Nat) : Turn Pad Send (Except RunError Nat) → Prop
  | .wait p x _ => x.rank p < bound ∧ p.HeldFor (some x)
  | .go p x => x.rank p < bound ∧ p.HeldFor (some x)
  | .done p _ => p.HeldFor none

theorem GetsOn.of_left {bound : Nat} {turn : Turn Pad Send (Except RunError Nat)} {p : Pad}
    {x : Send} (h : GetsOn bound turn) (hleft : turn.left? = some (p, x)) :
    x.rank p < bound ∧ p.HeldFor (some x) := by
  rcases Turn.eq_of_left hleft with ⟨again, rfl⟩ | rfl
  · exact h
  · exact h

variable {now : Nat}

/-- The beginning of a send, or of its report. -/
theorem proceed_gets_on (x : Send) (p : Pad) {wait : Wait} {bound : Nat}
    (hheld : p.sinkHeld = true → p.profile = .horipadS) (hwait : wait ≠ .cancelled)
    (hover : wait = .over → p.sink.outcomes.length < bound)
    (hsleeping : wait ≠ .over → p.sink.outcomes.length + 1 < bound) :
    GetsOn bound (x.proceed now p wait) := by
  cases wait with
  | cancelled => exact absurd rfl hwait
  | sleeping deadline => exact ⟨hsleeping (by simp), fun h => ⟨hheld h, _, rfl, by simp⟩⟩
  | «over» =>
    simp only [proceed]
    cases hprofile : p.profile with
    | horipadS => exact ⟨hover rfl, fun _ => ⟨hprofile, _, rfl, by simp⟩⟩
    | proController =>
      intro h
      rw [hprofile] at hheld
      simpa using hheld h

/-- **A step of a send gets on**, unless it has to wait. -/
theorem step_gets_on (now : Nat) (x : Send) (p : Pad) (hcalm : ∀ e, .refused e ∉ p.sink.outcomes)
    (hheld : p.HeldFor (some x)) (hdue : ∀ deadline, x.deadline? = some deadline → deadline ≤ now) :
    GetsOn (x.rank p) (x.step now false p) := by
  unfold step
  cases hphase : x.phase with
  | asking =>
    have hfree : p.sinkHeld = false := hheld.free fun y hy => by
      rw [← Option.some.inj hy]
      exact hphase
    have hwait : Wait.begin now false (p.pacer.deadline? x.notBefore) ≠ .cancelled :=
      fun h => by simpa using begin_eq_cancelled h
    have hrank : x.rank p = p.sink.outcomes.length + 2 := by simp [rank, hphase]
    rw [hrank]
    simp only
    cases hprofile : p.profile with
    | horipadS =>
      simp only [hfree, Bool.false_eq_true, if_false]
      exact x.proceed_gets_on _ (fun _ => rfl) hwait (fun _ => by simp) (fun _ => by simp)
    | proController =>
      exact x.proceed_gets_on p (fun h => by simp [hfree] at h) hwait (fun _ => by omega)
        (fun _ => by omega)
  | pacing deadline =>
    have hover : Wait.look now false deadline = .over := by
      rw [Wait.look, if_pos (hdue deadline (by simp [deadline?, hphase]))]
    have hrank : x.rank p = p.sink.outcomes.length + 1 := by simp [rank, hphase]
    rw [hrank]
    simp only [hover]
    exact x.proceed_gets_on p (fun h => (hheld h).1) (by simp) (fun _ => by omega)
      (fun h => absurd rfl h)
  | writing w =>
    have hrank : x.rank p = p.sink.outcomes.length := by simp [rank, hphase]
    rw [hrank]
    simp only
    unfold Write.step
    cases houtcomes : p.sink.outcomes with
    | nil => exact Pad.heldFor_of_free rfl _
    | cons o rest =>
      rw [houtcomes] at hcalm
      cases o with
      | taken => exact Pad.heldFor_of_free rfl _
      | suspended =>
        refine ⟨by simp [rank], fun h => ?_⟩
        obtain ⟨hprofile, -⟩ := hheld h
        exact ⟨hprofile, _, rfl, by simp⟩
      | refused e => exact absurd List.mem_cons_self (hcalm e)

end Send

namespace Action

/-- How much there is left to do for an action: of its chain, and of its send. -/
def rank (a : Action) (p : Pad) : Nat × Nat :=
  match a.phase with
  | .choosing => (2 * a.steps.length + 1, 0)
  | .sending x _ => (2 * a.steps.length + 2, x.rank p)
  | .holding _ => (0, 0)
  | .closing x => (0, x.rank p)

/-- What is said of a step that gets on. -/
def GetsOn (bound : Nat × Nat) : Turn Pad Action (Except RunError Unit) → Prop
  | .wait p a _ => Prod.Lex (· < ·) (· < ·) (a.rank p) bound ∧ p.HeldFor a.send?
  | .go p a => Prod.Lex (· < ·) (· < ·) (a.rank p) bound ∧ p.HeldFor a.send?
  | .done p _ => p.HeldFor none

theorem GetsOn.of_left {bound : Nat × Nat} {turn : Turn Pad Action (Except RunError Unit)} {p : Pad}
    {a : Action} (h : GetsOn bound turn) (hleft : turn.left? = some (p, a)) :
    Prod.Lex (· < ·) (· < ·) (a.rank p) bound ∧ p.HeldFor a.send? := by
  rcases Turn.eq_of_left hleft with ⟨again, rfl⟩ | rfl
  · exact h
  · exact h

variable {now : Nat}

/-- The turn to the next element. -/
theorem choose_gets_on {a : Action} {p : Pad} (hphase : a.phase = .choosing)
    (hfree : p.sinkHeld = false) : GetsOn (a.rank p) (a.choose now false p) := by
  have hheld := Pad.heldFor_of_free hfree
  have hrank : a.rank p = (2 * a.steps.length + 1, 0) := by simp [rank, hphase]
  rw [hrank]
  unfold choose
  split
  · split
    · split
      · exact hheld _
      · exact hheld _
      · exact ⟨.left _ _ (Nat.succ_pos _), hheld _⟩
    · exact ⟨.left _ _ (Nat.succ_pos _), hheld _⟩
  next s rest hsteps =>
    have hlength : a.steps.length = rest.length + 1 := by simp [hsteps]
    split
    · refine ⟨?_, hheld _⟩
      simp only [rank, hphase]
      exact .left _ _ (by omega)
    · exact ⟨.left _ _ (by simp only; omega), hheld _⟩

/-- **A step of an action gets on**, unless it has to wait. -/
theorem step_gets_on (now : Nat) (a : Action) (p : Pad) (hcalm : ∀ e, .refused e ∉ p.sink.outcomes)
    (hheld : p.HeldFor a.send?) (hdue : ∀ deadline, a.deadline? = some deadline → deadline ≤ now) :
    GetsOn (a.rank p) (a.step now false p) := by
  cases hphase : a.phase with
  | choosing =>
    have hstep : a.step now false p = a.choose now false p := by simp [step, hphase]
    rw [hstep]
    exact choose_gets_on hphase (hheld.free fun x hx => by simp [send?, hphase] at hx)
  | sending x hold =>
    have hsend := x.step_gets_on now p hcalm (by simpa [send?, hphase] using hheld)
      (by simpa [deadline?, hphase] using hdue)
    have hrank : a.rank p = (2 * a.steps.length + 2, x.rank p) := by simp [rank, hphase]
    rw [hrank]
    simp only [step, hphase]
    cases hstep : x.step now false p with
    | wait p' x' again =>
      rw [hstep] at hsend
      exact ⟨.right _ hsend.1, hsend.2⟩
    | go p' x' =>
      rw [hstep] at hsend
      exact ⟨.right _ hsend.1, hsend.2⟩
    | done p' result =>
      rw [hstep] at hsend
      cases result with
      | error e => exact hsend
      | ok t => exact ⟨.left _ _ (Nat.lt_succ_self _), hsend⟩
  | holding deadline =>
    have hover : Wait.look now false deadline = .over := by
      rw [Wait.look, if_pos (hdue deadline (by simp [deadline?, hphase]))]
    simp only [step, hphase, hover]
    have hnone : a.send? = none := by simp [send?, hphase]
    rw [hnone] at hheld
    exact hheld
  | closing x =>
    have hsend := x.step_gets_on now p hcalm (by simpa [send?, hphase] using hheld)
      (by simpa [deadline?, hphase] using hdue)
    have hrank : a.rank p = (0, x.rank p) := by simp [rank, hphase]
    rw [hrank]
    simp only [step, hphase]
    cases hstep : x.step now false p with
    | wait p' x' again =>
      rw [hstep] at hsend
      exact ⟨.right _ hsend.1, hsend.2⟩
    | go p' x' =>
      rw [hstep] at hsend
      exact ⟨.right _ hsend.1, hsend.2⟩
    | done p' result =>
      rw [hstep] at hsend
      exact hsend

end Action

namespace Execution

/-- The send that a run makes. -/
def send? (e : Execution) : Option Send :=
  match e.phase with
  | .choosing => none
  | .acting a => a.send?
  | .releasing x _ => some x

/-- How much there is left to do for a run: of its cycles, of its cursor, of its line, and of its
send. -/
def rank (e : Execution) (s : Station) : Nat × Nat × Nat × Nat × Nat :=
  match e.phase with
  | .choosing => (e.left, e.cursor.potential, 0, 0, 0)
  | .acting a => (e.left, e.cursor.potential, 1, a.rank s.pad)
  | .releasing x _ => (0, 0, 0, 0, x.rank s.pad)

/-- Less is left to do. -/
abbrev Less : Nat × Nat × Nat × Nat × Nat → Nat × Nat × Nat × Nat × Nat → Prop :=
  Prod.Lex (· < ·) (Prod.Lex (· < ·) (Prod.Lex (· < ·) (Prod.Lex (· < ·) (· < ·))))

variable {all : List Text × Nat} {events : List Event} {e e' : Execution} {s s' : Station}

/-- Between two lines the sink is free. -/
theorem heldFor_of_choosing (hphase : e.phase = .choosing) (hheld : s.pad.HeldFor e.send?)
    (x? : Option Send) : s.pad.HeldFor x? :=
  Pad.heldFor_of_free (hheld.free fun x hx => by simp [send?, hphase] at hx) x?

/-- **A step of a run gets on**, unless it has to wait. -/
theorem Undisturbed.step_gets_on (h : Undisturbed all events e s) (hheld : s.pad.HeldFor e.send?)
    (hdue : ∀ deadline, e.deadline? = some deadline → deadline ≤ s.now)
    (hleft : (e.step s).left? = some (s', e')) :
    Less (e'.rank s') (e.rank s) ∧ s'.pad.HeldFor e'.send? := by
  have hrecites := h.recites
  unfold Recites at hrecites
  have hadvance := advance_of_left hleft
  generalize e.shows s = shown at hadvance
  cases hadvance with
  | cancel _ hcancelled => simp [h.calm.not_cancelled] at hcancelled
  | line hphase _ hline =>
    refine ⟨?_, heldFor_of_choosing hphase hheld _⟩
    simp only [rank, hphase]
    exact .right _ (.left _ _ (Cursor.potential_lt_of_nextLine hline))
  | finish hphase _ hline hend =>
    refine ⟨?_, heldFor_of_choosing hphase hheld _⟩
    simp only [hphase] at hrecites
    simp only [rank, hphase, Execution.release]
    exact .left _ _ hrecites.1
  | again hphase _ hline hlast hproduced =>
    refine ⟨?_, heldFor_of_choosing hphase hheld _⟩
    simp only [hphase] at hrecites
    have hcounted := counted_eq h.isFinite hrecites.1
    have hless := hrecites.1
    simp only [rank, hphase, left, hcounted] at hless ⊢
    exact .left _ _ (by omega)
  | @act a a' p hphase hgone =>
    have haction := a.step_gets_on s.now s.pad h.calm.not_refused
      (by simpa [send?, hphase] using hheld) (by simpa [deadline?, hphase] using hdue)
    rw [h.calm.not_cancelled] at hgone
    obtain ⟨hless, hheld'⟩ := haction.of_left hgone
    refine ⟨?_, hheld'⟩
    simp only [rank, hphase]
    exact .right _ (.right _ (.right _ hless))
  | @played a p hphase hdone =>
    have haction := a.step_gets_on s.now s.pad h.calm.not_refused
      (by simpa [send?, hphase] using hheld) (by simpa [deadline?, hphase] using hdue)
    rw [h.calm.not_cancelled] at hdone
    rw [hdone] at haction
    refine ⟨?_, haction⟩
    simp only [rank, hphase]
    exact .right _ (.right _ (.left _ _ Nat.one_pos))
  | fail _ hstep => exact absurd (Action.arisesFrom_of_step hstep) h.calm.not_arisesFrom
  | @release x x' result p hphase hgone =>
    have hsend := x.step_gets_on s.now s.pad h.calm.not_refused
      (by simpa [send?, hphase] using hheld) (by simpa [deadline?, hphase] using hdue)
    obtain ⟨hless, hheld'⟩ := hsend.of_left hgone
    refine ⟨?_, hheld'⟩
    simp only [rank, hphase]
    exact .right _ (.right _ (.right _ (.right _ hless)))

theorem le_rested {deadline : Nat} (h : e.deadline? = some deadline) :
    deadline ≤ (e.rested s).now := by
  rw [rested, h]
  exact Nat.le_max_right s.now deadline

/-- A run that is alone comes to its end. -/
theorem Undisturbed.exists_over {events : List Event} {e : Execution} {s : Station}
    (h : Undisturbed all events e s) (hheld : s.pad.HeldFor e.send?) :
    ∃ n s' outcome, (alone n e s).2.1.step (alone n e s).2.2 = .done s' outcome := by
  have hrested : Undisturbed all events e (e.rested s) :=
    ⟨s.keepsCalm_later _ h.calm, h.isFinite, h.recites⟩
  cases hleft : (e.step (e.rested s)).left? with
  | none =>
    obtain ⟨s', outcome, hstep⟩ := Turn.exists_done_of_left hleft
    refine ⟨1, s', outcome, ?_⟩
    simp only [alone, hleft]
    exact hstep
  | some next =>
    obtain ⟨s', e'⟩ := next
    obtain ⟨hless, hheld'⟩ := hrested.step_gets_on hheld (fun _ => le_rested) hleft
    obtain ⟨n, s'', outcome, hover⟩ := (hrested.step hleft).exists_over hheld'
    exact ⟨n + 1, s'', outcome, by simpa [alone, hleft] using hover⟩
termination_by e.rank s
decreasing_by exact hless

/-- **A run plays its recital**, if finitely many cycles are asked for and the station is calm. When
it is alone and nobody holds the sink it comes to its end; whatever its company does otherwise, it
plays the lines of the recital in order and ends with the last of them. -/
theorem plays_recital {setup : Setup} {r : PlayRequest} {cursor : Cursor} {s : Station}
    (hcursor : Cursor.start? setup.library r.name r.overrides = some cursor)
    (hpos : 1 ≤ r.loopCount) (hcount : r.loopCount < UInt32.size) (hcalm : s.Calm)
    (hrecital : recital r.loopCount.toNat false cursor = all) :
    ∃ e₀ s₀, start? setup r s = some (e₀, s₀) ∧
      (s.pad.sinkHeld = false → ∃ n s',
        (alone n e₀ s₀).2.1.step (alone n e₀ s₀).2.2 = .done s' (.completed all.2) ∧
        played (alone n e₀ s₀).1 = all.1) ∧
      ∀ events e s', Trace Station.KeepsCalm e₀ s₀ events e s' → played events <+: all.1 ∧
        ∀ s'' outcome, e.step s' = .done s'' outcome →
          outcome = .completed all.2 ∧ played events = all.1 := by
  refine ⟨_, _, start?_of_cursor hcursor s, ?_⟩
  have hbegun : Undisturbed all [] ⟨r.loopCount, cursor, 0, false, .choosing⟩
      { s with queue := { s.queue with running := true } } := by
    rw [← hrecital]
    exact .start ⟨hcalm.not_cancelled, hcalm.not_refused⟩ (by omega) (by rw [mostCycles]; omega)
  refine ⟨fun hfree => ?_, fun events e s' htrace => ?_⟩
  · obtain ⟨n, s', outcome, hover⟩ := hbegun.exists_over (Pad.heldFor_of_free hfree _)
    have hend := (Trace.start.of_alone (fun s later _ => s.keepsCalm_later later) n).undisturbed
      hbegun
    obtain ⟨rfl, hplayed⟩ := hend.over hover
    exact ⟨n, s', hover, hplayed⟩
  · have hnow := htrace.undisturbed hbegun
    exact ⟨hnow.recites.begins, fun s'' outcome hover => hnow.over hover⟩

end Execution

end PadScript
