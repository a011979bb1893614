import PadScript.Play.Execution

/-!
# What a step of a run comes to

A run is an action inside a run, a send inside an action, and an attempt of the sink inside a send.
This file says for each of them what a step does to the pad, and why it can fail.

* `Pad.Next` : what a step does to the pad.
* `RunError.ArisesFrom` : what must be so for a step to fail.
* `Send.step_comes`, `Action.step_comes`, `Execution.step_comes` : what a step comes to.
-/

namespace PadScript

namespace Turn

variable {ω ω' σ τ α β : Type}

/-- Where a task stands after a step, unless it is done. -/
def left? : Turn ω σ α → Option (ω × σ)
  | wait w s _ => some (w, s)
  | go w s => some (w, s)
  | done _ _ => none

/-- What tasks share after a step. -/
def world : Turn ω σ α → ω
  | wait w _ _ => w
  | go w _ => w
  | done w _ => w

/-- A task that is not done waits or goes on. -/
theorem eq_of_left {turn : Turn ω σ α} {w : ω} {x : σ} (h : turn.left? = some (w, x)) :
    (∃ again, turn = .wait w x again) ∨ turn = .go w x := by
  cases turn with
  | wait w' x' again =>
    obtain ⟨rfl, rfl⟩ := Prod.mk.inj (Option.some.inj h)
    exact .inl ⟨again, rfl⟩
  | go w' x' =>
    obtain ⟨rfl, rfl⟩ := Prod.mk.inj (Option.some.inj h)
    exact .inr rfl
  | done w' result => simp [left?] at h

theorem world_of_left {turn : Turn ω σ α} {w : ω} {x : σ} (h : turn.left? = some (w, x)) :
    w = turn.world := by
  rcases eq_of_left h with ⟨again, rfl⟩ | rfl
  · rfl
  · rfl

theorem exists_done_of_left {turn : Turn ω σ α} (h : turn.left? = none) :
    ∃ w a, turn = .done w a := by
  cases turn with
  | wait w x again => simp [left?] at h
  | go w x => simp [left?] at h
  | done w a => exact ⟨w, a, rfl⟩

@[simp] theorem world_widen (f : ω → ω') (turn : Turn ω σ α) :
    (turn.widen f).world = f turn.world := by
  cases turn <;> rfl

/-- Something that a part of a task leaves as it is stays so, if what follows the part leaves it
so. -/
theorem world_within {κ : Type} {f : ω → κ} {x : κ} {turn : Turn ω σ α} {stay : σ → τ}
    {next : ω → α → Turn ω τ β} (h : f turn.world = x) (hnext : ∀ w a, f (next w a).world = f w) :
    f (turn.within stay next).world = x := by
  cases turn with
  | wait w y again => exact h
  | go w y => exact h
  | done w a => exact (hnext w a).trans h

/-- If a task goes on, its part goes on, or the part is done and what follows it goes on. -/
theorem left_within {turn : Turn ω σ α} {stay : σ → τ} {next : ω → α → Turn ω τ β} {w : ω} {y : τ}
    (h : (turn.within stay next).left? = some (w, y)) :
    (∃ x, turn.left? = some (w, x) ∧ y = stay x) ∨
      ∃ w' a, turn = .done w' a ∧ (next w' a).left? = some (w, y) := by
  cases turn with
  | wait w' x again =>
    obtain ⟨rfl, rfl⟩ := Prod.mk.inj (Option.some.inj h)
    exact .inl ⟨x, rfl, rfl⟩
  | go w' x =>
    obtain ⟨rfl, rfl⟩ := Prod.mk.inj (Option.some.inj h)
    exact .inl ⟨x, rfl, rfl⟩
  | done w' a => exact .inr ⟨w', a, rfl, h⟩

theorem done_within {turn : Turn ω σ α} {stay : σ → τ} {next : ω → α → Turn ω τ β} {w : ω} {b : β}
    (h : turn.within stay next = .done w b) :
    ∃ w' a, turn = .done w' a ∧ next w' a = .done w b := by
  cases turn with
  | wait w' x again => simp [within] at h
  | go w' x => simp [within] at h
  | done w' a => exact ⟨w', a, rfl, h⟩

theorem left_widen {turn : Turn ω σ α} {f : ω → ω'} {w' : ω'} {x : σ}
    (h : (turn.widen f).left? = some (w', x)) : ∃ w, turn.left? = some (w, x) ∧ w' = f w := by
  cases turn with
  | wait w y again =>
    obtain ⟨rfl, rfl⟩ := Prod.mk.inj (Option.some.inj h)
    exact ⟨w, rfl, rfl⟩
  | go w y =>
    obtain ⟨rfl, rfl⟩ := Prod.mk.inj (Option.some.inj h)
    exact ⟨w, rfl, rfl⟩
  | done w a => simp [widen, left?] at h

theorem done_widen {turn : Turn ω σ α} {f : ω → ω'} {w' : ω'} {a : α}
    (h : turn.widen f = .done w' a) : ∃ w, turn = .done w a ∧ w' = f w := by
  cases turn with
  | wait w y again => simp [widen] at h
  | go w y => simp [widen] at h
  | done w b =>
    obtain ⟨rfl, rfl⟩ := Turn.done.inj h
    exact ⟨w, rfl, rfl⟩

end Turn

/-- What a step at a time does to the pad: it may count as a send, and use up outcomes of the
sink. -/
structure Pad.Next (now : Nat) (p p' : Pad) : Prop where
  /-- It is the same kind of pad. -/
  profile : p'.profile = p.profile
  /-- Sends are kept apart as before. -/
  interval : p'.pacer.interval = p.pacer.interval
  /-- If the last send is another one, it was now. -/
  last : p'.pacer.last? = p.pacer.last? ∨ p'.pacer.last? = some now
  /-- Outcomes are used up in order. -/
  outcomes : p'.sink.outcomes <:+ p.sink.outcomes

/-- What must be so for a step to fail. -/
def RunError.ArisesFrom (isCancelled : Bool) (p : Pad) : RunError → Prop
  | .cancelled => isCancelled = true
  | .output e => .refused e ∈ p.sink.outcomes
  | .unknownMacro => False

namespace Pad.Next

variable {now : Nat} {p p' : Pad}

theorem refl (now : Nat) (p : Pad) : p.Next now p := ⟨rfl, rfl, .inl rfl, List.suffix_rfl⟩

/-- Only the sink has changed, or who holds it. -/
theorem ofSink {sink : Sink} (h : sink.outcomes <:+ p.sink.outcomes) (held : Bool) :
    p.Next now { p with sink := sink, sinkHeld := held } := ⟨rfl, rfl, .inl rfl, h⟩

end Pad.Next

theorem Write.step_next (now : Nat) (w : Write) (s : Sink) :
    match w.step now s with
    | .wait s' _ _ => s'.outcomes <:+ s.outcomes
    | .go s' _ => s'.outcomes <:+ s.outcomes
    | .done s' result =>
      s'.outcomes <:+ s.outcomes ∧ ∀ e, result = .error e → .refused e ∈ s.outcomes := by
  obtain ⟨outcomes, sent, attempts⟩ := s
  obtain ⟨report, retries⟩ := w
  cases outcomes with
  | nil => simp [step]
  | cons o rest =>
    have htail : rest <:+ o :: rest := List.suffix_cons o rest
    cases o with
    | taken => exact ⟨htail, by simp⟩
    | suspended => exact htail
    | refused e =>
      cases e with
      | wouldBlock =>
        cases retries with
        | zero => exact ⟨htail, by simp⟩
        | succ retries => exact htail
      | disconnected => exact ⟨htail, by simp⟩
      | io => exact ⟨htail, by simp⟩

namespace Send

/-- A wait that is given up was cancelled. -/
theorem begin_eq_cancelled {now : Nat} {isCancelled : Bool} {deadline? : Option Nat}
    (h : Wait.begin now isCancelled deadline? = .cancelled) : isCancelled = true := by
  cases isCancelled with
  | true => rfl
  | false =>
    cases deadline? with
    | none => simp [Wait.begin] at h
    | some t =>
      simp only [Wait.begin, Bool.false_eq_true, if_false] at h
      split at h <;> simp at h

theorem look_eq_cancelled {now : Nat} {isCancelled : Bool} {deadline : Nat}
    (h : Wait.look now isCancelled deadline = .cancelled) : isCancelled = true := by
  unfold Wait.look at h
  split at h
  · simp at h
  · split at h
    next hc => exact hc
    next => simp at h

/-- What is said of a step of a send on a pad. -/
def Comes (now : Nat) (isCancelled : Bool) (x : Send) (p : Pad) :
    Turn Pad Send (Except RunError Nat) → Prop
  | .wait p' x' _ => p.Next now p' ∧ x'.line = x.line
  | .go p' x' => p.Next now p' ∧ x'.line = x.line
  | .done p' (.ok t) => p.Next now p' ∧ t = now ∧ p'.pacer.last? = some now
  | .done p' (.error e) => p.Next now p' ∧ e.ArisesFrom isCancelled p

theorem proceed_comes {now : Nat} {isCancelled : Bool} (x : Send) (p : Pad) (wait : Wait)
    (h : wait = .cancelled → isCancelled = true) (held : Bool) :
    x.Comes now isCancelled p (x.proceed now { p with sinkHeld := held } wait) := by
  cases wait with
  | «over» =>
    simp only [proceed]
    split
    · exact ⟨⟨rfl, rfl, .inl rfl, List.suffix_rfl⟩, rfl⟩
    · exact ⟨⟨rfl, rfl, .inr rfl, List.suffix_rfl⟩, rfl, rfl⟩
  | cancelled =>
    simp only [proceed]
    split <;> exact ⟨⟨rfl, rfl, .inl rfl, List.suffix_rfl⟩, h rfl⟩
  | sleeping deadline => exact ⟨⟨rfl, rfl, .inl rfl, List.suffix_rfl⟩, rfl⟩

/-- **What a step of a send comes to.** -/
theorem step_comes (now : Nat) (isCancelled : Bool) (x : Send) (p : Pad) :
    x.Comes now isCancelled p (x.step now isCancelled p) := by
  unfold step
  cases x.phase with
  | asking =>
    simp only
    split
    · split
      · exact ⟨.refl now p, rfl⟩
      · exact proceed_comes x p _ begin_eq_cancelled true
    · exact proceed_comes x p _ begin_eq_cancelled p.sinkHeld
  | pacing deadline =>
    simp only
    split
    · exact ⟨.refl now p, rfl⟩
    · exact proceed_comes x p _ look_eq_cancelled p.sinkHeld
  | writing w =>
    have hnext := w.step_next now p.sink
    simp only
    cases hstep : w.step now p.sink with
    | wait sink w again =>
      rw [hstep] at hnext
      exact ⟨.ofSink hnext p.sinkHeld, rfl⟩
    | go sink w =>
      rw [hstep] at hnext
      exact ⟨.ofSink hnext p.sinkHeld, rfl⟩
    | done sink result =>
      rw [hstep] at hnext
      cases result with
      | ok _ => exact ⟨⟨rfl, rfl, .inr rfl, hnext.1⟩, rfl, rfl⟩
      | error e => exact ⟨.ofSink hnext.1 false, hnext.2 e rfl⟩

/-- What a step of a send does to the pad. -/
theorem next_world (now : Nat) (isCancelled : Bool) (x : Send) (p : Pad) :
    p.Next now (x.step now isCancelled p).world := by
  have hcomes := x.step_comes now isCancelled p
  cases hstep : x.step now isCancelled p with
  | wait p' x' again =>
    rw [hstep] at hcomes
    exact hcomes.1
  | go p' x' =>
    rw [hstep] at hcomes
    exact hcomes.1
  | done p' result =>
    rw [hstep] at hcomes
    cases result with
    | ok t => exact hcomes.1
    | error e => exact hcomes.1

/-- A send that goes on is still one of its line. -/
theorem line_of_left {now : Nat} {isCancelled : Bool} {x x' : Send} {p p' : Pad}
    (h : (x.step now isCancelled p).left? = some (p', x')) : x'.line = x.line := by
  have hcomes := x.step_comes now isCancelled p
  rcases Turn.eq_of_left h with ⟨again, hstep⟩ | hstep
  · rw [hstep] at hcomes
    exact hcomes.2
  · rw [hstep] at hcomes
    exact hcomes.2

end Send

/-! ### The send inside an action -/

namespace Action

/-- The send that an action makes. -/
def send? (a : Action) : Option Send :=
  match a.phase with
  | .choosing => none
  | .sending x _ => some x
  | .holding _ => none
  | .closing x => some x

/-- If there is a send, it is at its beginning. -/
def IsFresh (a : Action) : Prop := ∀ x, a.send? = some x → x.phase = .asking

/-- How a step of an action follows from a step of its send. -/
def Follows : Turn Pad Send (Except RunError Nat) → Turn Pad Action (Except RunError Unit) → Prop
  | .wait p x again, t => ∃ a, t = .wait p a again ∧ a.send? = some x
  | .go p x, t => ∃ a, t = .go p a ∧ a.send? = some x
  | .done p (.ok _), t => t = .done p (.ok ()) ∨ ∃ a, t = .go p a ∧ a.send? = none
  | .done p (.error e), t => t = .done p (.error e)

variable {now : Nat} {isCancelled : Bool} {a : Action} {p : Pad}

theorem step_of_send {x : Send} (h : a.send? = some x) (now : Nat) (isCancelled : Bool) (p : Pad) :
    Follows (x.step now isCancelled p) (a.step now isCancelled p) := by
  obtain ⟨steps, releaseAt, held, phase⟩ := a
  cases phase with
  | choosing => simp [send?] at h
  | sending x' hold =>
    obtain rfl := Option.some.inj h
    simp only [step]
    cases x'.step now isCancelled p with
    | wait p' x again => exact ⟨_, rfl, rfl⟩
    | go p' x => exact ⟨_, rfl, rfl⟩
    | done p' result =>
      cases result with
      | ok t => exact .inr ⟨_, rfl, rfl⟩
      | error e => rfl
  | holding deadline => simp [send?] at h
  | closing x' =>
    obtain rfl := Option.some.inj h
    simp only [step]
    cases x'.step now isCancelled p with
    | wait p' x again => exact ⟨_, rfl, rfl⟩
    | go p' x => exact ⟨_, rfl, rfl⟩
    | done p' result =>
      cases result with
      | ok t => exact .inl rfl
      | error e => rfl

/-- What is said of a step of an action that makes no send. -/
def Idles (isCancelled : Bool) (p : Pad) : Turn Pad Action (Except RunError Unit) → Prop
  | .wait p' a' _ => p' = p ∧ a'.IsFresh
  | .go p' a' => p' = p ∧ a'.IsFresh
  | .done p' (.ok ()) => p' = p
  | .done p' (.error e) => p' = p ∧ e = .cancelled ∧ isCancelled = true

/-- Between its sends an action leaves the pad alone. -/
theorem step_of_no_send (h : a.send? = none) (now : Nat) (isCancelled : Bool) (p : Pad) :
    Idles isCancelled p (a.step now isCancelled p) := by
  obtain ⟨steps, releaseAt, held, phase⟩ := a
  cases phase with
  | choosing =>
    simp only [step, choose]
    split
    · split
      · split
        · rfl
        next hwait => exact ⟨rfl, rfl, Send.begin_eq_cancelled hwait⟩
        · exact ⟨rfl, by simp [IsFresh, send?]⟩
      · exact ⟨rfl, by simp [IsFresh, send?, Send.ofLine]⟩
    · split
      · exact ⟨rfl, by simp [IsFresh, send?]⟩
      · exact ⟨rfl, by simp [IsFresh, send?, Send.ofLine]⟩
  | sending x hold => simp [send?] at h
  | holding deadline =>
    simp only [step]
    split
    · rfl
    next hwait => exact ⟨rfl, rfl, Send.look_eq_cancelled hwait⟩
    · exact ⟨rfl, by simp [IsFresh, send?]⟩
  | closing x => simp [send?] at h

theorem Follows.world_eq {t : Turn Pad Send (Except RunError Nat)}
    {t' : Turn Pad Action (Except RunError Unit)} (h : Follows t t') : t'.world = t.world := by
  cases t with
  | wait p x again =>
    obtain ⟨a, rfl, -⟩ := h
    rfl
  | go p x =>
    obtain ⟨a, rfl, -⟩ := h
    rfl
  | done p result =>
    cases result with
    | ok _ =>
      rcases h with rfl | ⟨a, rfl, -⟩
      · rfl
      · rfl
    | error e =>
      obtain rfl : t' = .done p (.error e) := h
      rfl

theorem Idles.world_eq {t : Turn Pad Action (Except RunError Unit)} (h : Idles isCancelled p t) :
    t.world = p := by
  cases t with
  | wait p' a again => exact h.1
  | go p' a => exact h.1
  | done p' result =>
    cases result with
    | ok _ => exact h
    | error e => exact h.1

/-- What a step of an action does to the pad. -/
theorem next_world (now : Nat) (isCancelled : Bool) (a : Action) (p : Pad) :
    p.Next now (a.step now isCancelled p).world := by
  cases hsend : a.send? with
  | none =>
    rw [(step_of_no_send hsend now isCancelled p).world_eq]
    exact .refl now p
  | some x =>
    rw [(step_of_send hsend now isCancelled p).world_eq]
    exact x.next_world now isCancelled p

/-- The send that an action makes after a step is at its beginning, or it was made before and has
gone on. -/
theorem send_of_left {p' : Pad} {a' : Action} {x' : Send}
    (h : (a.step now isCancelled p).left? = some (p', a')) (hsend' : a'.send? = some x') :
    x'.phase = .asking ∨
      ∃ x, a.send? = some x ∧ (x.step now isCancelled p).left? = some (p', x') := by
  cases hsend : a.send? with
  | none =>
    have hidles := step_of_no_send hsend now isCancelled p
    left
    rcases Turn.eq_of_left h with ⟨again, hstep⟩ | hstep
    · rw [hstep] at hidles
      exact hidles.2 x' hsend'
    · rw [hstep] at hidles
      exact hidles.2 x' hsend'
  | some x =>
    have hfollows := step_of_send hsend now isCancelled p
    right
    refine ⟨x, rfl, ?_⟩
    cases hstep : x.step now isCancelled p with
    | wait p'' x'' again =>
      rw [hstep] at hfollows
      obtain ⟨a'', ha'', hsend''⟩ := hfollows
      rw [ha''] at h
      obtain ⟨rfl, rfl⟩ := Prod.mk.inj (Option.some.inj h)
      obtain rfl := Option.some.inj (hsend'.symm.trans hsend'')
      rfl
    | go p'' x'' =>
      rw [hstep] at hfollows
      obtain ⟨a'', ha'', hsend''⟩ := hfollows
      rw [ha''] at h
      obtain ⟨rfl, rfl⟩ := Prod.mk.inj (Option.some.inj h)
      obtain rfl := Option.some.inj (hsend'.symm.trans hsend'')
      rfl
    | done p'' result =>
      rw [hstep] at hfollows
      cases result with
      | ok _ =>
        rcases hfollows with hdone | ⟨a'', hgo, hnone⟩
        · simp [hdone, Turn.left?] at h
        · rw [hgo] at h
          obtain ⟨rfl, rfl⟩ := Prod.mk.inj (Option.some.inj h)
          simp [hnone] at hsend'
      | error e =>
        rw [Follows] at hfollows
        simp [hfollows, Turn.left?] at h

/-- Why an action fails. -/
theorem arisesFrom_of_step {p' : Pad} {e : RunError}
    (h : a.step now isCancelled p = .done p' (.error e)) : e.ArisesFrom isCancelled p := by
  cases hsend : a.send? with
  | none =>
    have hidles := step_of_no_send hsend now isCancelled p
    rw [h] at hidles
    obtain ⟨-, rfl, hcancelled⟩ := hidles
    exact hcancelled
  | some x =>
    have hfollows := step_of_send hsend now isCancelled p
    have hcomes := x.step_comes now isCancelled p
    rw [h] at hfollows
    cases hstep : x.step now isCancelled p with
    | wait p x again => simp [hstep, Follows] at hfollows
    | go p x => simp [hstep, Follows] at hfollows
    | done p result =>
      rw [hstep] at hfollows hcomes
      cases result with
      | ok t => simp [Follows] at hfollows
      | error e' =>
        simp only [Follows, Turn.done.injEq, Except.error.injEq] at hfollows
        obtain ⟨-, rfl⟩ := hfollows
        exact hcomes.2

end Action

end PadScript
