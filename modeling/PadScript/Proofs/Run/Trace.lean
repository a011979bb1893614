import PadScript.Proofs.Run.Step

/-!
# Traces of runs

A run shows of itself which lines it takes, when a send takes effect, and when it begins another
cycle. `Execution.Trace` is what it shows up to some moment, while others share the station with it.

* `Execution.advance_of_left` : what a step of a run that goes on comes to, case by case.
* `Execution.shows_line_iff_begins` : a run shows a line where it begins the action of the line.
* `Execution.Trace.of_alone` : a run that is alone, so that `Execution.alone` computes its trace.
* `Execution.HasMacro.outcome_ne` : a run that has begun does not fail for want of its macro.
-/

namespace PadScript

namespace Execution

/-- Something that a run shows of itself. -/
inductive Event where
  /-- It has taken a line to play. -/
  | line (line : Text)
  /-- The send of an action line has taken effect at a time. -/
  | sent (line : Text) (time : Nat)
  /-- It begins another cycle. -/
  | again
deriving DecidableEq, Repr

/-- The line that is taken. -/
def Event.line? : Event → Option Text
  | .line given => some given
  | .sent _ _ => none
  | .again => none

/-- The time of a send. -/
def Event.sentAt? : Event → Option Nat
  | .line _ => none
  | .sent _ time => some time
  | .again => none

end Execution

/-- What the next step of a send shows. -/
def Send.shows (now : Nat) (isCancelled : Bool) (x : Send) (p : Pad) : Option Execution.Event :=
  match x.step now isCancelled p with
  | .done _ (.ok time) => some (.sent x.line time)
  | _ => none

/-- What the next step of an action shows. -/
def Action.shows (now : Nat) (isCancelled : Bool) (a : Action) (p : Pad) :
    Option Execution.Event :=
  a.send?.bind fun x => x.shows now isCancelled p

/-- An action shows that its send takes effect, which is now. -/
theorem Action.shows_eq_some {now : Nat} {isCancelled : Bool} {a : Action} {p : Pad}
    {event : Execution.Event} (h : a.shows now isCancelled p = some event) :
    ∃ x p', a.send? = some x ∧ event = .sent x.line now ∧
      x.step now isCancelled p = .done p' (.ok now) ∧
      (a.step now isCancelled p).world.pacer.last? = some now := by
  obtain ⟨x, hsend, hshows⟩ := Option.bind_eq_some_iff.1 h
  have hcomes := x.step_comes now isCancelled p
  have hworld := (step_of_send hsend now isCancelled p).world_eq
  unfold Send.shows at hshows
  cases hstep : x.step now isCancelled p with
  | wait p' x' again => simp [hstep] at hshows
  | go p' x' => simp [hstep] at hshows
  | done p' result =>
    rw [hstep] at hshows hcomes hworld
    cases result with
    | error e => simp at hshows
    | ok t =>
      obtain ⟨-, rfl, hlast⟩ := hcomes
      rw [hworld]
      exact ⟨x, p', hsend, (Option.some.inj hshows).symm, hstep, hlast⟩

namespace Execution

/-- What the next step of a run shows. What happens after its last line is not shown. -/
def shows (e : Execution) (s : Station) : Option Event :=
  match e.phase with
  | .choosing =>
    match (e.choose s.queue.cancelled).phase with
    | .choosing => some .again
    | .acting _ => e.cursor.nextLine.1.map .line
    | .releasing _ _ => none
  | .acting a => a.shows s.now s.queue.cancelled s.pad
  | .releasing _ _ => none

/-- What a run shows while others do to the station what they may do, the oldest event first. -/
inductive Trace (others : Station → Station → Prop) (e₀ : Execution) (s₀ : Station) :
    List Event → Execution → Station → Prop
  /-- Nothing has happened. -/
  | start : Trace others e₀ s₀ [] e₀ s₀
  /-- The run makes a step and is not over. -/
  | step {events : List Event} {e e' : Execution} {s s' : Station} :
      Trace others e₀ s₀ events e s → (e.step s).left? = some (s', e') →
      Trace others e₀ s₀ (events ++ (e.shows s).toList) e' s'
  /-- The others do something. -/
  | others {events : List Event} {e : Execution} {s s' : Station} :
      Trace others e₀ s₀ events e s → others s s' → Trace others e₀ s₀ events e s'

variable {others : Station → Station → Prop} {e₀ e e' : Execution} {s₀ s s' : Station}

theorem Trace.trans {events more : List Event} (h : Trace others e₀ s₀ events e s)
    (hmore : Trace others e s more e' s') : Trace others e₀ s₀ (events ++ more) e' s' := by
  induction hmore with
  | start => simpa using h
  | step _ hleft ih =>
    rw [← List.append_assoc]
    exact ih.step hleft
  | others _ hothers ih => exact ih.others hothers

/-- How many cycles have been played at the end of this one. -/
def counted (e : Execution) : Nat := min (e.cycles + 1) mostCycles

/-- The cycles asked for have been played at the end of this one. -/
def IsLast (e : Execution) : Prop := 0 < e.loopCount ∧ e.loopCount ≤ e.counted

/-- What a step of a run comes to that goes on, and what it shows. -/
inductive Advance (e : Execution) (s : Station) : Option Event → Execution → Station → Prop
  /-- It is cancelled between two lines. -/
  | cancel : e.phase = .choosing → s.queue.cancelled = true →
      Advance e s none (e.release (.error .cancelled)) s
  /-- It takes a line. -/
  | line {line : Text} {cursor : Cursor} : e.phase = .choosing → s.queue.cancelled = false →
      e.cursor.nextLine = (some line, cursor) →
      Advance e s (some (.line line))
        { e with cursor := cursor, produced := true, phase := .acting (.ofLine line) } s
  /-- There is no line, and the cycle was the last one. -/
  | finish {cursor : Cursor} : e.phase = .choosing → s.queue.cancelled = false →
      e.cursor.nextLine = (none, cursor) → e.IsLast ∨ e.produced = false →
      Advance e s none ({ e with cursor := cursor, cycles := e.counted }.release (.ok ())) s
  /-- There is no line, and another cycle begins. -/
  | again {cursor : Cursor} : e.phase = .choosing → s.queue.cancelled = false →
      e.cursor.nextLine = (none, cursor) → ¬ e.IsLast → e.produced = true →
      Advance e s (some .again)
        { e with cursor := cursor.startCycle, cycles := e.counted, produced := false } s
  /-- It plays a line. -/
  | act {a a' : Action} {p : Pad} : e.phase = .acting a →
      (a.step s.now s.queue.cancelled s.pad).left? = some (p, a') →
      Advance e s (a.shows s.now s.queue.cancelled s.pad) { e with phase := .acting a' }
        { s with pad := p }
  /-- It has played a line. -/
  | played {a : Action} {p : Pad} : e.phase = .acting a →
      a.step s.now s.queue.cancelled s.pad = .done p (.ok ()) →
      Advance e s (a.shows s.now s.queue.cancelled s.pad) { e with phase := .choosing }
        { s with pad := p }
  /-- It has failed to play a line. -/
  | fail {a : Action} {p : Pad} {error : RunError} : e.phase = .acting a →
      a.step s.now s.queue.cancelled s.pad = .done p (.error error) →
      Advance e s (a.shows s.now s.queue.cancelled s.pad) (e.release (.error error))
        { s with pad := p }
  /-- It lets everything go. -/
  | release {x x' : Send} {result : Except RunError Unit} {p : Pad} :
      e.phase = .releasing x result → (x.step s.now false s.pad).left? = some (p, x') →
      Advance e s none { e with phase := .releasing x' result } { s with pad := p }

theorem choose_eq_of_none {cursor : Cursor} (hcancelled : s.queue.cancelled = false)
    (hline : e.cursor.nextLine = (none, cursor)) :
    (e.IsLast ∨ e.produced = false) ∧ e.choose s.queue.cancelled =
        { e with cursor := cursor, cycles := e.counted }.release (.ok ()) ∨
      (¬ e.IsLast ∧ e.produced = true) ∧ e.choose s.queue.cancelled =
        { e with cursor := cursor.startCycle, cycles := e.counted, produced := false } := by
  have hchoose : e.choose s.queue.cancelled = endCycle { e with cursor := cursor } := by
    simp [choose, hcancelled, hline]
  rw [hchoose]
  by_cases hlast : e.IsLast
  · exact .inl ⟨.inl hlast, if_pos hlast⟩
  · have hend : endCycle { e with cursor := cursor } =
        if !e.produced then { e with cursor := cursor, cycles := e.counted }.release (.ok ())
        else { e with cursor := cursor.startCycle, cycles := e.counted, produced := false } :=
      if_neg hlast
    rw [hend]
    cases hproduced : e.produced with
    | false => exact .inl ⟨.inr rfl, rfl⟩
    | true => exact .inr ⟨⟨hlast, rfl⟩, rfl⟩

theorem advance_choose (h : e.phase = .choosing) :
    Advance e s (e.shows s) (e.choose s.queue.cancelled) s := by
  cases hcancelled : s.queue.cancelled with
  | true =>
    have hchoose : e.choose true = e.release (.error .cancelled) := rfl
    have hshows : e.shows s = none := by simp [shows, h, hcancelled, hchoose, release]
    rw [hshows, hchoose]
    exact .cancel h hcancelled
  | false =>
    cases hline : e.cursor.nextLine with
    | mk line? cursor =>
      cases line? with
      | some line =>
        have hchoose : e.choose false = { e with
            cursor := cursor, produced := true, phase := .acting (.ofLine line) } := by
          simp [choose, hline]
        have hshows : e.shows s = some (.line line) := by
          simp [shows, h, hcancelled, hchoose, hline]
        rw [hshows, hchoose]
        exact .line h hcancelled hline
      | none =>
        have hnone := choose_eq_of_none hcancelled hline
        rw [hcancelled] at hnone
        rcases hnone with ⟨hend, hchoose⟩ | ⟨⟨hlast, hproduced⟩, hchoose⟩
        · have hshows : e.shows s = none := by simp [shows, h, hcancelled, hchoose, release]
          rw [hshows, hchoose]
          exact .finish h hcancelled hline hend
        · have hshows : e.shows s = some .again := by simp [shows, h, hcancelled, hchoose]
          rw [hshows, hchoose]
          exact .again h hcancelled hline hlast hproduced

/-- **What a step of a run comes to** that goes on. -/
theorem advance_of_left (h : (e.step s).left? = some (s', e')) : Advance e s (e.shows s) e' s' := by
  unfold step at h
  cases hphase : e.phase with
  | choosing =>
    simp only [hphase, Turn.left?, Option.some.injEq, Prod.mk.injEq] at h
    obtain ⟨rfl, rfl⟩ := h
    exact advance_choose hphase
  | acting a =>
    have hshows : e.shows s = a.shows s.now s.queue.cancelled s.pad := by simp [shows, hphase]
    rw [hshows]
    simp only [hphase] at h
    rcases Turn.left_within h with ⟨a', hleft, rfl⟩ | ⟨s'', result, hdone, hnext⟩
    · obtain ⟨p, hstep, rfl⟩ := Turn.left_widen hleft
      exact .act hphase hstep
    · obtain ⟨p, hstep, rfl⟩ := Turn.done_widen hdone
      cases result with
      | ok _ =>
        obtain ⟨rfl, rfl⟩ := Prod.mk.inj (Option.some.inj hnext)
        exact .played hphase hstep
      | error error =>
        obtain ⟨rfl, rfl⟩ := Prod.mk.inj (Option.some.inj hnext)
        exact .fail hphase hstep
  | releasing x result =>
    have hshows : e.shows s = none := by simp [shows, hphase]
    rw [hshows]
    simp only [hphase] at h
    rcases Turn.left_within h with ⟨x', hleft, rfl⟩ | ⟨s'', sent, -, hnext⟩
    · obtain ⟨p, hstep, rfl⟩ := Turn.left_widen hleft
      exact .release hphase hstep
    · simp [Turn.left?] at hnext

/-- **A run shows a line where it begins the action of the line**, and in no other step. -/
theorem shows_line_iff_begins {a : Action} (h : (e.step s).left? = some (s', e')) :
    (∃ line, e.shows s = some (.line line) ∧ a = .ofLine line) ↔
      e.phase = .choosing ∧ e'.phase = .acting a := by
  have hadvance := advance_of_left h
  have hnot {a : Action} (line : Text) :
      a.shows s.now s.queue.cancelled s.pad ≠ some (.line line) := by
    intro hshows
    obtain ⟨x, p, -, hevent, -, -⟩ := Action.shows_eq_some hshows
    cases hevent
  generalize e.shows s = shown at hadvance
  cases hadvance with
  | cancel _ _ => simp [release]
  | line hphase _ _ => simp [hphase, eq_comm]
  | finish _ _ _ _ => simp [release]
  | again hphase _ _ _ _ => simp [hphase]
  | act hphase _ => simp [hphase, hnot]
  | played _ _ => simp [hnot]
  | fail _ _ => simp [hnot, release]
  | release hphase _ => simp [hphase]

/-- Another cycle begins between two lines, and only if this one has given a line. -/
theorem produced_of_again (h : e.shows s = some .again) :
    e.phase = .choosing ∧ e.produced = true := by
  cases hphase : e.phase with
  | choosing =>
    obtain ⟨s', -, hadvance⟩ :
        ∃ s', s' = s ∧ Advance e s (e.shows s) (e.choose s.queue.cancelled) s' :=
      ⟨s, rfl, advance_choose hphase⟩
    generalize e.shows s = shown at hadvance h
    generalize e.choose s.queue.cancelled = e' at hadvance
    cases hadvance with
    | cancel _ _ => simp at h
    | line _ _ _ => simp at h
    | finish _ _ _ _ => simp at h
    | again _ _ _ _ hproduced => exact ⟨rfl, hproduced⟩
    | act hacting _ => simp [hphase] at hacting
    | played hacting _ => simp [hphase] at hacting
    | fail hacting _ => simp [hphase] at hacting
    | release hreleasing _ => simp [hphase] at hreleasing
  | acting a =>
    simp only [shows, hphase] at h
    obtain ⟨x, p', -, hevent, -, -⟩ := Action.shows_eq_some h
    simp at hevent
  | releasing x result => simp [shows, hphase] at h

/-- All that a run changes of the station is the pad. -/
theorem Advance.exists_next {shown : Option Event} (h : Advance e s shown e' s') :
    ∃ p, s' = { s with pad := p } ∧ s.pad.Next s.now p := by
  cases h with
  | cancel _ _ => exact ⟨s.pad, rfl, .refl s.now s.pad⟩
  | line _ _ _ => exact ⟨s.pad, rfl, .refl s.now s.pad⟩
  | finish _ _ _ _ => exact ⟨s.pad, rfl, .refl s.now s.pad⟩
  | again _ _ _ _ _ => exact ⟨s.pad, rfl, .refl s.now s.pad⟩
  | @act a a' p _ hgone =>
    have hnext := a.next_world s.now s.queue.cancelled s.pad
    rw [← Turn.world_of_left hgone] at hnext
    exact ⟨p, rfl, hnext⟩
  | @played a p _ hdone =>
    have hnext := a.next_world s.now s.queue.cancelled s.pad
    rw [hdone] at hnext
    exact ⟨p, rfl, hnext⟩
  | @fail a p error _ hdone =>
    have hnext := a.next_world s.now s.queue.cancelled s.pad
    rw [hdone] at hnext
    exact ⟨p, rfl, hnext⟩
  | @release x x' result p _ hgone =>
    have hnext := x.next_world s.now false s.pad
    rw [← Turn.world_of_left hgone] at hnext
    exact ⟨p, rfl, hnext⟩

/-- A run leaves the kind of pad alone. -/
theorem profile_of_left (hleft : (e.step s).left? = some (s', e')) :
    s'.pad.profile = s.pad.profile := by
  obtain ⟨p, rfl, hnext⟩ := (advance_of_left hleft).exists_next
  exact hnext.profile

/-- A run ends when it has let everything go. -/
theorem step_eq_done {outcome : RunOutcome} (h : e.step s = .done s' outcome) :
    ∃ x result, e.phase = .releasing x result ∧ outcome = e.outcome result := by
  unfold step at h
  cases hphase : e.phase with
  | choosing => simp [hphase] at h
  | acting a =>
    simp only [hphase] at h
    obtain ⟨s'', result, -, hnext⟩ := Turn.done_within h
    cases result <;> simp at hnext
  | releasing x result =>
    simp only [hphase] at h
    obtain ⟨s'', sent, -, hnext⟩ := Turn.done_within h
    exact ⟨x, result, rfl, (Turn.done.inj hnext).2.symm⟩

/-! ### A run that is alone -/

/-- The station when time has gone by until the run need not wait any more. -/
def rested (e : Execution) (s : Station) : Station :=
  { s with now := max s.now (e.deadline?.getD s.now) }

/-- What a run shows in some steps while it is alone, and where it stands after them. If it is over
sooner, it stands before its last step. -/
def alone : (n : Nat) → Execution → Station → List Event × Execution × Station
  | 0, e, s => ([], e, s)
  | n + 1, e, s =>
    match (e.step (e.rested s)).left? with
    | some (s', e') => ((e.shows (e.rested s)).toList ++ (alone n e' s').1, (alone n e' s').2)
    | none => ([], e, e.rested s)

/-- A run that is alone is one whose company only lets time go by. -/
theorem Trace.of_alone {past : List Event}
    (hothers : ∀ s later, s.now ≤ later → others s { s with now := later }) (n : Nat)
    (h : Trace others e₀ s₀ past e s) :
    Trace others e₀ s₀ (past ++ (alone n e s).1) (alone n e s).2.1 (alone n e s).2.2 := by
  induction n generalizing e s past with
  | zero => simpa [alone] using h
  | succ n ih =>
    have hrested : Trace others e₀ s₀ past e (e.rested s) :=
      h.others (hothers _ _ (Nat.le_max_left _ _))
    cases hleft : (e.step (e.rested s)).left? with
    | some next =>
      obtain ⟨s', e'⟩ := next
      simp only [alone, hleft]
      rw [← List.append_assoc]
      exact ih (hrested.step hleft)
    | none => simpa [alone, hleft] using hrested

/-! ### A run that has begun -/

theorem start?_of_cursor {setup : Setup} {r : PlayRequest} {cursor : Cursor}
    (h : Cursor.start? setup.library r.name r.overrides = some cursor) (s : Station) :
    start? setup r s = some (⟨r.loopCount, cursor, 0, false, .choosing⟩,
      { s with queue := { s.queue with running := true } }) := by
  simp [start?, h]

/-- What a run comes to is not that there is no macro. -/
def HasMacro (e : Execution) : Prop :=
  ∀ x result, e.phase = .releasing x result → result ≠ .error .unknownMacro

theorem HasMacro.release {result : Except RunError Unit} (h : result ≠ .error .unknownMacro) :
    (e.release result).HasMacro := by
  intro x result' hphase
  simp only [Execution.release, ExecutionPhase.releasing.injEq] at hphase
  rw [← hphase.2]
  exact h

theorem HasMacro.of_left (h : e.HasMacro) (hleft : (e.step s).left? = some (s', e')) :
    e'.HasMacro := by
  have hadvance := advance_of_left hleft
  generalize e.shows s = shown at hadvance
  cases hadvance with
  | cancel _ _ => exact .release (by simp)
  | line _ _ _ => exact fun x result hphase => by simp at hphase
  | finish _ _ _ _ => exact .release (by simp)
  | again hphase _ _ _ _ => exact fun x result hreleasing => by simp [hphase] at hreleasing
  | act _ _ => exact fun x result hphase => by simp at hphase
  | played _ _ => exact fun x result hphase => by simp at hphase
  | fail hphase hstep =>
    -- an action does not fail for want of a macro
    have harises := Action.arisesFrom_of_step hstep
    refine .release fun herror => ?_
    rw [Except.error.inj herror] at harises
    exact harises
  | release hphase _ =>
    intro x' result' hreleasing
    simp only [ExecutionPhase.releasing.injEq] at hreleasing
    rw [← hreleasing.2]
    exact h _ _ hphase

/-- **A run that has begun does not fail for want of its macro.** -/
theorem HasMacro.outcome_ne {outcome : RunOutcome} (h : e.HasMacro)
    (hstep : e.step s = .done s' outcome) : outcome ≠ .failed .unknownMacro := by
  obtain ⟨x, result, hphase, rfl⟩ := step_eq_done hstep
  have hresult := h x result hphase
  unfold Execution.outcome
  split
  · simp
  · simp
  next error _ =>
    intro herror
    rw [RunOutcome.failed.inj herror] at hresult
    exact hresult rfl

end Execution

end PadScript
