import PadScript.Proofs.Cursor.Exhaustion
import PadScript.Proofs.Queue.Effect
import PadScript.Proofs.Run.Trace

/-!
# What a run recites

The recital of a run are the lines that it plays in all its cycles, one after another, and how many
cycles these are. `Execution.recital` says it for a run that nothing comes between: nobody cancels
it and no report is refused. It goes by the cursor alone and knows nothing of sends and times.

* `Execution.Recites.step` : in a calm station, what a run has played and is about to play is its
  recital.
* `Execution.Undisturbed.over` : **a run that ends has played the lines and the cycles of its
  recital**, whatever its company does otherwise.
-/

namespace PadScript

/-- The run in progress is not cancelled, and the sink is not going to refuse a report. -/
structure Station.Calm (s : Station) : Prop where
  /-- Nobody has cancelled the run. -/
  not_cancelled : s.queue.cancelled = false
  /-- No report is refused. -/
  not_refused : ∀ e, .refused e ∉ s.pad.sink.outcomes

/-- The other tasks neither cancel the run nor bring refusals of the sink. -/
def Station.KeepsCalm (s s' : Station) : Prop := s.Calm → s'.Calm

/-- Time goes by calmly. -/
theorem Station.keepsCalm_later (s : Station) (later : Nat) :
    s.KeepsCalm { s with now := later } := fun h => ⟨h.not_cancelled, h.not_refused⟩

/-- In a calm station nothing fails. -/
theorem Station.Calm.not_arisesFrom {s : Station} (h : s.Calm) {error : RunError} :
    ¬ error.ArisesFrom s.queue.cancelled s.pad := by
  cases error with
  | cancelled => simp [RunError.ArisesFrom, h.not_cancelled]
  | output e => exact h.not_refused e
  | unknownMacro => exact id

theorem Station.Calm.ofNext {s : Station} (h : s.Calm) {p : Pad} (hnext : s.pad.Next s.now p) :
    Calm { s with pad := p } where
  not_cancelled := h.not_cancelled
  not_refused e hmem := h.not_refused e (hnext.outcomes.subset hmem)

namespace Execution

variable {e₀ e e' : Execution} {s₀ s s' : Station} {events : List Event}

theorem Advance.calm {shown : Option Event} (h : Advance e s shown e' s') (hcalm : s.Calm) :
    s'.Calm := by
  obtain ⟨p, rfl, hnext⟩ := h.exists_next
  exact hcalm.ofNext hnext

/-! ### The recital -/

/-- The lines that a run still plays, and in how many cycles, if it is not cancelled and no report
is refused. This cycle included, `n` are asked for, and this one has given a line or not. -/
def recital (n : Nat) (produced : Bool) (c : Cursor) : List Text × Nat :=
  match _h : c.nextLine with
  | (some line, d) => (line :: (recital n true d).1, (recital n true d).2)
  | (none, d) =>
    if _hagain : 1 < n ∧ produced = true then
      ((recital (n - 1) false d.startCycle).1, (recital (n - 1) false d.startCycle).2 + 1)
    else ([], 1)
termination_by (n, c.potential)
decreasing_by
  · exact .right _ (Cursor.potential_lt_of_nextLine _h)
  · exact .left _ _ (by omega)

section Recital

variable {n : Nat} {produced : Bool} {c d : Cursor} {line : Text}

theorem recital_of_line (h : c.nextLine = (some line, d)) :
    recital n produced c = (line :: (recital n true d).1, (recital n true d).2) := by
  rw [recital]
  split
  next line' d' h' =>
    obtain ⟨hline, rfl⟩ := Prod.mk.inj (h.symm.trans h')
    rw [Option.some.inj hline]
  next h' => simp [h] at h'

theorem recital_of_end (h : c.nextLine = (none, d)) (hend : n ≤ 1 ∨ produced = false) :
    recital n produced c = ([], 1) := by
  rw [recital]
  split
  next h' => simp [h] at h'
  next =>
    rw [dif_neg]
    rintro ⟨hn, hproduced⟩
    rcases hend with hend | hend
    · omega
    · simp [hproduced] at hend

theorem recital_of_again (h : c.nextLine = (none, d)) (hn : 1 < n) :
    recital n true c =
      ((recital (n - 1) false d.startCycle).1, (recital (n - 1) false d.startCycle).2 + 1) := by
  rw [recital]
  split
  next h' => simp [h] at h'
  next d' h' =>
    obtain ⟨-, rfl⟩ := Prod.mk.inj (h.symm.trans h')
    rw [dif_pos ⟨hn, rfl⟩]

end Recital

/-- The lines that a run has taken. -/
def played (events : List Event) : List Text := events.filterMap Event.line?

/-- The cycles that are asked for can be counted. -/
def IsFinite (e : Execution) : Prop := 0 < e.loopCount ∧ e.loopCount ≤ mostCycles

/-- The cycles that are asked for and not over. -/
def left (e : Execution) : Nat := e.loopCount.toNat - e.cycles

/-- What a run has played is the beginning of a recital, and it is about to play the rest. -/
def Recites (all : List Text × Nat) (lines : List Text) (e : Execution) : Prop :=
  match e.phase with
  | .releasing _ result => result = .ok () ∧ lines = all.1 ∧ e.cycles = all.2
  | _ => 0 < e.left ∧ lines ++ (recital e.left e.produced e.cursor).1 = all.1 ∧
      e.cycles + (recital e.left e.produced e.cursor).2 = all.2

variable {all : List Text × Nat} {lines : List Text}

theorem counted_eq (h : e.IsFinite) (hleft : 0 < e.left) : e.counted = e.cycles + 1 := by
  obtain ⟨-, hmost⟩ := h
  unfold left at hleft
  unfold counted
  omega

theorem isLast_iff (h : e.IsFinite) (hleft : 0 < e.left) : e.IsLast ↔ e.left ≤ 1 := by
  have hcounted := counted_eq h hleft
  obtain ⟨hpos, -⟩ := h
  unfold IsLast
  unfold left at hleft ⊢
  omega

@[simp] theorem played_append_shows {a : Action} {now : Nat} {isCancelled : Bool} {p : Pad} :
    played (events ++ (a.shows now isCancelled p).toList) = played events := by
  cases hshows : a.shows now isCancelled p with
  | none => simp
  | some event =>
    obtain ⟨x, p', -, rfl, -, -⟩ := Action.shows_eq_some hshows
    simp [played, Event.line?]

theorem Advance.isFinite {shown : Option Event} (h : Advance e s shown e' s') (hfin : e.IsFinite) :
    e'.IsFinite := by
  cases h <;> exact hfin

/-- A step of a run in a calm station. -/
theorem Recites.step {shown : Option Event} (h : Recites all (played events) e)
    (hadvance : Advance e s shown e' s') (hfin : e.IsFinite) (hcalm : s.Calm) :
    Recites all (played (events ++ shown.toList)) e' := by
  unfold Recites at h
  cases hadvance with
  | cancel _ hcancelled => simp [hcalm.not_cancelled] at hcancelled
  | line hphase _ hline =>
    simp only [hphase, recital_of_line hline] at h
    obtain ⟨hleft, hlines, hcycles⟩ := h
    refine ⟨hleft, ?_, hcycles⟩
    rw [← hlines]
    simp [played, Event.line?, left]
  | finish hphase _ hline hend =>
    simp only [hphase] at h
    obtain ⟨hleft, hlines, hcycles⟩ := h
    rw [isLast_iff hfin hleft] at hend
    rw [recital_of_end hline hend] at hlines hcycles
    refine ⟨rfl, ?_, ?_⟩
    · simpa using hlines
    · exact (counted_eq hfin hleft).trans hcycles
  | again hphase _ hline hlast hproduced =>
    simp only [hphase, hproduced] at h
    obtain ⟨hleft, hlines, hcycles⟩ := h
    have hcounted := counted_eq hfin hleft
    rw [isLast_iff hfin hleft] at hlast
    rw [recital_of_again hline (by omega)] at hlines hcycles
    have hnext : e.left - 1 = e.loopCount.toNat - e.counted := by
      rw [hcounted, left]
      omega
    rw [hnext] at hlines hcycles
    unfold Recites
    simp only [hphase]
    refine ⟨by rw [left, ← hnext]; omega, ?_, ?_⟩
    · rw [← hlines]
      simp [played, Event.line?, left]
    · rw [← hcycles]
      simp only [left]
      omega
  | act hphase _ =>
    simp only [hphase] at h
    rw [played_append_shows]
    exact h
  | played hphase _ =>
    simp only [hphase] at h
    rw [played_append_shows]
    exact h
  | fail _ hstep => exact absurd (Action.arisesFrom_of_step hstep) hcalm.not_arisesFrom
  | release hphase _ =>
    simp only [hphase] at h
    simpa [Recites] using h

theorem Recites.begins (h : Recites all lines e) : lines <+: all.1 := by
  unfold Recites at h
  split at h
  · exact h.2.1 ▸ List.prefix_rfl
  · exact ⟨_, h.2.1⟩

/-- What holds of a run that is neither cancelled nor refused a report: its recital is `all`, and it
has shown these events. -/
structure Undisturbed (all : List Text × Nat) (events : List Event) (e : Execution)
    (s : Station) : Prop where
  /-- The station is calm. -/
  calm : s.Calm
  /-- The run is to end. -/
  isFinite : e.IsFinite
  /-- The run recites. -/
  recites : Recites all (played events) e

/-- The beginning of a run. -/
theorem Undisturbed.start {loopCount : Int} {cursor : Cursor} (hcalm : s.Calm)
    (hpos : 0 < loopCount) (hmost : loopCount ≤ mostCycles) :
    Undisturbed (recital loopCount.toNat false cursor) [] ⟨loopCount, cursor, 0, false, .choosing⟩
      s where
  calm := hcalm
  isFinite := ⟨hpos, hmost⟩
  recites := ⟨by simp only [left]; omega, rfl, by simp [left]⟩

theorem Undisturbed.step (h : Undisturbed all events e s)
    (hleft : (e.step s).left? = some (s', e')) :
    Undisturbed all (events ++ (e.shows s).toList) e' s' where
  calm := (advance_of_left hleft).calm h.calm
  isFinite := (advance_of_left hleft).isFinite h.isFinite
  recites := h.recites.step (advance_of_left hleft) h.isFinite h.calm

theorem Trace.undisturbed (h : Trace Station.KeepsCalm e₀ s₀ events e s)
    (hstart : Undisturbed all [] e₀ s₀) : Undisturbed all events e s := by
  induction h with
  | start => exact hstart
  | step _ hleft ih => exact ih.step hleft
  | others _ hkeeps ih => exact ⟨hkeeps ih.calm, ih.isFinite, ih.recites⟩

/-- **A run that ends undisturbed has played its recital.** -/
theorem Undisturbed.over {outcome : RunOutcome} (h : Undisturbed all events e s)
    (hstep : e.step s = .done s' outcome) :
    outcome = .completed all.2 ∧ played events = all.1 := by
  obtain ⟨x, result, hphase, rfl⟩ := step_eq_done hstep
  have hrecites := h.recites
  unfold Recites at hrecites
  simp only [hphase] at hrecites
  obtain ⟨rfl, hlines, hcycles⟩ := hrecites
  rw [outcome, hcycles]
  exact ⟨rfl, hlines⟩

end Execution

end PadScript
